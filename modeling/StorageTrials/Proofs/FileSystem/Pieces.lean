import Mathlib.Algebra.Order.Floor.Div
import StorageTrials.FileSystem.Transfer

namespace StorageTrials

def IsPrefix (a b : ByteArray) : Prop := ∃ rest, b = a ++ rest

variable {source written : ByteArray} {chunk rounds k j m : Nat} {patience : Patience}

theorem isPrefix_empty (b : ByteArray) : IsPrefix .empty b := ⟨b, ByteArray.empty_append.symm⟩

theorem IsPrefix.size_le (h : IsPrefix written source) : written.size ≤ source.size := by
  obtain ⟨rest, rfl⟩ := h
  rw [ByteArray.size_append]
  exact Nat.le_add_right _ _

theorem IsPrefix.eq_of_size (h : IsPrefix written source) (hs : source.size ≤ written.size) :
    written = source := by
  obtain ⟨rest, rfl⟩ := h
  rw [ByteArray.size_append] at hs
  have hrest : rest = .empty := ByteArray.size_eq_zero_iff.mp (by omega)
  rw [hrest, ByteArray.append_empty]

theorem IsPrefix.append (h : IsPrefix written source) (chunk : Nat) :
    IsPrefix (written ++ source.extract written.size (written.size + chunk)) source := by
  obtain ⟨rest, rfl⟩ := h
  refine ⟨rest.extract chunk rest.size, ?_⟩
  have hpiece : (written ++ rest).extract written.size (written.size + chunk) =
      rest.extract 0 chunk := ByteArray.extract_append_size_add (i := 0)
  have hrest : rest.extract 0 chunk ++ rest.extract chunk rest.size = rest := by
    rw [ByteArray.extract_append_extract, Nat.zero_min, ByteArray.extract_zero_max_size]
  rw [hpiece, ByteArray.append_assoc, hrest]

theorem size_piece (source : ByteArray) (n chunk : Nat) :
    (source.extract n (n + chunk)).size = min chunk (source.size - n) := by
  rw [ByteArray.size_extract]
  omega

theorem extract_add_congr {i n : Nat} (h : min n (source.size - i) = min m (source.size - i)) :
    source.extract i (i + n) = source.extract i (i + m) := by
  apply ByteArray.ext
  rw [ByteArray.data_extract, ByteArray.data_extract, Array.extract_eq_extract_right,
    ByteArray.size_data]
  omega

namespace OpenFile

variable {f : OpenFile} {room n : Nat}

def ahead (f : OpenFile) (n : Nat) : ByteArray := f.content.extract f.position (f.position + n)

def after (f : OpenFile) (n : Nat) (hitches : List Hitch) : OpenFile :=
  ⟨f.content, f.position + (f.ahead n).size, hitches⟩

theorem size_ahead (f : OpenFile) (n : Nat) :
    (f.ahead n).size = min n (f.content.size - f.position) :=
  size_piece _ _ _

theorem ahead_eq_empty (h : n = 0 ∨ f.content.size ≤ f.position) : f.ahead n = .empty := by
  apply ByteArray.size_eq_zero_iff.mp
  rw [size_ahead]
  omega

theorem after_of_end (h : n = 0 ∨ f.content.size ≤ f.position) : f.after n f.hitches = f := by
  rw [after, ahead_eq_empty h]
  rfl

theorem ahead_append {b : Nat} (hb : b ≤ n) (f : OpenFile) (hitches : List Hitch) :
    f.ahead b ++ (f.after b hitches).ahead (n - (f.ahead b).size) = f.ahead n := by
  have hsize := f.size_ahead b
  have hfirst : f.ahead b = f.content.extract f.position (f.position + (f.ahead b).size) :=
    extract_add_congr (by omega)
  have hsecond : (f.after b hitches).ahead (n - (f.ahead b).size) =
      f.content.extract (f.position + (f.ahead b).size) (f.position + n) := by
    rw [ahead, after, Nat.add_assoc, Nat.add_sub_cancel' (by omega)]
  calc
    _ = f.content.extract f.position (f.position + (f.ahead b).size) ++
        f.content.extract (f.position + (f.ahead b).size) (f.position + n) := by
      rw [hsecond, ← hfirst]
    _ = f.ahead n := by
      rw [ByteArray.extract_append_extract, Nat.min_eq_left (Nat.le_add_right _ _),
        Nat.max_eq_right (by omega), ahead]

theorem after_after {b : Nat} (hb : b ≤ n) (f : OpenFile) (hs hitches : List Hitch) :
    (f.after b hs).after (n - (f.ahead b).size) hitches = f.after n hitches := by
  have hsize := congrArg ByteArray.size (ahead_append hb f hs)
  rw [ByteArray.size_append] at hsize
  exact congrArg (OpenFile.mk f.content · hitches)
    ((Nat.add_assoc _ _ _).trans (congrArg (f.position + ·) hsize))

theorem read_cases (f : OpenFile) (hroom : 0 < room) :
    (∃ hitches, f.hitches = .interrupted :: hitches ∧
      f.read room = (.error .interruptedCall, ⟨f.content, f.position, hitches⟩)) ∨
    ∃ b, 0 < b ∧ b ≤ room ∧ (f.hitches = [] → b = room) ∧
      f.read room = (.ok (f.ahead b), f.after b f.hitches.tail) := by
  obtain ⟨content, position, hitches⟩ := f
  match hitches with
  | [] => exact .inr ⟨room, hroom, Nat.le_refl _, fun _ => rfl, rfl⟩
  | .interrupted :: hitches => exact .inl ⟨hitches, rfl, rfl⟩
  | .short bytes :: hitches =>
    exact .inr ⟨min room (bytes + 1), by omega, Nat.min_le_left _ _, nofun, rfl⟩

section fill

variable {g : OpenFile} {filled piece : ByteArray} (hroom : ¬ room ≤ filled.size)
include hroom

theorem fill_again (hread : f.read (room - filled.size) = (.error .interruptedCall, g)) :
    f.fill (rounds + 1) room filled = g.fill rounds room filled := by
  rw [fill, if_neg hroom, hread]
  exact if_pos rfl

theorem fill_end (hread : f.read (room - filled.size) = (.ok piece, g)) (h : piece.size = 0) :
    f.fill (rounds + 1) room filled = (.ok filled, g) := by
  rw [fill, if_neg hroom, hread]
  exact if_pos h

theorem fill_more (hread : f.read (room - filled.size) = (.ok piece, g)) (h : piece.size ≠ 0) :
    f.fill (rounds + 1) room filled = g.fill rounds room (filled ++ piece) := by
  rw [fill, if_neg hroom, hread]
  exact if_neg h

end fill

/-- So many rounds suffice: there is one for each hitch and one more, or nothing is left to do. -/
def Suffices (f : OpenFile) (rounds room : Nat) (filled : ByteArray) : Prop :=
  f.hitches.length < rounds ∨
    f.hitches = [] ∧ (room ≤ filled.size ∨ f.content.size ≤ f.position)

theorem Suffices.after {filled : ByteArray} {b : Nat} (h : f.Suffices (rounds + 1) room filled)
    (hall : f.hitches = [] → b = room - filled.size) :
    (f.after b f.hitches.tail).Suffices rounds room (filled ++ f.ahead b) := by
  have hsize : (filled ++ f.ahead b).size =
      filled.size + min b (f.content.size - f.position) := by
    rw [ByteArray.size_append, size_ahead]
  cases hh : f.hitches with
  | nil =>
    have hb := hall hh
    have hposition : (f.after b []).position =
        f.position + min b (f.content.size - f.position) := by
      rw [OpenFile.after, size_ahead]
    refine .inr ⟨rfl, ?_⟩
    change room ≤ (filled ++ f.ahead b).size ∨ f.content.size ≤ (f.after b []).position
    omega
  | cons hitch hitches =>
    rcases h with hlt | ⟨hnil, -⟩
    · rw [hh] at hlt
      exact .inl (Nat.lt_of_succ_lt_succ hlt)
    · cases hh.symm.trans hnil

/-- However the reads go, what comes next is filled in. -/
theorem fill_eq (f : OpenFile) (filled : ByteArray) (h : f.Suffices rounds room filled) :
    ∃ hitches, f.fill rounds room filled =
      (.ok (filled ++ f.ahead (room - filled.size)), f.after (room - filled.size) hitches) := by
  induction rounds generalizing f filled with
  | zero =>
    have hend : room - filled.size = 0 ∨ f.content.size ≤ f.position := by
      rcases h with hlt | ⟨-, hend⟩ <;> omega
    exact ⟨f.hitches, by rw [ahead_eq_empty hend, after_of_end hend, ByteArray.append_empty, fill]⟩
  | succ rounds ih =>
    by_cases hroom : room ≤ filled.size
    · have hend : room - filled.size = 0 ∨ f.content.size ≤ f.position := by omega
      refine ⟨f.hitches, ?_⟩
      rw [fill, if_pos hroom, ahead_eq_empty hend, after_of_end hend, ByteArray.append_empty]
    rcases f.read_cases (show 0 < room - filled.size by omega) with
      ⟨hitches, hhead, hread⟩ | ⟨b, hpos, hle, hall, hread⟩
    · have hrest : hitches.length < rounds := by
        rcases h with hlt | ⟨hnil, -⟩
        · rw [hhead] at hlt
          exact Nat.lt_of_succ_lt_succ hlt
        · cases hhead.symm.trans hnil
      rw [fill_again hroom hread]
      exact ih ⟨f.content, f.position, hitches⟩ filled (.inl hrest)
    · by_cases hpiece : (f.ahead b).size = 0
      · have hend : f.content.size ≤ f.position := by
          rw [size_ahead] at hpiece
          omega
        have hnothing (n : Nat) : f.ahead n = .empty := ahead_eq_empty (.inr hend)
        refine ⟨f.hitches.tail, ?_⟩
        rw [fill_end hroom hread hpiece, hnothing, ByteArray.append_empty, after, after, hnothing,
          hnothing]
      · have hnext : room - (filled ++ f.ahead b).size =
            room - filled.size - (f.ahead b).size := by
          rw [ByteArray.size_append, Nat.sub_add_eq]
        obtain ⟨hitches, hrest⟩ := ih (f.after b f.hitches.tail) (filled ++ f.ahead b)
          (Suffices.after h hall)
        refine ⟨hitches, ?_⟩
        rw [fill_more hroom hread hpiece, hrest, hnext, after_after hle, ByteArray.append_assoc,
          ahead_append hle]

theorem chunk_eq (f : OpenFile) (room : Nat) :
    ∃ hitches, f.chunk room = (.ok (f.ahead room), f.after room hitches) := by
  obtain ⟨hitches, hfill⟩ := f.fill_eq .empty (.inl (Nat.lt_succ_self f.hitches.length))
  exact ⟨hitches, by rw [chunk, hfill, ByteArray.empty_append, ByteArray.size_empty, Nat.sub_zero]⟩

end OpenFile

/-- What a copy comes to that takes whole chunks of its source. -/
def copyChunks (source : ByteArray) (chunk : Nat) :
    (rounds : Nat) → Patience → (written : ByteArray) → ByteArray × Except SystemError Nat
  | 0, _, written => (written, .ok written.size)
  | rounds + 1, patience, written =>
    if patience = some 0 then (written, .error .aborted)
    else
      let piece := source.extract written.size (written.size + chunk)
      if piece.size = 0 then (written, .ok written.size)
      else copyChunks source chunk rounds (patience.map (· - 1)) (written ++ piece)

/-- A copy does not depend on how the reads of its source go. -/
theorem copyPieces_eq {f : OpenFile} (h : f.position = written.size) :
    copyPieces chunk rounds patience f written =
      copyChunks f.content chunk rounds patience written := by
  induction rounds generalizing patience f written with
  | zero => rfl
  | succ rounds ih =>
    obtain ⟨hitches, hchunk⟩ := f.chunk_eq chunk
    have hpiece : f.ahead chunk = f.content.extract written.size (written.size + chunk) := by
      rw [OpenFile.ahead, h]
    rw [copyPieces, copyChunks, hchunk]
    simp only [hpiece]
    split
    · rfl
    · split
      · rfl
      · refine ih ?_
        rw [OpenFile.after, ByteArray.size_append, h, hpiece]

theorem copyPieces_start (source : ByteArray) (chunk rounds : Nat) (patience : Patience)
    (hitches : List Hitch) :
    copyPieces chunk rounds patience ⟨source, 0, hitches⟩ .empty =
      copyChunks source chunk rounds patience .empty :=
  copyPieces_eq rfl

theorem drainPieces_eq (f : OpenFile) (chunk rounds : Nat) (patience : Patience)
    (written : ByteArray) :
    drainPieces chunk rounds patience f written.size =
      (copyPieces chunk rounds patience f written).2 := by
  fun_induction copyPieces chunk rounds patience f written with
  | case1 => rfl
  | case2 rounds f written => rw [drainPieces, if_pos rfl]
  | case3 rounds patience f written hp e f' hchunk => rw [drainPieces, if_neg hp, hchunk]
  | case4 rounds patience f written hp piece f' hchunk hpiece =>
    rw [drainPieces, if_neg hp, hchunk]
    exact if_pos hpiece
  | case5 rounds patience f written hp piece f' hchunk hpiece ih =>
    rw [ByteArray.size_append] at ih
    rw [drainPieces, if_neg hp, hchunk, ← ih]
    exact if_neg hpiece

theorem isPrefix_copyChunks (h : IsPrefix written source) :
    IsPrefix (copyChunks source chunk rounds patience written).1 source := by
  fun_induction copyChunks source chunk rounds patience written with
  | case1 | case2 | case3 => exact h
  | case4 rounds patience written _ piece _ ih => exact ih (h.append chunk)

theorem eq_of_copyChunks (hc : 0 < chunk) (h : IsPrefix written source)
    (hr : source.size < written.size + rounds)
    (hok : (copyChunks source chunk rounds patience written).2 = .ok m) :
    (copyChunks source chunk rounds patience written).1 = source ∧ m = source.size := by
  have hle := h.size_le
  fun_induction copyChunks source chunk rounds patience written with
  | case1 => omega
  | case2 => cases hok
  | case3 rounds patience written _ piece hp =>
    have hsize : piece.size = min chunk (source.size - written.size) := size_piece _ _ _
    have hall : written = source := h.eq_of_size (by omega)
    cases hok
    exact ⟨hall, congrArg ByteArray.size hall⟩
  | case4 rounds patience written _ piece hp ih =>
    have happend := h.append chunk
    refine ih happend ?_ hok happend.size_le
    rw [ByteArray.size_append]
    omega

def Patience.Exceeds (patience : Patience) (n : Nat) : Prop := ∀ j, patience = some j → n < j

theorem Patience.exceeds_none (n : Nat) : Patience.Exceeds none n := nofun

def firstBytes (source : ByteArray) (k : Nat) : ByteArray := source.extract 0 (min k source.size)

theorem size_firstBytes (source : ByteArray) (k : Nat) :
    (firstBytes source k).size = min k source.size := by
  rw [firstBytes, ByteArray.size_extract]
  omega

theorem firstBytes_min (source : ByteArray) (k : Nat) :
    firstBytes source (min k source.size) = firstBytes source k := by
  rw [firstBytes, firstBytes, Nat.min_assoc, Nat.min_self]

theorem firstBytes_append_piece (hk : k ≤ source.size) (chunk : Nat) :
    firstBytes source k ++ source.extract k (k + chunk) = firstBytes source (k + chunk) := by
  have hall : (source.extract 0 source.size).extract 0 (k + chunk) =
      source.extract (0 + 0) (min (0 + (k + chunk)) source.size) := ByteArray.extract_extract
  rw [Nat.zero_add, Nat.zero_add, ByteArray.extract_zero_size] at hall
  rw [firstBytes, Nat.min_eq_left hk, ByteArray.extract_append_extract, Nat.zero_min,
    Nat.max_eq_right (Nat.le_add_right k chunk), hall, firstBytes]

theorem copyChunks_succ (hp : patience ≠ some 0)
    (hpiece : (source.extract written.size (written.size + chunk)).size ≠ 0) :
    copyChunks source chunk (rounds + 1) patience written =
      copyChunks source chunk rounds (patience.map (· - 1))
        (written ++ source.extract written.size (written.size + chunk)) := by
  rw [copyChunks, if_neg hp]
  exact if_neg hpiece

theorem copyChunks_cut (hk : k ≤ source.size) (hr : source.size < k + rounds)
    (hj : ∀ i < j, k + i * chunk < source.size) (hc : 0 < chunk) :
    copyChunks source chunk rounds (some j) (firstBytes source k) =
      (firstBytes source (k + j * chunk), .error .aborted) := by
  induction rounds generalizing k j with
  | zero => omega
  | succ rounds ih =>
    cases j with
    | zero => rw [copyChunks, if_pos rfl, Nat.zero_mul, Nat.add_zero]
    | succ j =>
      have hstart : k < source.size := by simpa using hj 0 (Nat.succ_pos j)
      have hsize : (firstBytes source k).size = k := by
        rw [size_firstBytes, Nat.min_eq_left hk]
      have hpiece : (source.extract (firstBytes source k).size
          ((firstBytes source k).size + chunk)).size ≠ 0 := by
        rw [size_piece, hsize]
        omega
      have hrest : ∀ i < j, min (k + chunk) source.size + i * chunk < source.size := by
        intro i hi
        have hnext := hj (i + 1) (Nat.succ_lt_succ hi)
        rw [Nat.succ_mul] at hnext
        omega
      have hend : firstBytes source (min (k + chunk) source.size + j * chunk) =
          firstBytes source (k + (j + 1) * chunk) := by
        -- past the end of the source it does not matter by how much
        rw [firstBytes, firstBytes, Nat.succ_mul]
        congr 1
        omega
      have hasks : some (j + 1) ≠ some 0 := by simp
      rw [copyChunks_succ hasks hpiece, hsize,
        firstBytes_append_piece hk, ← firstBytes_min, Option.map_some, Nat.add_sub_cancel,
        ih (by omega) (by omega) hrest, hend]

theorem copyChunks_patient (hp : ∀ j, patience = some j →
      ∃ i, j = i + 1 ∧ source.size ≤ written.size + i * chunk) (rounds : Nat) :
    ∃ m, (copyChunks source chunk rounds patience written).2 = .ok m := by
  fun_induction copyChunks source chunk rounds patience written with
  | case1 => exact ⟨_, rfl⟩
  | case2 rounds written =>
    obtain ⟨i, hi, -⟩ := hp 0 rfl
    exact absurd hi (Nat.succ_ne_zero i).symm
  | case3 => exact ⟨_, rfl⟩
  | case4 rounds patience written _ piece hpiece ih =>
    have hsize : piece.size = min chunk (source.size - written.size) := size_piece _ _ _
    refine ih fun j hj => ?_
    obtain ⟨j', rfl, rfl⟩ := Option.map_eq_some_iff.mp hj
    obtain ⟨i, rfl, hi⟩ := hp j' rfl
    cases i with
    | zero => omega
    | succ i =>
      refine ⟨i, rfl, ?_⟩
      rw [Nat.succ_mul] at hi
      rw [ByteArray.size_append]
      omega

/-- A source is copied as a whole if the work may ask once for each chunk of it, and once more to
see its end. -/
theorem copyChunks_of_exceeds (hc : 0 < chunk) (h : patience.Exceeds (source.size ⌈/⌉ chunk)) :
    copyChunks source chunk (source.size + 1) patience .empty = (source, .ok source.size) := by
  have hp : ∀ j, patience = some j →
      ∃ i, j = i + 1 ∧ source.size ≤ ByteArray.empty.size + i * chunk := by
    intro j hj
    have hlt := h j hj
    obtain ⟨i, rfl⟩ := Nat.exists_eq_succ_of_ne_zero (Nat.ne_zero_of_lt hlt)
    have hle := (ceilDiv_le_iff_le_mul hc).mp (Nat.lt_succ_iff.mp hlt)
    exact ⟨i, rfl, by rw [ByteArray.size_empty, Nat.zero_add, Nat.mul_comm]; exact hle⟩
  obtain ⟨m, hm⟩ := copyChunks_patient hp (source.size + 1)
  obtain ⟨hall, rfl⟩ := eq_of_copyChunks hc (isPrefix_empty source) (by simp) hm
  exact Prod.ext hall hm

theorem copyChunks_of_le (hc : 0 < chunk) (h : j ≤ source.size ⌈/⌉ chunk) :
    copyChunks source chunk (source.size + 1) (some j) .empty =
      (firstBytes source (j * chunk), .error .aborted) := by
  have hempty : firstBytes source 0 = .empty := by
    rw [firstBytes, Nat.zero_min]
    exact ByteArray.extract_same
  have hbefore : ∀ i < j, 0 + i * chunk < source.size := by
    intro i hi
    have hnot := (ceilDiv_le_iff_le_mul hc).not.mp (Nat.not_le.mpr (Nat.lt_of_lt_of_le hi h))
    rw [Nat.zero_add, Nat.mul_comm]
    exact Nat.not_le.mp hnot
  have hcut := copyChunks_cut (Nat.zero_le _)
    (show source.size < 0 + (source.size + 1) by omega) hbefore hc
  rwa [hempty, Nat.zero_add] at hcut

end StorageTrials

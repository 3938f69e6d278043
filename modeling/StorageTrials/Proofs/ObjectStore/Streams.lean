import StorageTrials.ObjectStore

namespace StorageTrials.ByteSource

variable {s s' s'' : ByteSource} {filled data a b : ByteArray} {e : SystemError}
variable {room rounds begun next last : Nat}

def bytes (s : ByteSource) : ByteArray := s.pieces.foldr (· ++ ·) .empty

theorem size_bytes (s : ByteSource) : s.bytes.size = (s.pieces.map (·.size)).sum := by
  rw [bytes]
  induction s.pieces with
  | nil => rfl
  | cons p ps ih => rw [List.foldr_cons, ByteArray.size_append, ih, List.map_cons, List.sum_cons]

/-- What comes of pieces if so many bytes have already gone into the chunk that is being filled. A
piece without bytes ends the chunk; if nothing is in the chunk either, it ends the stream. -/
def coming (failure : Option SystemError) :
    (begun : Nat) → List ByteArray → Except SystemError ByteArray
  | _, [] => match failure with
    | none => .ok .empty
    | some e => .error e
  | begun, p :: ps =>
    if p.size = 0 then if begun = 0 then .ok .empty else coming failure 0 ps
    else (coming failure ((begun + p.size) % chunkSize) ps).map (p ++ ·)

def delivered (s : ByteSource) : Except SystemError ByteArray := coming s.failure 0 s.pieces

/-- No piece looks like the end. -/
def Flows (s : ByteSource) : Prop := ∀ p ∈ s.pieces, p.size ≠ 0

theorem coming_of_flows (h : s.Flows) (begun : Nat) :
    coming s.failure begun s.pieces = match s.failure with
      | none => .ok s.bytes
      | some e => .error e := by
  obtain ⟨pieces, failure⟩ := s
  induction pieces generalizing begun with
  | nil => rfl
  | cons p ps ih =>
    obtain ⟨hp, hps⟩ := List.forall_mem_cons.mp h
    have hrest := ih ((begun + p.size) % chunkSize) hps
    simp only at hrest
    rw [coming, if_neg hp, hrest]
    cases failure <;> rfl

theorem delivered_of_flows (h : s.Flows) :
    s.delivered = match s.failure with
      | none => .ok s.bytes
      | some e => .error e :=
  coming_of_flows h 0

theorem map_empty_append (r : Except SystemError ByteArray) : r.map (.empty ++ ·) = r := by
  cases r <;> simp [Except.map]

theorem map_append_map (a b : ByteArray) (r : Except SystemError ByteArray) :
    (r.map (b ++ ·)).map (a ++ ·) = r.map (a ++ b ++ ·) := by
  cases r <;> simp [Except.map, ByteArray.append_assoc]

/-- Some bytes have been taken, and the rest is to come. The chunk that was being filled then held
`begun` bytes, and it holds `next` now. -/
structure Rest (s : ByteSource) (begun : Nat) (taken : ByteArray) (s' : ByteSource) (next : Nat) :
    Prop where
  bytes : taken ++ s'.bytes = s.bytes
  coming : coming s.failure begun s.pieces =
    (coming s'.failure next s'.pieces).map (taken ++ ·)

theorem Rest.refl (s : ByteSource) (begun : Nat) : s.Rest begun .empty s begun where
  bytes := ByteArray.empty_append
  coming := (map_empty_append _).symm

theorem Rest.trans (h : s.Rest begun a s' next) (h' : s'.Rest next b s'' last) :
    s.Rest begun (a ++ b) s'' last where
  bytes := by rw [ByteArray.append_assoc, h'.bytes, h.bytes]
  coming := by rw [h.coming, h'.coming, map_append_map]

theorem read_cons {p : ByteArray} (hp : p.size ≠ 0) (hroom : 0 < room)
    (hbegun : begun + room = chunkSize) (ps : List ByteArray) (failure : Option SystemError) :
    ∃ a s', (⟨p :: ps, failure⟩ : ByteSource).read room = .ok (a, s') ∧ a.size ≠ 0 ∧
      a.size ≤ room ∧ (a.size < room → s'.pieces.length < ps.length + 1) ∧
      (⟨p :: ps, failure⟩ : ByteSource).Rest begun a s' ((begun + a.size) % chunkSize) := by
  by_cases hfits : p.size ≤ room
  · refine ⟨p, ⟨ps, failure⟩, if_pos hfits, hp, hfits, fun _ => Nat.lt_succ_self _, rfl, ?_⟩
    rw [coming, if_neg hp]
  · have hcut : p.extract 0 room ++ p.extract room p.size = p := by
      rw [ByteArray.extract_append_extract, Nat.zero_min, Nat.max_eq_right (by omega),
        ByteArray.extract_zero_size]
    have hfirst : (p.extract 0 room).size = room := by
      rw [ByteArray.size_extract]
      omega
    have hsecond : (p.extract room p.size).size = p.size - room := by
      rw [ByteArray.size_extract, Nat.min_self]
    have hnext : (begun + p.size) % chunkSize = (0 + (p.size - room)) % chunkSize := by
      rw [show begun + p.size = 0 + (p.size - room) + chunkSize by omega, Nat.add_mod_right]
    refine ⟨p.extract 0 room, ⟨p.extract room p.size :: ps, failure⟩, if_neg hfits, by omega,
      by omega, fun hlt => absurd hlt (by omega), ?_, ?_⟩
    · rw [bytes, List.foldr_cons, ← ByteArray.append_assoc, hcut]
      rfl
    · rw [hfirst, hbegun, Nat.mod_self, coming, if_neg hp, coming, if_neg (by omega), hsecond,
        hnext, map_append_map, hcut]

theorem read_of_nil (h : s.pieces = []) (room : Nat) :
    s.read room = match s.failure with
      | none => .ok (.empty, s)
      | some e => .error e := by
  obtain ⟨pieces, failure⟩ := s
  cases h
  cases failure <;> rfl

theorem fill_of_le (h : room ≤ filled.size) (rounds : Nat) (s : ByteSource) :
    s.fill rounds room filled = .ok (filled, s) := by
  cases rounds with
  | zero => rfl
  | succ rounds => exact if_pos h

theorem fill_of_nil (h : filled.size < room) (hnil : s.pieces = []) (rounds : Nat) :
    s.fill (rounds + 1) room filled = match s.failure with
      | none => .ok (filled, s)
      | some e => .error e := by
  rw [fill, if_neg (Nat.not_le.mpr h), read_of_nil hnil]
  cases s.failure <;> rfl

theorem fill_of_read {p : ByteArray} (h : filled.size < room)
    (hread : s.read (room - filled.size) = .ok (p, s')) (rounds : Nat) :
    s.fill (rounds + 1) room filled =
      if p.size = 0 then .ok (filled, s') else s'.fill rounds room (filled ++ p) := by
  rw [fill, if_neg (Nat.not_le.mpr h), hread]
  rfl

inductive Filling (s : ByteSource) (filled : ByteArray) :
    Except SystemError (ByteArray × ByteSource) → Prop
  | chunk {p : ByteArray} {s' : ByteSource} (hrest : s.Rest (filled.size % chunkSize) p s' 0)
      (hne : (filled ++ p).size ≠ 0) : Filling s filled (.ok (filled ++ p, s'))
  | finished (s' : ByteSource) (hempty : filled.size = 0) (hend : s.delivered = .ok .empty) :
      Filling s filled (.ok (filled, s'))
  | failed {e : SystemError}
      (hfails : coming s.failure (filled.size % chunkSize) s.pieces = .error e) :
      Filling s filled (.error e)

theorem Filling.full (hrest : s.Rest (filled.size % chunkSize) .empty s' 0)
    (hne : filled.size ≠ 0) : s.Filling filled (.ok (filled, s')) := by
  have hchunk : s.Filling filled (.ok (filled ++ .empty, s')) :=
    .chunk hrest (by rwa [ByteArray.append_empty])
  rwa [ByteArray.append_empty] at hchunk

theorem filling_of_size_eq (hfull : filled.size = chunkSize) (rounds : Nat) (s : ByteSource) :
    s.Filling filled (s.fill rounds chunkSize filled) := by
  rw [fill_of_le (Nat.le_of_eq hfull.symm)]
  refine .full ?_ (by rw [hfull]; decide)
  rw [hfull, Nat.mod_self]
  exact .refl s 0

theorem filling_of_nil (hroom : filled.size < chunkSize) (failure : Option SystemError)
    (rounds : Nat) :
    (⟨[], failure⟩ : ByteSource).Filling filled
      (fill (rounds + 1) chunkSize filled ⟨[], failure⟩) := by
  rw [fill_of_nil hroom rfl]
  cases failure with
  | some e => exact .failed rfl
  | none =>
    by_cases hempty : filled.size = 0
    · exact .finished _ hempty rfl
    · exact .full ⟨rfl, rfl⟩ hempty

theorem filling_of_empty {p : ByteArray} (hroom : filled.size < chunkSize) (hp : p.size = 0)
    (ps : List ByteArray) (failure : Option SystemError) (rounds : Nat) :
    (⟨p :: ps, failure⟩ : ByteSource).Filling filled
      (fill (rounds + 1) chunkSize filled ⟨p :: ps, failure⟩) := by
  have hread : (⟨p :: ps, failure⟩ : ByteSource).read (chunkSize - filled.size) =
      .ok (p, ⟨ps, failure⟩) := if_pos (by omega)
  rw [fill_of_read hroom hread, if_pos hp]
  by_cases hempty : filled.size = 0
  · exact .finished _ hempty (by rw [delivered, coming, if_pos hp, if_pos rfl])
  · refine .full ⟨?_, ?_⟩ hempty
    · rw [ByteArray.size_eq_zero_iff.mp hp]
      rfl
    · rw [Nat.mod_eq_of_lt hroom, coming, if_pos hp, if_neg hempty]
      exact (Rest.refl ⟨ps, failure⟩ 0).coming

theorem filling_fill (hfilled : filled.size ≤ chunkSize)
    (hrounds : filled.size < chunkSize → s.pieces.length < rounds) :
    s.Filling filled (s.fill rounds chunkSize filled) := by
  induction rounds generalizing s filled with
  | zero =>
    have hfull : chunkSize ≤ filled.size := Nat.not_lt.mp fun hlt => Nat.not_lt_zero _ (hrounds hlt)
    exact filling_of_size_eq (Nat.le_antisymm hfilled hfull) 0 s
  | succ rounds ih =>
    by_cases hfull : chunkSize ≤ filled.size
    · exact filling_of_size_eq (Nat.le_antisymm hfilled hfull) _ s
    have hroom : filled.size < chunkSize := Nat.not_le.mp hfull
    obtain ⟨_ | ⟨p, ps⟩, failure⟩ := s
    · exact filling_of_nil hroom failure rounds
    by_cases hp : p.size = 0
    · exact filling_of_empty hroom hp ps failure rounds
    · obtain ⟨a, s', hread, hne, hle, hlt, hrest⟩ := read_cons hp
        (Nat.sub_pos_of_lt hroom) (Nat.add_sub_of_le hfilled) ps failure
      have hsize : (filled ++ a).size = filled.size + a.size := ByteArray.size_append
      have hrounds' : (filled ++ a).size < chunkSize → s'.pieces.length < rounds := by
        intro hless
        have hshorter := hlt (by omega)
        have hlonger : ps.length + 1 < rounds + 1 := hrounds hroom
        omega
      rw [← Nat.mod_eq_of_lt hroom, Nat.mod_add_mod] at hrest
      rw [fill_of_read hroom hread, if_neg hne]
      have hfill := ih (by omega) hrounds'
      rw [← hsize] at hrest
      generalize s'.fill rounds chunkSize (filled ++ a) = result at hfill ⊢
      cases hfill with
      | chunk hrest' hne' =>
        rw [ByteArray.append_assoc] at hne' ⊢
        exact .chunk (hrest.trans hrest') hne'
      | finished s'' hempty _ => omega
      | failed hfails => exact .failed (by rw [hrest.coming, hfails]; rfl)

theorem chunks_eq (hrounds : s.bytes.size < rounds) (data : ByteArray) :
    s.chunks rounds data = s.delivered.map (data ++ ·) := by
  induction rounds generalizing s data with
  | zero => exact absurd hrounds (Nat.not_lt_zero _)
  | succ rounds ih =>
    have hfill : s.Filling .empty (s.fill (s.pieces.length + 1) chunkSize .empty) :=
      filling_fill (Nat.zero_le chunkSize) fun _ => Nat.lt_succ_self _
    rw [chunks]
    generalize s.fill (s.pieces.length + 1) chunkSize .empty = result at hfill ⊢
    cases hfill with
    | @chunk p s' hrest hne =>
      have hbytes := congrArg ByteArray.size hrest.bytes
      rw [ByteArray.size_append] at hbytes
      rw [ByteArray.empty_append] at hne ⊢
      refine (if_neg hne).trans ?_
      have hcoming : s.delivered = s'.delivered.map (p ++ ·) := hrest.coming
      rw [ih (by omega), hcoming, map_append_map]
    | finished s' hempty hend =>
      rw [hend]
      exact congrArg Except.ok ByteArray.append_empty.symm
    | failed hfails =>
      have hfailed : s.delivered = .error _ := hfails
      rw [hfailed]
      rfl

/-- Reading a stream to its end gives all that comes of it, or its failure. -/
theorem readAll_eq (s : ByteSource) : s.readAll = s.delivered := by
  have hall := chunks_eq (Nat.lt_succ_self s.bytes.size) .empty
  rw [size_bytes] at hall
  exact hall.trans (map_empty_append _)

theorem readAll_single (content : ByteArray) :
    (⟨[content], none⟩ : ByteSource).readAll = .ok content := by
  by_cases h : content.size = 0
  · rw [ByteArray.size_eq_zero_iff.mp h]
    rfl
  · have hflows : (⟨[content], none⟩ : ByteSource).Flows := List.forall_mem_singleton.mpr h
    rw [readAll_eq, delivered_of_flows hflows]
    exact congrArg Except.ok ByteArray.append_empty

end StorageTrials.ByteSource

import StorageTrials.Proofs.FileSystem.Pieces
import StorageTrials.Proofs.FileSystem.Places

namespace StorageTrials.FileSystem

variable {fs : FileSystem} {source dest path : String} {σ : Slot} {id : NodeId} {x : ByteArray}
variable {chunk m : Nat} {patience : Patience} {hitches : List Hitch}

theorem copyNode_add (hn : fs.node? id = some (.file x)) (σ : Slot) (chunk : Nat)
    (patience : Patience) (hitches : List Hitch) :
    (fs.add σ.1 σ.2 (.file .empty)).1.copyNode id fs.nodes.size chunk patience hitches =
      ((fs.add σ.1 σ.2 (.file (copyChunks x chunk (x.size + 1) patience .empty).1)).1,
        (copyChunks x chunk (x.size + 1) patience .empty).2) := by
  have hsource : (fs.add σ.1 σ.2 (.file .empty)).1.node? id = some (.file x) := by
    rw [node?_add_of_lt (lt_size_of_node? hn), hn]
  have htarget : (fs.add σ.1 σ.2 (.file .empty)).1.node? fs.nodes.size = some (.file .empty) :=
    node?_add_self
  simp only [copyNode, hsource, htarget, set_add, copyPieces_start]

theorem copy_of_free (hf : fs.find source = .ok id) (hn : fs.node? id = some (.file x))
    (hp : fs.place? dest = some σ) (he : fs.lookup? σ.1 σ.2 = none) :
    fs.copy source dest chunk patience hitches =
      ((fs.add σ.1 σ.2 (.file (copyChunks x chunk (x.size + 1) patience .empty).1)).1,
        (copyChunks x chunk (x.size + 1) patience .empty).2) := by
  rw [copy, hf]
  simp only [create_of_free hp he]
  exact copyNode_add hn σ chunk patience hitches

/-- Where at most a directory stands, a copy fails at once, or it is a new file that holds a prefix
of the source, and all of it if it comes to its end. -/
theorem copy_cases (h : fs.WellFormed) (hf : fs.find source = .ok id)
    (hn : fs.node? id = some (.file x)) (hc : 0 < chunk)
    (hd : ∀ id', fs.standing? dest = some id' → fs.isDirectory id' = true) (patience : Patience)
    (hitches : List Hitch) :
    (∃ e, fs.copy source dest chunk patience hitches = (fs, .error e)) ∨
      ∃ σ written r, fs.place? dest = some σ ∧ fs.lookup? σ.1 σ.2 = none ∧
        fs.copy source dest chunk patience hitches = ((fs.add σ.1 σ.2 (.file written)).1, r) ∧
        IsPrefix written x ∧ ∀ m, r = .ok m → written = x ∧ m = x.size := by
  cases hcreate : fs.create dest with
  | error e =>
    refine .inl ⟨e, ?_⟩
    rw [copy, hf]
    simp only [hcreate]
  | ok made =>
    obtain ⟨σ, hp, he, -⟩ := create_eq_ok h hd hcreate
    refine .inr ⟨σ, _, _, hp, he, copy_of_free hf hn hp he,
      isPrefix_copyChunks (isPrefix_empty x), fun m hm => ?_⟩
    exact eq_of_copyChunks hc (isPrefix_empty x) (by simp) hm

theorem copyNode_files (fs : FileSystem) (id target : NodeId) (chunk : Nat)
    (patience : Patience) (hitches : List Hitch) :
    (fs.copyNode id target chunk patience hitches).1 = fs ∨ fs.isFile target = true ∧
      ∃ x, (fs.copyNode id target chunk patience hitches).1 = fs.set target (.file x) := by
  unfold copyNode
  split
  · rename_i y _ hy
    exact .inr ⟨isFile_iff.mpr ⟨y, hy⟩, _, rfl⟩
  · split
    · exact .inl rfl
    · split <;> exact .inl rfl
  · exact .inl rfl

theorem copy_files (h : fs.WellFormed)
    (hd : ∀ id', fs.standing? dest = some id' → fs.isDirectory id' = true) (source : String)
    (chunk : Nat) (patience : Patience) (hitches : List Hitch) :
    (fs.copy source dest chunk patience hitches).1 = fs ∨
      ∃ σ x, fs.place? dest = some σ ∧ fs.lookup? σ.1 σ.2 = none ∧
        (fs.copy source dest chunk patience hitches).1 = (fs.add σ.1 σ.2 (.file x)).1 := by
  cases hf : fs.find source with
  | error e =>
    refine .inl ?_
    rw [copy, hf]
  | ok id =>
    cases hcreate : fs.create dest with
    | error e =>
      refine .inl ?_
      rw [copy, hf]
      simp only [hcreate]
    | ok made =>
      obtain ⟨σ, hp, he, -⟩ := create_eq_ok h hd hcreate
      have hcopy : (fs.copy source dest chunk patience hitches).1 =
          ((fs.add σ.1 σ.2 (.file .empty)).1.copyNode id fs.nodes.size chunk patience
            hitches).1 := by
        rw [copy, hf]
        simp only [create_of_free hp he]
        rfl
      rw [hcopy]
      rcases copyNode_files (fs.add σ.1 σ.2 (.file .empty)).1 id fs.nodes.size chunk patience
        hitches with he' | ⟨-, x, he'⟩
      · exact .inr ⟨σ, .empty, hp, he, he'⟩
      · rw [he', set_add]
        exact .inr ⟨σ, x, hp, he, rfl⟩

theorem copy_complete (hf : fs.find source = .ok id) (hn : fs.node? id = some (.file x))
    (hp : fs.place? dest = some σ) (he : fs.lookup? σ.1 σ.2 = none) (hc : 0 < chunk) :
    fs.copy source dest chunk none hitches = ((fs.add σ.1 σ.2 (.file x)).1, .ok x.size) := by
  rw [copy_of_free hf hn hp he, copyChunks_of_exceeds hc (Patience.exceeds_none _)]

theorem bytes?_eq_some_iff :
    fs.bytes? path = some x ↔ ∃ id, fs.find path = .ok id ∧ fs.node? id = some (.file x) := by
  unfold bytes?
  cases fs.find path with
  | error e => simp
  | ok id => simp [content?_eq_some_iff]

theorem inspect_of_bytes? (hb : fs.bytes? path = some x) :
    fs.inspect path = .ok (.file x.size) := by
  obtain ⟨id, hf, hn⟩ := bytes?_eq_some_iff.mp hb
  rw [inspect_of_find hf, hn]
  rfl

theorem bytes?_of_inspect (hi : fs.inspect path = .ok (.file m)) :
    ∃ x, fs.bytes? path = some x ∧ x.size = m := by
  obtain ⟨id, hf, hfound⟩ := find_of_inspect hi
  cases hn : fs.node? id with
  | none =>
    rw [hn] at hfound
    cases hfound
  | some n =>
    rw [hn] at hfound
    cases n with
    | file x =>
      cases hfound
      exact ⟨x, bytes?_eq_some_iff.mpr ⟨id, hf, hn⟩, rfl⟩
    | _ => cases hfound

theorem drainNode_file (hn : fs.node? id = some (.file x)) (chunk : Nat) (patience : Patience)
    (hitches : List Hitch) :
    fs.drainNode id chunk patience hitches =
      (copyChunks x chunk (x.size + 1) patience .empty).2 := by
  rw [drainNode, hn, ← copyPieces_start]
  exact drainPieces_eq ⟨x, 0, hitches⟩ chunk (x.size + 1) patience .empty

theorem drain_of_bytes? (hb : fs.bytes? path = some x) (chunk : Nat) (patience : Patience)
    (hitches : List Hitch) :
    fs.drain path chunk patience hitches = (copyChunks x chunk (x.size + 1) patience .empty).2 := by
  obtain ⟨id, hf, hn⟩ := bytes?_eq_some_iff.mp hb
  rw [drain, hf]
  exact drainNode_file hn chunk patience hitches

theorem drain_eq_ok (hb : fs.bytes? path = some x) (hc : 0 < chunk)
    (hd : fs.drain path chunk patience hitches = .ok m) : m = x.size := by
  rw [drain_of_bytes? hb] at hd
  exact (eq_of_copyChunks hc (isPrefix_empty x) (by simp) hd).2

theorem drain_complete (hb : fs.bytes? path = some x) (hc : 0 < chunk) :
    fs.drain path chunk none hitches = .ok x.size := by
  rw [drain_of_bytes? hb, copyChunks_of_exceeds hc (Patience.exceeds_none _)]

end StorageTrials.FileSystem

import StorageTrials.Proofs.MountedRun

namespace StorageTrials

namespace FileSystem

variable {fs : FileSystem} {path source dest : String} {σ : Slot} {x : ByteArray}

theorem drop_of_free {dir : NodeId} {name : String} (h : fs.lookup? dir name = none) :
    fs.drop dir name = fs := by
  have hnone : fs.entries.find? (fun e => e.dir = dir && e.name = name) = none :=
    Option.map_eq_none_iff.mp h
  have hall : fs.entries.filter (fun e => !(e.dir = dir && e.name = name)) = fs.entries := by
    apply List.filter_eq_self.mpr
    intro e he
    simpa [imp_iff_not_or] using List.find?_eq_none.mp hnone e he
  exact congrArg (FileSystem.mk fs.nodes · fs.workingDir) hall

/-- The tree without what a copy to a path would replace. -/
def cleared (fs : FileSystem) (path : String) : FileSystem :=
  match fs.target? path with
  | some σ => fs.drop σ.1 σ.2
  | none => fs

theorem cleared_of_target (h : fs.target? path = some σ) :
    fs.cleared path = fs.drop σ.1 σ.2 := by
  simp only [cleared, h]

theorem cleared_of_none (h : fs.target? path = none) : fs.cleared path = fs := by
  simp only [cleared, h]

theorem lookup?_cleared (h : fs.target? path = some σ) :
    (fs.cleared path).lookup? σ.1 σ.2 = none := by
  rw [cleared_of_target h]
  exact lookup?_drop_self fs σ.1 σ.2

theorem nodes_cleared (fs : FileSystem) (path : String) : (fs.cleared path).nodes = fs.nodes := by
  cases h : fs.target? path with
  | none => rw [cleared_of_none h]
  | some σ =>
    rw [cleared_of_target h]
    rfl

theorem node?_cleared (fs : FileSystem) (path : String) (id : NodeId) :
    (fs.cleared path).node? id = fs.node? id := by
  rw [node?, nodes_cleared, node?]

theorem remove_cases (h : fs.WellFormed) (path : String) :
    fs.remove path = .ok (fs.cleared path) ∨
      (∃ e, fs.remove path = .error e) ∧ fs.cleared path = fs := by
  cases hr : fs.remove path with
  | ok fs' =>
    obtain ⟨σ, id, hσ, he, hd, rfl⟩ := remove_eq_ok h hr
    rw [cleared_of_target (target?_of_standing hσ he hd)]
    exact Or.inl rfl
  | error e =>
    refine Or.inr ⟨⟨e, rfl⟩, ?_⟩
    cases ht : fs.target? path with
    | none => exact cleared_of_none ht
    | some σ =>
      obtain ⟨hσ, hd⟩ := target?_eq_some_iff.mp ht
      rw [cleared_of_target ht]
      apply drop_of_free
      cases he : fs.lookup? σ.1 σ.2 with
      | none => rfl
      | some id =>
        rw [remove_of_standing hσ he (hd id he)] at hr
        cases hr

theorem WellFormed.cleared (h : fs.WellFormed) (path : String) : (fs.cleared path).WellFormed := by
  cases ht : fs.target? path with
  | none => rwa [cleared_of_none ht]
  | some σ =>
    rw [cleared_of_target ht]
    exact h.drop σ.1 σ.2

/-- A place need not be there any more when it has been cleared, as the way to it may have led by
what stood there. -/
theorem target?_cleared (h : fs.WellFormed) (ht : (fs.cleared path).target? path = some σ) :
    fs.target? path = some σ := by
  cases hfirst : fs.target? path with
  | none =>
    rw [cleared_of_none hfirst, hfirst] at ht
    cases ht
  | some τ =>
    have hplace := (target?_eq_some_iff.mp ht).1
    rw [cleared_of_target hfirst] at hplace
    have hdrop : (Scene.mk fs (fun _ => True) (· = τ) fun _ => False).Holds (fs.drop τ.1 τ.2) :=
      (Scene.holds_first (c := Scene.mk fs (fun _ => True) (· = τ) fun _ => False) h).drop rfl
    have hways : ∀ σ ∈ fs.lookups .remove path, True := fun _ _ => trivial
    cases hdrop.place? hways with
    | inl hsame =>
      rw [← (target?_eq_some_iff.mp hfirst).1, ← hsame]
      exact hplace
    | inr hnone => cases hnone.symm.trans hplace

theorem isDirectory_of_standing_cleared (h : fs.WellFormed) {id : NodeId}
    (hs : (fs.cleared path).standing? path = some id) :
    (fs.cleared path).isDirectory id = true := by
  obtain ⟨σ, hσ, he⟩ := standing?_eq_some_iff.mp hs
  by_contra hd
  have ht := target?_of_standing hσ he (Bool.eq_false_iff.mpr hd)
  cases he.symm.trans (lookup?_cleared (target?_cleared h ht))

theorem cleared_cleared (h : fs.WellFormed) (path : String) :
    (fs.cleared path).cleared path = fs.cleared path := by
  cases ht : (fs.cleared path).target? path with
  | none => exact cleared_of_none ht
  | some σ =>
    rw [cleared_of_target ht]
    exact drop_of_free (lookup?_cleared (target?_cleared h ht))

/-- What a copy puts at its destination once that has been cleared. -/
def delivery? (fs : FileSystem) (source dest : String) : Option ByteArray :=
  if ((fs.cleared dest).target? dest).isSome then (fs.cleared dest).bytes? source else none

theorem delivery?_eq_some_iff :
    fs.delivery? source dest = some x ↔
      (∃ σ, (fs.cleared dest).target? dest = some σ) ∧
        (fs.cleared dest).bytes? source = some x := by
  rw [delivery?, ← Option.isSome_iff_exists]
  split <;> simp [*]

def Steady (stream : NodeId → Prop) (fs : FileSystem) (path : String) : Prop :=
  ∀ id, fs.find path = .ok id → fs.isFile id = true ∧ ¬ stream id

theorem copy_futile {stream : NodeId → Prop} (h : fs.WellFormed)
    (hs : Steady stream (fs.cleared dest) source) (hnone : fs.delivery? source dest = none)
    (chunk : Nat) (patience : Patience) (hitches : List Hitch) :
    ∃ e, (fs.cleared dest).copy source dest chunk patience hitches =
      (fs.cleared dest, .error e) := by
  cases hf : (fs.cleared dest).find source with
  | error e =>
    refine ⟨e, ?_⟩
    rw [copy, hf]
  | ok id =>
    obtain ⟨x, hx⟩ := isFile_iff.mp (hs id hf).1
    have hb := bytes?_eq_some_iff.mpr ⟨id, hf, hx⟩
    have hno (σ : Slot) : (fs.cleared dest).target? dest ≠ some σ := by
      intro hσ
      rw [delivery?_eq_some_iff.mpr ⟨⟨σ, hσ⟩, hb⟩] at hnone
      cases hnone
    cases hcreate : (fs.cleared dest).create dest with
    | error e =>
      refine ⟨e, ?_⟩
      rw [copy, hf]
      simp only [hcreate]
    | ok made =>
      obtain ⟨σ, hσ, hfree, -⟩ := create_eq_ok (h.cleared dest)
        (fun _ hid => isDirectory_of_standing_cleared h hid) hcreate
      refine absurd (target?_eq_some_iff.mpr ⟨hσ, fun i hi => ?_⟩) (hno σ)
      cases hfree.symm.trans hi

theorem bytes?_cleared (h : fs.WellFormed) (dest : String) :
    (fs.cleared dest).bytes? dest = none := by
  cases hb : (fs.cleared dest).bytes? dest with
  | none => rfl
  | some x =>
    obtain ⟨id, hf, hx⟩ := bytes?_eq_some_iff.mp hb
    have hdir : (fs.cleared dest).isDirectory id = true := by
      obtain hd | hs | ⟨i, target, hs, hl⟩ := find_cases (h.cleared dest) hf
      · exact hd
      · exact isDirectory_of_standing_cleared h hs
      · obtain ⟨up, hup⟩ := isDirectory_iff.mp (isDirectory_of_standing_cleared h hs)
        cases hl.symm.trans hup
    obtain ⟨up, hup⟩ := isDirectory_iff.mp hdir
    cases hx.symm.trans hup

end FileSystem

open FileSystem

namespace Scene

variable {c c' : Scene} {fs fs' : FileSystem} {dest : String} {stream : NodeId → Prop}
variable {x? : Option ByteArray} {σ : Slot}

def around (fs : FileSystem) (σ? : Option Slot) (stream : NodeId → Prop) : Scene :=
  ⟨fs, fun _ => True, (σ? = some ·), stream⟩

theorem lt_size_around_cleared (hold : ∀ id, stream id → id < fs.nodes.size) (path : String)
    (σ? : Option Slot) (id : NodeId) (hid : (around (fs.cleared path) σ? stream).stream id) :
    id < (around (fs.cleared path) σ? stream).first.nodes.size := by
  rw [show (around (fs.cleared path) σ? stream).first.nodes = fs.nodes from nodes_cleared fs path]
  exact hold id hid

theorem Holds.widen (h : c.Holds fs) (hfirst : c'.first = c.first)
    (hw : ∀ σ, c'.ways σ → c.ways σ) (ht : ∀ σ, c.targets σ → c'.targets σ)
    (hs : ∀ id, c.stream id → c'.stream id) : c'.Holds fs where
  first := hfirst ▸ h.first
  wellFormed := h.wellFormed
  workingDir := hfirst ▸ h.workingDir
  size := hfirst ▸ h.size
  directories := hfirst ▸ h.directories
  slots σ hσ := by
    cases h.slots σ (hw σ hσ) with
    | inl hk =>
      refine Or.inl ⟨hfirst ▸ hk.entry, fun id hid => ?_⟩
      rw [hfirst] at hid
      rw [KeepsNode, hfirst]
      cases hk.node id hid with
      | inl hn => exact Or.inl hn
      | inr hg => exact Or.inr ⟨hs id hg.1, hg.2⟩
    | inr ht' =>
      obtain ⟨hσ', hr⟩ := ht'
      refine Or.inr ⟨ht σ hσ', fun id hid => ?_⟩
      rw [hfirst]
      exact hr id hid

theorem holds_cleared (h : fs.WellFormed) (dest : String) :
    (around fs (fs.target? dest) stream).Holds (fs.cleared dest) := by
  have hfirst : (around fs (fs.target? dest) stream).Holds fs := holds_first h
  cases ht : fs.target? dest with
  | none =>
    rw [cleared_of_none ht]
    rwa [ht] at hfirst
  | some σ =>
    rw [cleared_of_target ht]
    rw [ht] at hfirst
    exact hfirst.drop rfl

/-- What copies to one place have left: nothing else has changed, and there is a new file or
nothing. -/
structure Delivers (stream : NodeId → Prop) (dest : String) (x? : Option ByteArray)
    (fs fs' : FileSystem) : Prop where
  holds : (around fs (fs.target? dest) stream).Holds fs'
  nothing : x? = none → ∀ σ, fs.target? dest = some σ → fs'.lookup? σ.1 σ.2 = none
  copy : ∀ x, x? = some x → ∀ σ, fs.target? dest = some σ →
    ∃ id, fs'.lookup? σ.1 σ.2 = some id ∧ fs.nodes.size ≤ id ∧ fs'.node? id = some (.file x)

theorem Holds.around (h : c.Holds fs) {σ? : Option Slot} (ht : ∀ σ, σ? = some σ → c.targets σ)
    (h' : (Scene.around fs σ? c.stream).Holds fs') : c.Holds fs' := by
  have hlater : (c.restart fs).Holds fs' :=
    h'.widen rfl (fun _ _ => trivial) ht fun _ hid => hid
  exact h.trans hlater

end Scene

end StorageTrials

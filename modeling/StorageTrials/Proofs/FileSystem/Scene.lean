import StorageTrials.Proofs.FileSystem.Lookups

namespace StorageTrials

open FileSystem StorageTrials.Path

/-- A tree of files as it is at first, and what can happen to it. -/
structure Scene where
  first : FileSystem
  ways : Slot → Prop
  targets : Slot → Prop
  stream : NodeId → Prop

namespace Scene

variable {c : Scene} {fs : FileSystem} {σ : Slot} {id : NodeId}

/-- A node is what it was, except that the stream may have grown. -/
def KeepsNode (c : Scene) (fs : FileSystem) (id : NodeId) : Prop :=
  fs.node? id = c.first.node? id ∨ c.stream id ∧ c.first.isFile id ∧ fs.isFile id

structure KeepsSlot (c : Scene) (fs : FileSystem) (σ : Slot) : Prop where
  entry : fs.lookup? σ.1 σ.2 = c.first.lookup? σ.1 σ.2
  node : ∀ id, c.first.lookup? σ.1 σ.2 = some id → c.KeepsNode fs id

/-- A name is free, or it stands for a file that was not there at first. -/
def Replaced (c : Scene) (fs : FileSystem) (σ : Slot) : Prop :=
  ∀ id, fs.lookup? σ.1 σ.2 = some id → c.first.nodes.size ≤ id ∧ fs.isFile id

/-- What can have become of a tree. -/
structure Holds (c : Scene) (fs : FileSystem) : Prop where
  first : c.first.WellFormed
  wellFormed : fs.WellFormed
  workingDir : fs.workingDir = c.first.workingDir
  size : c.first.nodes.size ≤ fs.nodes.size
  directories : ∀ id up, c.first.node? id = some (.directory up) →
    fs.node? id = some (.directory up)
  slots : ∀ σ, c.ways σ → c.KeepsSlot fs σ ∨ c.targets σ ∧ c.Replaced fs σ

theorem holds_first (h : c.first.WellFormed) : c.Holds c.first where
  first := h
  wellFormed := h
  workingDir := rfl
  size := Nat.le_refl _
  directories _ _ := id
  slots _ _ := .inl ⟨rfl, fun _ _ => .inl rfl⟩

theorem KeepsNode.congr {fs' : FileSystem} (hn : fs'.node? id = fs.node? id)
    (h : c.KeepsNode fs id) : c.KeepsNode fs' id := by
  rw [KeepsNode, hn, isFile_congr hn]
  exact h

theorem KeepsNode.directory {up : NodeId} (h : c.KeepsNode fs id)
    (hn : c.first.node? id = some (.directory up)) : fs.node? id = some (.directory up) := by
  rcases h with h | ⟨-, hf, -⟩
  · rw [h, hn]
  · obtain ⟨x, hx⟩ := isFile_iff.mp hf
    rw [hn] at hx
    cases hx

theorem KeepsNode.isDirectory (h : c.KeepsNode fs id) :
    fs.isDirectory id = c.first.isDirectory id := by
  rcases h with h | ⟨-, hc, hf⟩
  · rw [FileSystem.isDirectory, h, FileSystem.isDirectory]
  · rw [isDirectory_of_isFile hf, isDirectory_of_isFile hc]

theorem KeepsNode.isFile (h : c.KeepsNode fs id) (hf : c.first.isFile id = true) :
    fs.isFile id = true := by
  rcases h with hn | ⟨-, -, hf'⟩
  · rwa [isFile_congr hn]
  · exact hf'

theorem KeepsNode.node?_eq_of_new {n : NodeId} (h : c.KeepsNode fs id)
    (hs : c.stream id → id < n ∨ c.first.nodes.size ≤ id) (hle : n ≤ id)
    (hlt : id < c.first.nodes.size) : fs.node? id = c.first.node? id := by
  rcases h with hn | ⟨hstream, -, -⟩
  · exact hn
  · rcases hs hstream with hold | hnew
    · exact absurd hold (Nat.not_lt.mpr hle)
    · exact absurd hlt (Nat.not_lt.mpr hnew)

theorem KeepsSlot.vacant (h : c.KeepsSlot fs σ)
    (hd : ∀ id, c.first.lookup? σ.1 σ.2 = some id → c.first.isDirectory id = false) :
    ∀ id, fs.lookup? σ.1 σ.2 = some id → fs.isDirectory id = false := by
  intro id hid
  have he := h.entry.symm.trans hid
  rw [(h.node id he).isDirectory]
  exact hd id he

theorem Holds.vacant (h : c.Holds fs) (hσ : c.ways σ)
    (hd : ∀ id, c.first.lookup? σ.1 σ.2 = some id → c.first.isDirectory id = false) :
    ∀ id, fs.lookup? σ.1 σ.2 = some id → fs.isDirectory id = false := by
  rcases h.slots σ hσ with hk | ⟨-, hr⟩
  · exact hk.vacant hd
  · exact fun id hid => isDirectory_of_isFile (hr id hid).2

theorem KeepsSlot.child {dir : NodeId} {n : String} (h : c.KeepsSlot fs (dir, n)) :
    fs.child dir n = c.first.child dir n := by
  have he : fs.lookup? dir n = c.first.lookup? dir n := h.entry
  rw [FileSystem.child, he, FileSystem.child]

theorem KeepsSlot.keepsNode {dir : NodeId} {n : String} (h : c.KeepsSlot fs (dir, n))
    (hc : c.first.child dir n = .ok (some id)) : c.KeepsNode fs id :=
  h.node id (child_eq_ok_iff.mp hc).2

theorem KeepsSlot.linkAt {purpose : Purpose} {t : Bool} (h : c.KeepsSlot fs σ) :
    fs.linkAt purpose (.entry σ.1 σ.2 t) = c.first.linkAt purpose (.entry σ.1 σ.2 t) := by
  cases hf : purpose.follows t with
  | false => rw [linkAt_of_not_follows hf, linkAt_of_not_follows hf]
  | true =>
    rw [linkAt_of_follows hf, linkAt_of_follows hf, h.child]
    cases hc : c.first.child σ.1 σ.2 with
    | error e => rfl
    | ok x =>
      cases x with
      | none => rfl
      | some id =>
        rcases h.keepsNode hc with hk | ⟨-, hc, hf⟩
        · simp only [hk]
        · obtain ⟨x, hx⟩ := isFile_iff.mp hc
          obtain ⟨y, hy⟩ := isFile_iff.mp hf
          simp only [hx, hy]

theorem Replaced.child_cases {dir : NodeId} {n : String} (h : c.Replaced fs (dir, n)) :
    (∃ e, fs.child dir n = .error e) ∨ fs.child dir n = .ok none ∨
      ∃ id x, fs.child dir n = .ok (some id) ∧ fs.node? id = some (.file x) := by
  cases hc : fs.child dir n with
  | error e => exact .inl ⟨e, rfl⟩
  | ok x =>
    cases x with
    | none => exact .inr (.inl rfl)
    | some id =>
      obtain ⟨y, hy⟩ := isFile_iff.mp (h id (child_eq_ok_iff.mp hc).2).2
      exact .inr (.inr ⟨id, y, rfl, hy⟩)

theorem Replaced.advance {dir : NodeId} {n : String} {rest : List Step} {t : Bool}
    (h : c.Replaced fs (dir, n)) (hr : rest ≠ []) :
    (∃ e, fs.advance t dir (.name n :: rest) = .fault e) ∧
      fs.advanceLookups dir (.name n :: rest) = [(dir, n)] := by
  rcases h.child_cases with ⟨e, hc⟩ | hc | ⟨id, x, hc, hx⟩
  · rw [FileSystem.advance, advanceLookups, hc] <;> simp [hr]
  · rw [FileSystem.advance, advanceLookups, hc] <;> simp [hr]
  · have hd : fs.isDirectory id = false := by
      rw [FileSystem.isDirectory, hx]
      rfl
    rw [FileSystem.advance, advanceLookups, hc] <;> simp [hr, hx, hd]

def KeepsAll (c : Scene) (fs : FileSystem) (names : List Slot) : Prop :=
  ∀ σ ∈ names, c.KeepsSlot fs σ

def Touches (c : Scene) (fs : FileSystem) (names : List Slot) : Prop :=
  ∃ σ ∈ names, c.targets σ ∧ c.Replaced fs σ

theorem KeepsAll.nil : c.KeepsAll fs [] := fun _ h => nomatch h

theorem KeepsAll.cons {names : List Slot} (h : c.KeepsSlot fs σ) (hs : c.KeepsAll fs names) :
    c.KeepsAll fs (σ :: names) := List.forall_mem_cons.mpr ⟨h, hs⟩

theorem KeepsAll.append {names names' : List Slot} (h : c.KeepsAll fs names)
    (h' : c.KeepsAll fs names') : c.KeepsAll fs (names ++ names') :=
  List.forall_mem_append.mpr ⟨h, h'⟩

theorem Touches.mono {names names' : List Slot} (h : c.Touches fs names) (hs : names ⊆ names') :
    c.Touches fs names' :=
  let ⟨σ, hσ, ht⟩ := h
  ⟨σ, hs hσ, ht⟩

theorem mem_advanceLookups_name {dir : NodeId} {n : String} {rest : List Step} (hr : rest ≠ []) :
    (dir, n) ∈ fs.advanceLookups dir (.name n :: rest) := by
  rw [advanceLookups]
  · exact List.mem_cons_self
  · exact hr

theorem Replaced.cuts {dir : NodeId} {n : String} {rest : List Step} (t : Bool)
    (ht : c.targets (dir, n)) (h : c.Replaced fs (dir, n)) (hr : rest ≠ []) :
    (∃ e, fs.advance t dir (.name n :: rest) = .fault e) ∧
      fs.advanceLookups dir (.name n :: rest) ⊆ c.first.advanceLookups dir (.name n :: rest) ∧
      c.Touches fs (c.first.advanceLookups dir (.name n :: rest)) := by
  obtain ⟨hf, hl⟩ := h.advance (t := t) hr
  have hmem : (dir, n) ∈ c.first.advanceLookups dir (.name n :: rest) := mem_advanceLookups_name hr
  refine ⟨hf, ?_, (dir, n), hmem, ht, h⟩
  rw [hl]
  exact List.cons_subset.mpr ⟨hmem, List.nil_subset _⟩

theorem KeepsSlot.stops {dir : NodeId} {n : String} {rest : List Step} (t : Bool)
    (h : c.KeepsSlot fs (dir, n)) (hr : rest ≠ [])
    (hd : ∀ id, c.first.child dir n = .ok (some id) → c.first.isDirectory id = false) :
    fs.advance t dir (.name n :: rest) = c.first.advance t dir (.name n :: rest) ∧
      fs.advanceLookups dir (.name n :: rest) = c.first.advanceLookups dir (.name n :: rest) ∧
      c.KeepsAll fs (c.first.advanceLookups dir (.name n :: rest)) := by
  rw [FileSystem.advance, FileSystem.advance, advanceLookups, advanceLookups, h.child] <;>
    try exact hr
  cases hc : c.first.child dir n with
  | error e => exact ⟨rfl, rfl, .cons h .nil⟩
  | ok x =>
    cases x with
    | none => exact ⟨rfl, rfl, .cons h .nil⟩
    | some id =>
      have hk := h.keepsNode hc
      simp only [hk.isDirectory, hd id hc, Bool.false_eq_true, if_false]
      refine ⟨?_, trivial, .cons h .nil⟩
      rcases hk with hk | ⟨-, hc, hf⟩
      · rw [hk]
        split
        · rename_i up hup
          have hid := hd id hc
          rw [isDirectory_iff.mpr ⟨up, hup⟩] at hid
          cases hid
        · rfl
        · rfl
      · obtain ⟨x, hx⟩ := isFile_iff.mp hc
        obtain ⟨y, hy⟩ := isFile_iff.mp hf
        simp only [hx, hy]

theorem KeepsSlot.continues {dir up : NodeId} {n : String} {rest : List Step} (t : Bool)
    (h : c.KeepsSlot fs (dir, n)) (hr : rest ≠ []) (hc : c.first.child dir n = .ok (some id))
    (hn : c.first.node? id = some (.directory up)) :
    fs.advance t dir (.name n :: rest) = fs.advance t id rest ∧
      fs.advanceLookups dir (.name n :: rest) = (dir, n) :: fs.advanceLookups id rest := by
  have hk := h.keepsNode hc
  have hid : fs.isDirectory id = true := isDirectory_iff.mpr ⟨up, hk.directory hn⟩
  rw [FileSystem.advance, advanceLookups, h.child, hc] <;> try exact hr
  simp only [hk.directory hn, hid, if_true, and_self]

/-- Steps lead as at first by names that have not been touched, or to one that has and no
further. -/
def Goes (c : Scene) (fs : FileSystem) (t : Bool) (dir : NodeId) (steps : List Step) : Prop :=
  fs.advance t dir steps = c.first.advance t dir steps ∧
      fs.advanceLookups dir steps = c.first.advanceLookups dir steps ∧
      c.KeepsAll fs (c.first.advanceLookups dir steps) ∨
    (∃ e, fs.advance t dir steps = .fault e) ∧
      fs.advanceLookups dir steps ⊆ c.first.advanceLookups dir steps ∧
      c.Touches fs (c.first.advanceLookups dir steps)

theorem Holds.goes_of_stop (h : c.Holds fs) {dir : NodeId} {n : String} {rest : List Step}
    (t : Bool) (hr : rest ≠ [])
    (hw : ∀ σ ∈ c.first.advanceLookups dir (.name n :: rest), c.ways σ)
    (hd : ∀ id, c.first.child dir n = .ok (some id) → c.first.isDirectory id = false) :
    c.Goes fs t dir (.name n :: rest) := by
  rcases h.slots (dir, n) (hw _ (mem_advanceLookups_name hr)) with hk | ⟨ht, hrep⟩
  · exact .inl (hk.stops t hr hd)
  · exact .inr (hrep.cuts t ht hr)

theorem Holds.advance (h : c.Holds fs) {dir : NodeId} (hd : c.first.isDirectory dir)
    {steps : List Step} (t : Bool) (hw : ∀ σ ∈ c.first.advanceLookups dir steps, c.ways σ) :
    c.Goes fs t dir steps := by
  have hparent {dir : NodeId} (hd : c.first.isDirectory dir) :
      fs.parent dir = c.first.parent dir := by
    obtain ⟨up, hup⟩ := isDirectory_iff.mp hd
    rw [parent_eq_of_node? hup, parent_eq_of_node? (h.directories _ _ hup)]
  induction dir, steps using advance.induct c.first with
  | case1 dir | case2 dir | case4 dir n => exact .inl ⟨rfl, rfl, .nil⟩
  | case3 dir => exact .inl ⟨by rw [FileSystem.advance, hparent hd, FileSystem.advance], rfl, .nil⟩
  | case5 dir rest hr ih =>
    rw [advanceLookups] at hw
    · rw [Goes, FileSystem.advance, FileSystem.advance, advanceLookups, advanceLookups] <;>
        try exact hr
      exact ih hd hw
    · exact hr
  | case6 dir rest hr ih =>
    rw [advanceLookups] at hw
    · rw [Goes, FileSystem.advance, FileSystem.advance, advanceLookups, advanceLookups,
        hparent hd] <;> try exact hr
      exact ih (h.first.isDirectory_parent _) hw
    · exact hr
  | case9 dir n rest hr id hc up hn ih =>
    rcases h.slots (dir, n) (hw _ (mem_advanceLookups_name hr)) with hk | ⟨ht, hrep⟩
    · obtain ⟨ha, hl⟩ := hk.continues t hr hc hn
      obtain ⟨ha', hl'⟩ := KeepsSlot.continues (c := c) t ⟨rfl, fun _ _ => .inl rfl⟩ hr hc hn
      rw [hl'] at hw
      rw [Goes, ha, ha', hl, hl']
      rcases ih (isDirectory_iff.mpr ⟨up, hn⟩) fun σ hσ => hw σ (List.mem_cons_of_mem _ hσ) with
        ⟨ha, hl, hks⟩ | ⟨he, hl, ht⟩
      · exact .inl ⟨ha, congrArg _ hl, .cons hk hks⟩
      · exact .inr ⟨he, List.cons_subset_cons _ hl, ht.mono (List.subset_cons_self _ _)⟩
    · exact .inr (hrep.cuts t ht hr)
  | case7 dir n rest hr e hc => exact h.goes_of_stop t hr hw (by simp [hc])
  | case8 dir n rest hr hc => exact h.goes_of_stop t hr hw (by simp [hc])
  | case10 dir n rest hr id hc target hn =>
    refine h.goes_of_stop t hr hw ?_
    simp [hc, FileSystem.isDirectory, hn, Node.isDirectory]
  | case11 dir n rest hr id hc hnd hnl =>
    refine h.goes_of_stop t hr hw fun id' hc' => ?_
    rw [hc] at hc'
    cases hc'
    rw [Bool.eq_false_iff]
    intro hid
    obtain ⟨up, hup⟩ := isDirectory_iff.mp hid
    exact hnd up hup

/-- A way leads nowhere, or to a name on it that has been touched. -/
def Cut (c : Scene) (fs : FileSystem) (purpose : Purpose) (names : List Slot)
    (r : Except SystemError Spot) : Prop :=
  ∃ σ ∈ names, c.targets σ ∧ c.Replaced fs σ ∧
    ((∃ e, r = .error e) ∨ purpose ≠ .remove ∧ ∃ t, r = .ok (.entry σ.1 σ.2 t))

theorem Touches.cut {names : List Slot} {purpose : Purpose} {e : SystemError}
    (h : c.Touches fs names) : c.Cut fs purpose names (.error e) :=
  let ⟨σ, hσ, ht, hr⟩ := h
  ⟨σ, hσ, ht, hr, .inl ⟨e, rfl⟩⟩

theorem Cut.mono {names names' : List Slot} {purpose : Purpose} {r : Except SystemError Spot}
    (h : c.Cut fs purpose names r) (hs : names ⊆ names') : c.Cut fs purpose names' r :=
  let ⟨σ, hσ, hr⟩ := h
  ⟨σ, hs hσ, hr⟩

theorem Holds.linkAt (h : c.Holds fs) {purpose : Purpose} {s : Spot}
    (hw : ∀ σ ∈ spotLookups purpose s, c.ways σ) :
    fs.linkAt purpose s = c.first.linkAt purpose s ∧ c.KeepsAll fs (spotLookups purpose s) ∨
      (∃ e, fs.linkAt purpose s = .error e ∧
        c.Cut fs purpose (spotLookups purpose s) (.error e)) ∨
      fs.linkAt purpose s = .ok none ∧ c.Cut fs purpose (spotLookups purpose s) (.ok s) := by
  cases s with
  | directory id => exact .inl ⟨rfl, .nil⟩
  | entry d n t =>
    cases hf : purpose.follows t with
    | false =>
      rw [linkAt_of_not_follows hf, linkAt_of_not_follows hf, spotLookups, hf]
      exact .inl ⟨rfl, .nil⟩
    | true =>
      have hl : spotLookups purpose (.entry d n t) = [(d, n)] := by rw [spotLookups, hf, if_pos rfl]
      rw [hl] at hw ⊢
      rcases h.slots (d, n) (hw _ List.mem_cons_self) with hk | ⟨ht, hrep⟩
      · exact .inl ⟨hk.linkAt, .cons hk .nil⟩
      · have hp : purpose ≠ .remove := by
          rintro rfl
          cases hf
        rw [linkAt_of_follows hf]
        rcases hrep.child_cases with ⟨e, hc⟩ | hc | ⟨id, x, hc, hx⟩
        · refine .inr (.inl ⟨e, by simp only [hc], ?_⟩)
          exact ⟨_, List.mem_cons_self, ht, hrep, .inl ⟨e, rfl⟩⟩
        · refine .inr (.inr ⟨by simp only [hc], ?_⟩)
          exact ⟨_, List.mem_cons_self, ht, hrep, .inr ⟨hp, t, rfl⟩⟩
        · refine .inr (.inr ⟨by simp only [hc, hx], ?_⟩)
          exact ⟨_, List.mem_cons_self, ht, hrep, .inr ⟨hp, t, rfl⟩⟩

/-- A way looks up no other names than at first, and leads to the same place by names that have not
been touched, or is cut. -/
structure Follows (c : Scene) (fs : FileSystem) (purpose : Purpose) (names names' : List Slot)
    (r r' : Except SystemError Spot) : Prop where
  lookups : names ⊆ names'
  spot : r = r' ∧ c.KeepsAll fs names' ∨ c.Cut fs purpose names' r

section Follows

variable {purpose : Purpose} {names names' ms : List Slot} {r r' : Except SystemError Spot}

theorem Follows.nil : c.Follows fs purpose [] [] r r :=
  ⟨List.Subset.refl _, .inl ⟨rfl, .nil⟩⟩

theorem Follows.append (hk : c.KeepsAll fs ms) (h : c.Follows fs purpose names names' r r') :
    c.Follows fs purpose (ms ++ names) (ms ++ names') r r' := by
  refine ⟨List.append_subset.mpr ⟨List.subset_append_left _ _, ?_⟩, ?_⟩
  · exact List.Subset.trans h.lookups (List.subset_append_right _ _)
  · rcases h.spot with ⟨hr, hn⟩ | hcut
    · exact .inl ⟨hr, hk.append hn⟩
    · exact .inr (hcut.mono (List.subset_append_right _ _))

theorem Follows.cut (hl : names ⊆ names') (h : c.Cut fs purpose ms r) (hm : ms ⊆ names') :
    c.Follows fs purpose names names' r r' :=
  ⟨hl, .inr (h.mono hm)⟩

theorem Goes.follows {t : Bool} {dir : NodeId} {steps : List Step} (h : c.Goes fs t dir steps)
    (hgo : fs.advance t dir steps = c.first.advance t dir steps →
      c.Follows fs purpose names names' r r')
    (hcut : ∀ e, fs.advance t dir steps = .fault e → names = [] ∧ r = .error e) :
    c.Follows fs purpose (fs.advanceLookups dir steps ++ names)
      (c.first.advanceLookups dir steps ++ names') r r' := by
  rcases h with ⟨ha, hl, hk⟩ | ⟨⟨e, ha⟩, hl, ht⟩
  · rw [hl]
    exact .append hk (hgo ha)
  · obtain ⟨rfl, rfl⟩ := hcut e ha
    rw [List.append_nil]
    exact .cut (List.subset_append_of_subset_left _ hl) ht.cut (List.subset_append_left _ _)

theorem Holds.follows_linkAt (h : c.Holds fs) {s : Spot}
    (hw : ∀ σ ∈ spotLookups purpose s, c.ways σ)
    (hgo : fs.linkAt purpose s = c.first.linkAt purpose s →
      c.Follows fs purpose names names' r r')
    (herror : ∀ e, fs.linkAt purpose s = .error e → names = [] ∧ r = .error e)
    (hnone : fs.linkAt purpose s = .ok none → names = [] ∧ r = .ok s) :
    c.Follows fs purpose (spotLookups purpose s ++ names) (spotLookups purpose s ++ names') r
      r' := by
  rcases h.linkAt hw with ⟨he, hk⟩ | ⟨e, he, hcut⟩ | ⟨he, hcut⟩
  · exact .append hk (hgo he)
  · obtain ⟨rfl, rfl⟩ := herror e he
    rw [List.append_nil]
    exact .cut (List.subset_append_left _ _) hcut (List.subset_append_left _ _)
  · obtain ⟨rfl, rfl⟩ := hnone he
    rw [List.append_nil]
    exact .cut (List.subset_append_left _ _) hcut (List.subset_append_left _ _)

end Follows

theorem Holds.walk (h : c.Holds fs) {purpose : Purpose} {links : Nat} {t : Bool} {dir : NodeId}
    {steps : List Step} (hd : c.first.isDirectory dir)
    (hw : ∀ σ ∈ c.first.walkLookups purpose links t dir steps, c.ways σ) :
    c.Follows fs purpose (fs.walkLookups purpose links t dir steps)
      (c.first.walkLookups purpose links t dir steps) (fs.walk purpose links t dir steps)
      (c.first.walk purpose links t dir steps) := by
  induction links, t, dir, steps using walk.induct c.first purpose with
  | case1 links t dir steps e ha | case2 t dir steps d target rest ha =>
    rw [walkLookups, ha, List.append_nil] at hw
    rw [FileSystem.walk, walkLookups, FileSystem.walk, walkLookups, ha]
    refine (h.advance hd t hw).follows (fun ha' => ?_) fun e he => by rw [he]; exact ⟨rfl, rfl⟩
    rw [ha', ha]
    exact .nil
  | case3 t dir steps d target rest ha r links ih =>
    rw [walkLookups, ha] at hw
    rw [FileSystem.walk, walkLookups, FileSystem.walk, walkLookups, ha]
    refine (h.advance hd t fun σ hσ => hw σ (List.mem_append_left _ hσ)).follows (fun ha' => ?_)
      fun e he => by rw [he]; exact ⟨rfl, rfl⟩
    rw [ha', ha]
    have hup := h.first.advance_isDirectory hd (congrArg Advance.dir? ha)
    exact ih (h.first.isDirectory_start hup r) fun σ hσ => hw σ (List.mem_append_right _ hσ)
  | case4 links t dir steps s ha e hl | case5 links t dir steps s ha hl
  | case6 t dir steps s ha d target hl =>
    rw [walkLookups, ha] at hw
    rw [FileSystem.walk, walkLookups, FileSystem.walk, walkLookups, ha]
    refine (h.advance hd t fun σ hσ => hw σ (List.mem_append_left _ hσ)).follows (fun ha' => ?_)
      fun e he => by rw [he]; exact ⟨rfl, rfl⟩
    rw [ha', ha]
    simp only [hl] at hw ⊢
    replace hw := fun σ hσ => hw σ (List.mem_append_right _ hσ)
    refine h.follows_linkAt (fun σ hσ => hw σ (List.mem_append_left _ hσ)) (fun he => ?_)
      (fun e he => ?_) fun he => ?_
    · simp only [he, hl]
      exact .nil
    · simp only [he, and_self]
    · simp only [he, and_self]
  | case7 t dir steps s ha d target hl r links ih =>
    rw [walkLookups, ha] at hw
    rw [FileSystem.walk, walkLookups, FileSystem.walk, walkLookups, ha]
    refine (h.advance hd t fun σ hσ => hw σ (List.mem_append_left _ hσ)).follows (fun ha' => ?_)
      fun e he => by rw [he]; exact ⟨rfl, rfl⟩
    rw [ha', ha]
    simp only [hl] at hw ⊢
    replace hw := fun σ hσ => hw σ (List.mem_append_right _ hσ)
    refine h.follows_linkAt (fun σ hσ => hw σ (List.mem_append_left _ hσ)) (fun he => ?_)
      (fun e he => ?_) fun he => ?_
    · simp only [he, hl]
      have hd' := h.first.advance_isDirectory hd (congrArg Advance.dir? ha)
      exact ih (h.first.isDirectory_start (dir_of_linkAt hl ▸ hd') _) fun σ hσ =>
        hw σ (List.mem_append_right _ hσ)
    · simp only [he, and_self]
    · simp only [he, and_self]

theorem Holds.locate (h : c.Holds fs) {purpose : Purpose} {path : String}
    (hw : ∀ σ ∈ c.first.lookups purpose path, c.ways σ) :
    c.Follows fs purpose (fs.lookups purpose path) (c.first.lookups purpose path)
      (fs.locate purpose path) (c.first.locate purpose path) := by
  rcases refused_or_walked path with ⟨e, hrefused⟩ | hwalked
  · rw [(hrefused fs purpose).1, (hrefused fs purpose).2, (hrefused c.first purpose).1,
      (hrefused c.first purpose).2]
    exact .nil
  · rw [(hwalked c.first purpose).2] at hw
    rw [(hwalked fs purpose).1, (hwalked fs purpose).2, (hwalked c.first purpose).1,
      (hwalked c.first purpose).2, h.workingDir]
    exact h.walk (h.first.isDirectory_start h.first.workingDir _) hw

section operations

variable {dir : NodeId} {name : String} {x : ByteArray}

/-- Only single names are touched, and the nodes of the others stay what they are. -/
theorem Holds.of_slots {fs' : FileSystem} (h : c.Holds fs) (hwf : fs'.WellFormed)
    (hw : fs'.workingDir = fs.workingDir) (hs : fs.nodes.size ≤ fs'.nodes.size)
    (hn : ∀ id < c.first.nodes.size, c.KeepsNode fs id → c.KeepsNode fs' id)
    (hd : ∀ id up, c.first.node? id = some (.directory up) → fs.node? id = some (.directory up) →
      fs'.node? id = some (.directory up))
    (he : ∀ σ, c.ways σ → c.targets σ ∧ c.Replaced fs' σ ∨
      fs'.lookup? σ.1 σ.2 = fs.lookup? σ.1 σ.2 ∧ (c.Replaced fs σ → c.Replaced fs' σ)) :
    c.Holds fs' where
  first := h.first
  wellFormed := hwf
  workingDir := hw.trans h.workingDir
  size := Nat.le_trans h.size hs
  directories id up hid := hd id up hid (h.directories id up hid)
  slots σ hσ := by
    rcases he σ hσ with ht | ⟨he, hr⟩
    · exact .inr ht
    · rcases h.slots σ hσ with hk | ⟨ht, hrep⟩
      · refine .inl ⟨he.trans hk.entry, fun id hid => ?_⟩
        exact hn id (h.first.lt_size hid) (hk.node id hid)
      · exact .inr ⟨ht, hr hrep⟩

theorem Holds.drop (h : c.Holds fs) (ht : c.targets (dir, name)) : c.Holds (fs.drop dir name) := by
  refine h.of_slots (h.wellFormed.drop dir name) rfl (Nat.le_refl _) (fun _ _ => id)
    (fun _ _ _ => id) fun σ _ => ?_
  by_cases hσ : σ = (dir, name)
  · subst hσ
    refine .inl ⟨ht, fun id hid => ?_⟩
    rw [lookup?_drop_self] at hid
    cases hid
  · have he : (fs.drop dir name).lookup? σ.1 σ.2 = fs.lookup? σ.1 σ.2 := lookup?_drop_of_ne hσ
    refine .inr ⟨he, fun hr id hid => ?_⟩
    rw [he] at hid
    exact hr id hid

theorem Holds.add (h : c.Holds fs) (ht : c.targets (dir, name))
    (hfree : fs.lookup? dir name = none) : c.Holds (fs.add dir name (.file x)).1 := by
  have hlt {id : NodeId} (hid : id < fs.nodes.size) :
      (fs.add dir name (.file x)).1.node? id = fs.node? id := node?_add_of_lt hid
  refine h.of_slots (h.wellFormed.add dir name x) rfl ?_ (fun id hid hk => ?_)
    (fun id up _ hup => ?_) fun σ _ => ?_
  · rw [FileSystem.add, Array.size_push]
    exact Nat.le_succ _
  · exact hk.congr (hlt (Nat.lt_of_lt_of_le hid h.size))
  · rw [hlt (lt_size_of_node? hup)]
    exact hup
  · by_cases hσ : σ = (dir, name)
    · subst hσ
      refine .inl ⟨ht, fun id hid => ?_⟩
      rw [lookup?_add_self hfree] at hid
      cases hid
      exact ⟨h.size, isFile_iff.mpr ⟨x, node?_add_self⟩⟩
    · have he : (fs.add dir name (.file x)).1.lookup? σ.1 σ.2 = fs.lookup? σ.1 σ.2 :=
        lookup?_add_of_ne hσ
      refine .inr ⟨he, fun hr id hid => ?_⟩
      rw [he] at hid
      rw [isFile_congr (hlt (h.wellFormed.lt_size hid))]
      exact hr id hid

theorem Holds.set (h : c.Holds fs) (hid : c.stream id) (hf : fs.isFile id) :
    c.Holds (fs.set id (.file x)) := by
  obtain ⟨y, hy⟩ := isFile_iff.mp hf
  have hself := node?_set_self (n := .file x) (lt_size_of_node? hy)
  refine h.of_slots (h.wellFormed.set hf x) rfl ?_ (fun id' _ hk => ?_) (fun id' up _ hup => ?_)
    fun σ _ => ?_
  · exact Nat.le_of_eq Array.size_setIfInBounds.symm
  · by_cases hne : id' = id
    · subst hne
      refine .inr ⟨hid, ?_, isFile_iff.mpr ⟨x, hself⟩⟩
      rcases hk with hk | ⟨-, hc, -⟩
      · exact isFile_iff.mpr ⟨y, hk ▸ hy⟩
      · exact hc
    · exact hk.congr (node?_set_of_ne hne)
  · have hne : id' ≠ id := by
      rintro rfl
      rw [hy] at hup
      cases hup
    rw [node?_set_of_ne hne]
    exact hup
  · refine .inr ⟨rfl, fun hr id' hid' => ?_⟩
    obtain ⟨hle, hf'⟩ := hr id' hid'
    refine ⟨hle, ?_⟩
    by_cases hne : id' = id
    · rw [hne]
      exact isFile_iff.mpr ⟨x, hself⟩
    · rw [isFile_congr (node?_set_of_ne hne)]
      exact hf'

theorem Holds.append (h : c.Holds fs) (hid : c.stream id) : c.Holds (fs.append id x).1 := by
  rcases append_eq fs id x with ⟨y, hy, he⟩ | he
  · rw [he]
    exact h.set hid (isFile_iff.mpr ⟨y, hy⟩)
  · rw [he]
    exact h

end operations

end Scene

/-- What others do to a tree of files leaves certain names alone, with what stands there, and no
directory is moved. -/
structure FileSystem.Spares (ways : Slot → Prop) (fs fs' : FileSystem) : Prop where
  wellFormed : fs.WellFormed → fs'.WellFormed
  workingDir : fs'.workingDir = fs.workingDir
  size : fs.nodes.size ≤ fs'.nodes.size
  directories : ∀ id up, fs.node? id = some (.directory up) → fs'.node? id = some (.directory up)
  entry : ∀ σ, ways σ → fs'.lookup? σ.1 σ.2 = fs.lookup? σ.1 σ.2
  node : ∀ σ, ways σ → ∀ id, fs.lookup? σ.1 σ.2 = some id → fs'.node? id = fs.node? id

theorem FileSystem.Spares.or {ways ways' : Slot → Prop} {fs fs' : FileSystem}
    (h : Spares ways fs fs') (h' : Spares ways' fs fs') :
    Spares (fun σ => ways σ ∨ ways' σ) fs fs' where
  wellFormed := h.wellFormed
  workingDir := h.workingDir
  size := h.size
  directories := h.directories
  entry σ hσ := hσ.elim (h.entry σ) (h'.entry σ)
  node σ hσ := hσ.elim (h.node σ) (h'.node σ)

theorem FileSystem.Spares.refl (ways : Slot → Prop) (fs : FileSystem) : Spares ways fs fs :=
  ⟨id, rfl, Nat.le_refl _, fun _ _ => id, fun _ _ => rfl, fun _ _ _ _ => rfl⟩

namespace Scene

variable {c : Scene} {fs fs' : FileSystem}

theorem Holds.spare (h : c.Holds fs) (hs : Spares c.ways fs fs') : c.Holds fs' where
  first := h.first
  wellFormed := hs.wellFormed h.wellFormed
  workingDir := hs.workingDir.trans h.workingDir
  size := Nat.le_trans h.size hs.size
  directories id up hid := hs.directories id up (h.directories id up hid)
  slots σ hσ := by
    rcases h.slots σ hσ with hk | ⟨ht, hr⟩
    · refine .inl ⟨(hs.entry σ hσ).trans hk.entry, fun id hid => ?_⟩
      exact (hk.node id hid).congr (hs.node σ hσ id (hk.entry.trans hid))
    · refine .inr ⟨ht, fun id hid => ?_⟩
      rw [hs.entry σ hσ] at hid
      rw [isFile_congr (hs.node σ hσ id hid)]
      exact hr id hid

end Scene

end StorageTrials

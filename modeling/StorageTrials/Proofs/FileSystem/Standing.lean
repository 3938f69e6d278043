import StorageTrials.Proofs.FileSystem.Copies

namespace StorageTrials.Scene

open FileSystem

variable {c : Scene} {fs fs' : FileSystem} {path : String} {σ : Slot} {id : NodeId}
variable {x : ByteArray} {P Q : ByteArray → Prop}

def Drifts (c : Scene) (fs fs' : FileSystem) : Prop :=
  ∃ fs₁, Spares c.ways fs fs₁ ∧ (fs' = fs₁ ∨
    ∃ id x, c.stream id ∧ id < c.first.nodes.size ∧ fs' = (fs₁.append id x).1)

theorem Holds.drift (h : c.Holds fs) (hd : c.Drifts fs fs') : c.Holds fs' := by
  obtain ⟨fs₁, hs, rfl | ⟨id, x, hid, -, rfl⟩⟩ := hd
  · exact h.spare hs
  · exact (h.spare hs).append hid

theorem Holds.standing?_drift (h : c.Holds fs) (hp : c.Covers path) (hd : c.Drifts fs fs') :
    fs'.standing? path = fs.standing? path ∧
      ∀ id, fs.standing? path = some id →
        fs.isDirectory id = true ∨ c.first.nodes.size ≤ id → fs'.node? id = fs.node? id := by
  obtain ⟨fs₁, hs, rfl | ⟨id', x, hid', hlt, rfl⟩⟩ := hd
  · obtain ⟨hsame, hnode⟩ := h.standing?_spare hp hs
    exact ⟨hsame, fun id hid _ => hnode id hid⟩
  · obtain ⟨hsame, hnode⟩ := h.standing?_spare hp hs
    have h₁ := h.spare hs
    refine ⟨(standing?_append h₁.wellFormed id' x path).trans hsame, fun id hid hor => ?_⟩
    rw [← hnode id hid]
    rcases append_eq fs₁ id' x with ⟨z, hz, he⟩ | he
    · have hne : id ≠ id' := by
        rintro rfl
        rcases hor with hdir | hle
        · obtain ⟨up, hup⟩ := isDirectory_iff.mp hdir
          rw [hnode id hid, hup] at hz
          cases hz
        · exact absurd hlt (Nat.not_lt.mpr hle)
      rw [he, node?_set_of_ne hne]
    · rw [he]

/-- What stands at a path is a directory, or a new file that holds something of a kind. -/
def Stands (c : Scene) (path : String) (P : ByteArray → Prop) (fs : FileSystem) : Prop :=
  ∀ id, fs.standing? path = some id →
    fs.isDirectory id = true ∨
      c.first.nodes.size ≤ id ∧ ∃ y, fs.node? id = some (.file y) ∧ P y

def HoldsCopy (c : Scene) (path : String) (x : ByteArray) (fs : FileSystem) : Prop :=
  ∃ id, fs.standing? path = some id ∧ c.first.nodes.size ≤ id ∧ fs.node? id = some (.file x)

theorem Stands.mono (hPQ : ∀ y, P y → Q y) (h : c.Stands path P fs) : c.Stands path Q fs := by
  intro id hid
  rcases h id hid with hdir | ⟨hle, y, hy, hP⟩
  · exact .inl hdir
  · exact .inr ⟨hle, y, hy, hPQ y hP⟩

theorem Stands.drift (h : c.Holds fs) (hp : c.Covers path) (hs : c.Stands path P fs)
    (hd : c.Drifts fs fs') : c.Stands path P fs' := by
  obtain ⟨hsame, hnode⟩ := h.standing?_drift hp hd
  intro id hid
  rw [hsame] at hid
  rcases hs id hid with hdir | ⟨hle, y, hy, hP⟩
  · obtain ⟨up, hup⟩ := isDirectory_iff.mp hdir
    exact .inl (isDirectory_iff.mpr ⟨up, (hnode id hid (.inl hdir)).trans hup⟩)
  · exact .inr ⟨hle, y, (hnode id hid (.inr hle)).trans hy, hP⟩

theorem HoldsCopy.drift (h : c.Holds fs) (hp : c.Covers path) (hs : c.HoldsCopy path x fs)
    (hd : c.Drifts fs fs') : c.HoldsCopy path x fs' := by
  obtain ⟨hsame, hnode⟩ := h.standing?_drift hp hd
  obtain ⟨id, hid, hle, hx⟩ := hs
  exact ⟨id, hsame.trans hid, hle, (hnode id hid (.inr hle)).trans hx⟩

theorem HoldsCopy.bytes? (hs : c.HoldsCopy path x fs) : fs.bytes? path = some x := by
  obtain ⟨id, hid, -, hx⟩ := hs
  exact bytes?_of_standing hid hx

theorem Stands.holdsCopy (h : c.Holds fs) (hs : c.Stands path P fs)
    (hb : fs.bytes? path = some x) : c.HoldsCopy path x fs ∧ P x := by
  obtain ⟨id, hf, hx⟩ := bytes?_eq_some_iff.mp hb
  have hnd : ¬ fs.isDirectory id = true := by
    intro hdir
    obtain ⟨up, hup⟩ := isDirectory_iff.mp hdir
    cases hx.symm.trans hup
  rcases find_cases h.wellFormed hf with hdir | hid | ⟨id', target, hid, hl⟩
  · exact absurd hdir hnd
  · rcases hs id hid with hdir | ⟨hle, y, hy, hP⟩
    · exact absurd hdir hnd
    · cases hx.symm.trans hy
      exact ⟨⟨id, hid, hle, hx⟩, hP⟩
  · rcases hs id' hid with hdir | ⟨-, y, hy, -⟩
    · obtain ⟨up, hup⟩ := isDirectory_iff.mp hdir
      cases hl.symm.trans hup
    · cases hl.symm.trans hy

/-- A file may be put at the end of a path, unless a directory stands there. -/
structure Allows (c : Scene) (path : String) : Prop extends c.Covers path where
  target : ∀ σ, c.first.place? path = some σ →
    (∀ id, c.first.lookup? σ.1 σ.2 = some id → c.first.isDirectory id = false) → c.targets σ

theorem Holds.targets (h : c.Holds fs) (hp : c.Allows path) (hσ : fs.place? path = some σ)
    (hd : ∀ id, fs.lookup? σ.1 σ.2 = some id → fs.isDirectory id = false) : c.targets σ := by
  have hfirst : c.first.place? path = some σ := by
    rcases h.place? hp.lookups with he | he
    · exact he ▸ hσ
    · cases he.symm.trans hσ
  rcases h.slots σ (hp.place σ hfirst) with hk | ⟨ht, -⟩
  · refine hp.target σ hfirst fun id hid => ?_
    rw [← (hk.node id hid).isDirectory]
    exact hd id (hk.entry.trans hid)
  · exact ht

theorem Holds.remove (h : c.Holds fs) (hp : c.Allows path) :
    (∀ fs', fs.remove path = .ok fs' → c.Holds fs' ∧ c.Stands path (fun _ => False) fs') ∧
      ∀ e, fs.remove path = .error e → c.Stands path (fun _ => False) fs := by
  refine ⟨fun fs' hr => ?_, fun e hr id hid => ?_⟩
  · obtain ⟨σ, id, hσ, he, hd, rfl⟩ := remove_eq_ok h.wellFormed hr
    have ht : c.targets σ := by
      refine h.targets hp hσ fun id' he' => ?_
      cases he.symm.trans he'
      exact hd
    refine ⟨h.drop ht, fun id hid => ?_⟩
    rw [standing?_drop h.wellFormed hσ] at hid
    cases hid
  · obtain ⟨σ, hσ, he⟩ := standing?_eq_some_iff.mp hid
    cases hd : fs.isDirectory id with
    | true => exact .inl rfl
    | false =>
      rw [remove_of_standing hσ he hd] at hr
      cases hr

theorem Stands.isDirectory (hs : c.Stands path (fun _ => False) fs) :
    ∀ id, fs.standing? path = some id → fs.isDirectory id = true := by
  intro id hid
  rcases hs id hid with hdir | ⟨-, y, -, hF⟩
  · exact hdir
  · exact hF.elim

theorem Holds.copy (h : c.Holds fs) (hp : c.Allows path) (hs : c.Stands path (fun _ => False) fs)
    (source : String) (chunk : Nat) (patience : Patience) (hitches : List Hitch) :
    c.Holds (fs.copy source path chunk patience hitches).1 ∧
      c.Stands path (fun _ => True) (fs.copy source path chunk patience hitches).1 := by
  rcases copy_files h.wellFormed hs.isDirectory source chunk patience hitches with
    he | ⟨σ, x, hσ, hfree, he⟩
  · rw [he]
    exact ⟨h, hs.mono fun _ _ => trivial⟩
  · rw [he]
    refine ⟨h.add (h.targets hp hσ fun id hid => ?_) hfree, fun id hid => ?_⟩
    · cases hfree.symm.trans hid
    · rw [standing?_add h.wellFormed hσ hfree] at hid
      cases hid
      exact .inr ⟨h.size, x, node?_add_self, trivial⟩

/-- Wherever it is stopped, a copy holds a prefix of its source. -/
theorem Holds.stands_copy (h : c.Holds fs) (hs : c.Stands path (fun _ => False) fs)
    {source : String} (hb : fs.bytes? source = some x) {chunk : Nat} (hc : 0 < chunk)
    (patience : Patience) (hitches : List Hitch) :
    c.Stands path (IsPrefix · x) (fs.copy source path chunk patience hitches).1 := by
  obtain ⟨id, hf, hn⟩ := bytes?_eq_some_iff.mp hb
  rcases copy_cases h.wellFormed hf hn hc hs.isDirectory patience hitches with
    ⟨e, he⟩ | ⟨σ, y, r, hσ, hfree, he, hy, -⟩
  · rw [he]
    exact hs.mono fun _ => False.elim
  · rw [he]
    intro id' hid
    rw [standing?_add h.wellFormed hσ hfree] at hid
    cases hid
    exact .inr ⟨h.size, y, node?_add_self, hy⟩

/-- The same from a later tree on. -/
def restart (c : Scene) (fs : FileSystem) : Scene := { c with first := fs }

theorem Allows.restart (hp : c.Allows path) (h : c.Holds fs) : (c.restart fs).Allows path where
  lookups σ hσ := hp.lookups σ ((h.locate hp.lookups).lookups hσ)
  place σ hσ := by
    rcases h.place? hp.lookups with he | he
    · exact hp.place σ (he ▸ hσ)
    · cases he.symm.trans hσ
  target _ hσ hd := h.targets hp hσ hd

theorem Replaced.restart (hr : c.Replaced fs σ) (h : c.Holds fs) (hσ : c.ways σ)
    (h' : (c.restart fs).Holds fs') : c.Replaced fs' σ := by
  intro id hid
  rcases h'.slots σ hσ with hk | ⟨-, hnew⟩
  · have he : fs.lookup? σ.1 σ.2 = some id := hk.entry.symm.trans hid
    obtain ⟨hle, hf⟩ := hr id he
    refine ⟨hle, ?_⟩
    rcases hk.node id he with hn | ⟨-, -, hf'⟩
    · exact isFile_congr hn ▸ hf
    · exact hf'
  · obtain ⟨hle, hf⟩ := hnew id hid
    exact ⟨Nat.le_trans h.size hle, hf⟩

theorem KeepsNode.trans (h : c.KeepsNode fs id) (h' : (c.restart fs).KeepsNode fs' id) :
    c.KeepsNode fs' id := by
  rcases h' with hn | ⟨hs, hf, hf'⟩
  · exact h.congr hn
  · refine .inr ⟨hs, ?_, hf'⟩
    rcases h with hn | ⟨-, hc, -⟩
    · rw [← isFile_congr hn]
      exact hf
    · exact hc

theorem Holds.trans (h : c.Holds fs) (h' : (c.restart fs).Holds fs') : c.Holds fs' where
  first := h.first
  wellFormed := h'.wellFormed
  workingDir := h'.workingDir.trans h.workingDir
  size := Nat.le_trans h.size h'.size
  directories id up hid := h'.directories id up (h.directories id up hid)
  slots σ hσ := by
    rcases h.slots σ hσ with hk | ⟨ht, hr⟩
    · rcases h'.slots σ hσ with hk' | ⟨ht, hr'⟩
      · refine .inl ⟨hk'.entry.trans hk.entry, fun id hid => ?_⟩
        exact (hk.node id hid).trans (hk'.node id (hk.entry.trans hid))
      · refine .inr ⟨ht, fun id hid => ?_⟩
        obtain ⟨hle, hf⟩ := hr' id hid
        exact ⟨Nat.le_trans h.size hle, hf⟩
    · exact .inr ⟨ht, hr.restart h hσ h'⟩

theorem Stands.replaced (h : c.Holds fs) (hσ : c.ways σ) (hp : fs.place? path = some σ)
    (hd : ∀ id, c.first.lookup? σ.1 σ.2 = some id → c.first.isDirectory id = false)
    (hs : c.Stands path P fs) : c.Replaced fs σ := by
  rcases h.slots σ hσ with hk | ⟨-, hr⟩
  · intro id hid
    have he := hk.entry.symm.trans hid
    rcases hs id (standing?_eq_some_iff.mpr ⟨σ, hp, hid⟩) with hdir | ⟨hle, -⟩
    · rw [(hk.node id he).isDirectory, hd id he] at hdir
      cases hdir
    · exact absurd (h.first.lt_size he) (Nat.not_lt.mpr hle)
  · exact hr

end StorageTrials.Scene

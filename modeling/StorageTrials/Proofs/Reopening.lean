import StorageTrials.Proofs.Frame
import StorageTrials.Proofs.SideBySide

namespace StorageTrials

open FileSystem

variable {c : Scene} {fs fs' : FileSystem} {path : String} {id : NodeId} {σ : Slot}
variable {e : SystemError} {p : Pairing}

namespace FileSystem

/-- Opening a file for writing makes no new one. -/
def Settled (fs : FileSystem) (path : String) : Prop :=
  ∀ σ, fs.outlet? path = some σ → fs.child σ.1 σ.2 ≠ .ok none

theorem outlet?_eq_some_iff :
    fs.outlet? path = some σ ↔ fs.locate .create path = .ok (.entry σ.1 σ.2 false) := by
  constructor
  · intro h
    unfold outlet? at h
    split at h
    · rename_i hl
      cases h
      exact hl
    · cases h
  · exact outlet?_of_locate

theorem settled_of_find (h : fs.find path = .ok id) : fs.Settled path := by
  intro σ hσ hfree
  rw [find_of_entry (locate_examine_of_create (outlet?_eq_some_iff.mp hσ)), hfree] at h
  cases h

theorem create_of_outlet (hσ : fs.outlet? path = some σ) (hfree : fs.child σ.1 σ.2 = .ok none) :
    fs.create path = .ok (fs.add σ.1 σ.2 (.file .empty)) := by
  rw [create_of_entry (outlet?_eq_some_iff.mp hσ), hfree]
  rfl

theorem create_of_not_settled (h : ¬ fs.Settled path) :
    ∃ σ, fs.outlet? path = some σ ∧ fs.child σ.1 σ.2 = .ok none ∧
      fs.create path = .ok (fs.add σ.1 σ.2 (.file .empty)) := by
  unfold Settled at h
  push Not at h
  obtain ⟨σ, hσ, hfree⟩ := h
  exact ⟨σ, hσ, hfree, create_of_outlet hσ hfree⟩

theorem settled_of_error (h : fs.create path = .error e) : fs.Settled path := by
  by_contra hnot
  obtain ⟨σ, -, -, hok⟩ := create_of_not_settled hnot
  cases h.symm.trans hok

theorem Settled.find (h : fs.Settled path) (hok : fs.create path = .ok (fs', id)) :
    fs.find path = .ok id := by
  obtain ⟨d, n, hl, ⟨hfree, -⟩ | ⟨hc, -⟩⟩ := create_cases hok
  · exact absurd hfree (h (d, n) (outlet?_of_locate hl))
  · rw [find_of_entry (locate_examine_of_create hl), hc]
    rfl

theorem find_opened_of_free (h : fs.WellFormed) (hσ : fs.outlet? path = some σ)
    (hfree : fs.child σ.1 σ.2 = .ok none) {path' : String}
    (hl : fs.locate .examine path' = .ok (.entry σ.1 σ.2 false)) :
    (fs.opened (some path)).find path' = .ok fs.nodes.size := by
  have hok := create_of_outlet hσ hfree
  obtain ⟨hname, hnone⟩ := child_eq_ok_iff.mp hfree
  have hc : (fs.add σ.1 σ.2 (.file .empty)).1.child σ.1 σ.2 = .ok (some fs.nodes.size) :=
    child_eq_ok_iff.mpr ⟨hname, lookup?_add_self hnone⟩
  have hopened : fs.opened (some path) = (fs.add σ.1 σ.2 (.file .empty)).1 := opened_of_create hok
  have hext : fs.Extends (fs.add σ.1 σ.2 (.file .empty)).1 _ := extends_create h hok
  rw [hopened, find_of_entry (hext.locate hl), hc]
  rfl

/-- What a path opens for writing is there already, and it is no directory. -/
structure Opens (fs : FileSystem) (path : String) (id : NodeId) : Prop where
  outlet : ∃ σ, fs.outlet? path = some σ ∧ fs.child σ.1 σ.2 = .ok (some id)
  isDirectory : fs.isDirectory id = false

theorem Opens.find (h : fs.Opens path id) : fs.find path = .ok id := by
  obtain ⟨σ, hσ, hc⟩ := h.outlet
  rw [find_of_entry (locate_examine_of_create (outlet?_eq_some_iff.mp hσ)), hc]
  rfl

theorem Opens.create (h : fs.Opens path id) : ∃ fs', fs.create path = .ok (fs', id) := by
  obtain ⟨σ, hσ, hc⟩ := h.outlet
  rw [create_of_entry (outlet?_eq_some_iff.mp hσ), hc]
  simp only [Bool.false_eq_true, if_false]
  split
  · rename_i up hup
    have hdir := isDirectory_iff.mpr ⟨up, hup⟩
    cases h.isDirectory.symm.trans hdir
  · exact ⟨_, rfl⟩
  · exact ⟨_, rfl⟩

theorem opens_create (h : fs.WellFormed) (hok : fs.create path = .ok (fs', id)) :
    fs'.Opens path id := by
  obtain ⟨d, n, hl, hcases⟩ := create_cases hok
  have hl' := (extends_create h hok).locate hl
  refine ⟨⟨(d, n), outlet?_of_locate hl', ?_⟩, Bool.eq_false_iff.mpr fun hdir => ?_⟩
  · exact (lookup?_of_find (locate_examine_of_create hl') (find_create h hok)).1
  · obtain ⟨up, hup⟩ := isDirectory_iff.mp hdir
    obtain ⟨-, hadd⟩ | ⟨hc, ⟨hf, rfl⟩ | ⟨-, rfl⟩⟩ := hcases
    · obtain ⟨rfl, rfl⟩ := Prod.mk.inj hadd
      cases node?_add_self.symm.trans hup
    · obtain ⟨x, hx⟩ := isFile_iff.mp hf
      cases (node?_set_self (lt_size_of_node? hx)).symm.trans hup
    · rw [create_of_entry hl, hc] at hok
      simp [hup] at hok

theorem Extends.opens {i : NodeId} (h : fs.Extends fs' i) (ho : fs.Opens path id) :
    fs'.Opens path id := by
  obtain ⟨σ, hσ, hc⟩ := ho.outlet
  obtain ⟨hname, he⟩ := child_eq_ok_iff.mp hc
  refine ⟨⟨σ, outlet?_of_locate (h.locate (outlet?_eq_some_iff.mp hσ)), ?_⟩, ?_⟩
  · exact child_eq_ok_iff.mpr ⟨hname, h.lookup? he⟩
  · rw [(h.find ho.find).2.isDirectory]
    exact ho.isDirectory

theorem WellFormed.lt_size_of_find (h : fs.WellFormed) (hf : fs.find path = .ok id) :
    id < fs.nodes.size := by
  rcases locate_of_find hf with hl | ⟨d, n, t, -, hc, -⟩
  · obtain ⟨up, hup⟩ := isDirectory_iff.mp (h.locate_isDirectory hl)
    exact lt_size_of_node? hup
  · exact h.lt_size (child_eq_ok_iff.mp hc).2

theorem find_saveText (h : fs.WellFormed) (hok : fs.create path = .ok (fs', id)) (text : String) :
    (fs.saveText path text).1.find path = .ok id := by
  have hfound := find_create h hok
  rw [saveText, hok]
  simp only
  split
  · exact hfound
  · have hwf := (extends_create h hok).holds.wellFormed
    exact (((Extends.refl hwf id).append _).find hfound).1

theorem saveText_of_error (h : fs.create path = .error e) (text : String) :
    (fs.saveText path text).1 = fs := by
  rw [saveText, h]

theorem settled_saveText (h : fs.WellFormed) (path text : String) :
    (fs.saveText path text).1.Settled path := by
  cases hok : fs.create path with
  | error e =>
    rw [saveText_of_error hok]
    exact settled_of_error hok
  | ok made => exact settled_of_find (find_saveText h hok text)

theorem addsFiles_saveText (fs : FileSystem) (path text : String) :
    fs.AddsFiles (fs.saveText path text).1 := by
  cases hok : fs.create path with
  | error e =>
    rw [saveText_of_error hok]
    exact .refl fs
  | ok made =>
    rw [saveText, hok]
    simp only
    split
    · exact addsFiles_create hok
    · exact (addsFiles_create hok).trans (addsFiles_append _ _ _)

end FileSystem

namespace Scene

def saving (fs : FileSystem) (path : String) : Scene where
  first := fs
  ways _ := True
  targets σ := fs.outlet? path = some σ ∧ fs.child σ.1 σ.2 = .ok none
  stream id := fs.find path = .ok id

theorem Holds.open_settled (h : c.Holds fs) (hs : fs.Settled path)
    (hstream : ∀ i, fs.find path = .ok i → c.stream i) (hok : fs.create path = .ok (fs', id)) :
    c.Holds fs' := by
  refine h.open hok (fun d n hl hfree => ?_) (hstream id (hs.find hok))
  obtain ⟨d', n', hl', ⟨hc, -⟩ | ⟨hc, -⟩⟩ := create_cases hok
  · exact absurd hc (hs (d', n') (outlet?_of_locate hl'))
  · cases hl.symm.trans hl'
    cases hfree.symm.trans (child_eq_ok_iff.mp hc).2

theorem Holds.save_settled (h : c.Holds fs) (hs : fs.Settled path)
    (hstream : ∀ i, fs.find path = .ok i → c.stream i) (text : String) :
    c.Holds (fs.saveText path text).1 := by
  cases hok : fs.create path with
  | error e => rwa [saveText_of_error hok]
  | ok made =>
    have hopen := h.open_settled hs hstream hok
    rw [FileSystem.saveText, hok]
    simp only
    split
    · exact hopen
    · exact hopen.append (hstream _ (hs.find hok))

theorem holds_saving (h : fs.WellFormed) (path text : String) :
    (saving fs path).Holds (fs.saveText path text).1 := by
  have hfirst : (saving fs path).Holds fs := holds_first h
  by_cases hs : fs.Settled path
  · exact hfirst.save_settled hs (fun _ => id) text
  · obtain ⟨σ, hσ, hc, hok⟩ := create_of_not_settled hs
    have hadd (x : ByteArray) : (saving fs path).Holds (fs.add σ.1 σ.2 (.file x)).1 :=
      hfirst.add ⟨hσ, hc⟩ (child_eq_ok_iff.mp hc).2
    have hnew : (fs.add σ.1 σ.2 (.file .empty)).1.node? fs.nodes.size = some (.file .empty) :=
      node?_add_self
    rw [FileSystem.saveText, hok]
    simp only
    split
    · exact hadd .empty
    · change (saving fs path).Holds
        ((fs.add σ.1 σ.2 (.file .empty)).1.append fs.nodes.size text.toUTF8).1
      rw [FileSystem.append, hnew]
      simp only
      rw [set_add]
      exact hadd _

/-- No way to a path leads by a name under which files are put. -/
def Clear (c : Scene) (path : String) : Prop :=
  ∀ purpose, ∀ σ ∈ c.first.lookups purpose path, ¬ c.targets σ

section clear

variable (hw : ∀ σ, c.ways σ)
include hw

theorem Holds.locate_eq (h : c.Holds fs) (hc : c.Clear path) (purpose : Purpose) :
    fs.locate purpose path = c.first.locate purpose path ∧
      c.KeepsAll fs (c.first.lookups purpose path) := by
  cases (h.locate fun σ _ => hw σ).spot with
  | inl hsame => exact hsame
  | inr hcut =>
    obtain ⟨σ, hσ, ht, -⟩ := hcut
    exact absurd ht (hc purpose σ hσ)

theorem Holds.find_eq (h : c.Holds fs) (hc : c.Clear path) : fs.find path = c.first.find path := by
  obtain ⟨hl, hk⟩ := h.locate_eq hw hc .examine
  exact (h.find_same hl hk).1

theorem Holds.outlet_eq (h : c.Holds fs) (hc : c.Clear path) :
    fs.outlet? path = c.first.outlet? path ∧ ∀ σ, c.first.outlet? path = some σ →
      ¬ c.targets σ ∧ fs.child σ.1 σ.2 = c.first.child σ.1 σ.2 := by
  constructor
  · rw [outlet?, (h.locate_eq hw hc .create).1, outlet?]
  · intro σ hσ
    have hmem := mem_lookups (locate_examine_of_create (outlet?_eq_some_iff.mp hσ))
    exact ⟨hc .examine σ hmem, ((h.locate_eq hw hc .examine).2 σ hmem).child⟩

theorem Holds.settled (h : c.Holds fs) (hc : c.Clear path) (hs : c.first.Settled path) :
    fs.Settled path := by
  intro σ hσ
  obtain ⟨hsame, hchild⟩ := h.outlet_eq hw hc
  rw [hsame] at hσ
  rw [(hchild σ hσ).2]
  exact hs σ hσ

theorem Holds.keeps_opens (h : c.Holds fs) (hc : c.Clear path) (ho : c.first.Opens path id) :
    fs.Opens path id := by
  obtain ⟨hl, hk⟩ := h.locate_eq hw hc .examine
  obtain ⟨hsame, hchild⟩ := h.outlet_eq hw hc
  obtain ⟨σ, hσ, hchild'⟩ := ho.outlet
  refine ⟨⟨σ, hsame.trans hσ, (hchild σ hσ).2.trans hchild'⟩, ?_⟩
  rw [((h.find_same hl hk).2 id ho.find).isDirectory]
  exact ho.isDirectory

end clear

theorem KeepsSlot.agrees (h : c.KeepsSlot fs σ) (hs : ∀ i, c.stream i → p.stream i) :
    p.Agrees c.first fs σ := by
  cases he : c.first.lookup? σ.1 σ.2 with
  | none => exact .free he (h.entry.trans he)
  | some i =>
    refine .both i i he (h.entry.trans he) ?_
    cases h.node i he with
    | inl hn => exact .same rfl hn
    | inr hg => exact .grown rfl (hs i hg.1) hg.2.1 hg.2.2

theorem Holds.alike (h : c.Holds fs) (hw : ∀ σ, c.ways σ) (hs : ∀ i, c.stream i → p.stream i)
    (ht : ∀ σ, c.targets σ → p.Agrees c.first fs σ) (hn : p.newFrom ≤ c.first.nodes.size)
    (hn' : p.newFrom' ≤ fs.nodes.size) : p.Alike c.first fs where
  wellFormed := h.first
  wellFormed' := h.wellFormed
  workingDir := h.workingDir
  size := hn
  size' := hn'
  directories := h.directories
  slots σ := by
    cases h.slots σ (hw σ) with
    | inl hk => exact hk.agrees hs
    | inr hr => exact ht σ hr.1

end Scene

end StorageTrials

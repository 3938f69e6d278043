import StorageTrials.Proofs.Reopening

namespace StorageTrials

open FileSystem

variable {fs fs' : FileSystem} {path : String} {id : NodeId} {σ : Slot}

def FileSystem.saved (fs : FileSystem) (path? : Option String) (text : String) : FileSystem :=
  match path? with
  | none => fs
  | some path => (fs.saveText path text).1

def Settings.texts (s : Settings) (fs : FileSystem) (id : NodeId) : Prop :=
  ∃ path ∈ s.outputs, fs.find path = .ok id

def Settings.copying (s : Settings) (targets : Slot → Prop) (fs : FileSystem) : Scene :=
  ⟨fs, fun _ => True, targets, s.texts fs⟩

/-- What an invocation makes of the tree in which its statistics have been opened: copies are put
under certain names, and perhaps a summary is saved. -/
structure Settings.Carries (s : Settings) (targets : Slot → Prop) (saved? : Option String)
    (fs run last : FileSystem) : Prop where
  holds : (s.copying targets fs).Holds run
  clear : ∀ path ∈ s.outputs, (s.copying targets fs).Clear path
  opens : ∀ path, s.outfile = some path → ∃ i, fs.Opens path i
  vacant : ∀ σ, targets σ → ∀ i, fs.lookup? σ.1 σ.2 = some i → fs.isDirectory i = false
  summary : ∀ path, saved? = some path → s.summaryPath = some path
  saved : ∃ text, last = run.saved saved? text

def FileSystem.SavedAt (fs : FileSystem) (saved? : Option String) (σ : Slot) : Prop :=
  ∃ path, saved? = some path ∧ (Scene.saving fs path).targets σ

namespace Settings.Carries

variable {s : Settings} {targets : Slot → Prop} {saved? : Option String}
variable {run run' last last' : FileSystem} {i : NodeId}

theorem summary_mem (h : s.Carries targets saved? fs run last) (hp : saved? = some path) :
    path ∈ s.outputs :=
  Settings.summaryPath_mem_outputs (h.summary path hp)

theorem find_run (h : s.Carries targets saved? fs run last) (hp : path ∈ s.outputs) :
    run.find path = fs.find path :=
  h.holds.find_eq (fun _ => trivial) (h.clear path hp)

theorem find_last (h : s.Carries targets saved? fs run last) (hf : run.find path = .ok i) :
    last.find path = .ok i := by
  obtain ⟨text, rfl⟩ := h.saved
  cases saved? with
  | none => exact hf
  | some path' =>
    obtain he | ⟨fs₁, j, -, hext⟩ := saveText_cases h.holds.wellFormed path' text
    · rwa [FileSystem.saved, he]
    · exact (hext.find hf).1

theorem texts_last (h : s.Carries targets saved? fs run last) (hi : s.texts fs i) :
    s.texts last i := by
  obtain ⟨path, hp, hf⟩ := hi
  exact ⟨path, hp, h.find_last ((h.find_run hp).trans hf)⟩

theorem lt_size (h : s.Carries targets saved? fs run last) (hi : s.texts fs i) :
    i < fs.nodes.size := by
  obtain ⟨path, -, hf⟩ := hi
  exact h.holds.first.lt_size_of_find hf

theorem outlet_of_savedAt (h : s.Carries targets saved? fs run last) (hσ : run.SavedAt saved? σ) :
    ∃ path, s.summaryPath = some path ∧ fs.outlet? path = some σ ∧
      fs.child σ.1 σ.2 = .ok none ∧ ¬ targets σ := by
  obtain ⟨path, hp, hout, hfree⟩ := hσ
  obtain ⟨hsame, hchild⟩ := h.holds.outlet_eq (fun _ => trivial) (h.clear path (h.summary_mem hp))
  obtain ⟨ht, he⟩ := hchild σ (hsame ▸ hout)
  exact ⟨path, h.summary path hp, hsame ▸ hout, he ▸ hfree, ht⟩

theorem free_of_savedAt (h : s.Carries targets saved? fs run last) (hσ : run.SavedAt saved? σ) :
    fs.lookup? σ.1 σ.2 = none ∧ ¬ targets σ := by
  obtain ⟨path, -, -, hfree, ht⟩ := h.outlet_of_savedAt hσ
  exact ⟨(child_eq_ok_iff.mp hfree).2, ht⟩

def whole (s : Settings) (targets : Slot → Prop) (saved? : Option String)
    (fs run : FileSystem) : Scene :=
  ⟨fs, fun _ => True, fun σ => targets σ ∨ run.SavedAt saved? σ, s.texts fs⟩

theorem holds_last (h : s.Carries targets saved? fs run last) :
    (whole s targets saved? fs run).Holds last := by
  have hrun : (whole s targets saved? fs run).Holds run :=
    h.holds.widen rfl (fun _ => id) (fun _ => .inl) fun _ => id
  obtain ⟨text, rfl⟩ := h.saved
  cases saved? with
  | none => exact hrun
  | some path =>
    have hsaved := Scene.holds_saving h.holds.wellFormed path text
    refine hrun.trans (hsaved.widen rfl (fun _ => id) (fun σ hσ => .inr ⟨path, rfl, hσ⟩)
      fun i hi => ?_)
    exact ⟨path, h.summary_mem rfl, (h.find_run (h.summary_mem rfl)).symm.trans hi⟩

theorem node_last (h : s.Carries targets saved? fs run last) (hf : run.find path = .ok i)
    (hne : ∀ path', saved? = some path' → run.find path' ≠ .ok i) :
    last.node? i = run.node? i := by
  obtain ⟨text, rfl⟩ := h.saved
  cases saved? with
  | none => rfl
  | some path' =>
    have hsaved := Scene.holds_saving h.holds.wellFormed path' text
    obtain ⟨-, hn | hg⟩ := hsaved.find (fun _ _ => trivial) (fun σ hσ ht =>
      lookup?_ne_none_of_find hf hσ (child_eq_ok_iff.mp ht.2).2) hf
    · exact hn
    · exact absurd hg.1 (hne path' rfl)

theorem opens_last (h : s.Carries targets saved? fs run last) (hp : s.outfile = some path)
    (hi : fs.Opens path i) : last.Opens path i := by
  have hrun : run.Opens path i :=
    h.holds.keeps_opens (fun _ => trivial) (h.clear path (outfile_mem_outputs hp)) hi
  obtain ⟨text, rfl⟩ := h.saved
  cases saved? with
  | none => exact hrun
  | some path' =>
    obtain he | ⟨fs₁, j, -, hext⟩ := saveText_cases h.holds.wellFormed path' text
    · rwa [FileSystem.saved, he]
    · exact hext.opens hrun

theorem holds_opened (h : s.Carries targets saved? fs run last) {c : Scene} (hc : c.Holds last)
    (hs : ∀ path i, s.outfile = some path → fs.find path = .ok i → c.stream i) :
    c.Holds (last.opened s.outfile) := by
  cases ho : s.outfile with
  | none => exact hc
  | some path =>
    obtain ⟨i, hi⟩ := h.opens path ho
    have hlast := h.opens_last ho hi
    obtain ⟨fs', hok⟩ := hlast.create
    rw [opened_of_create hok]
    refine hc.open_settled (settled_of_find hlast.find) (fun j hj => ?_) hok
    cases hlast.find.symm.trans hj
    exact hs path i ho hi.find

/-- How the tree before the first invocation and the one before the second differ. -/
def pairing (s : Settings) (targets : Slot → Prop) (saved? : Option String)
    (fs run last : FileSystem) : Pairing where
  apart := targets
  soft := run.SavedAt saved?
  stream := s.texts fs
  newFrom := fs.nodes.size
  newFrom' := (last.opened s.outfile).nodes.size

theorem holds_reopened (h : s.Carries targets saved? fs run last) :
    (whole s targets saved? fs run).Holds (last.opened s.outfile) :=
  h.holds_opened h.holds_last fun path _ ho hi => ⟨path, outfile_mem_outputs ho, hi⟩

theorem find_whole (h : s.Carries targets saved? fs run last) {fs₁ : FileSystem}
    (hw : (whole s targets saved? fs run).Holds fs₁) (hf : fs.find path = .ok i)
    (hclear : ∀ σ ∈ fs.lookups .examine path, ¬ targets σ) :
    fs₁.find path = .ok i ∧ (whole s targets saved? fs run).KeepsNode fs₁ i := by
  refine hw.find (fun _ _ => trivial) (fun σ hσ ht => ?_) hf
  cases ht with
  | inl ht => exact hclear σ hσ ht
  | inr hs => exact lookup?_ne_none_of_find hf hσ (h.free_of_savedAt hs).1

theorem clear_whole (h : s.Carries targets saved? fs run last) {fs₁ : FileSystem}
    (hw : (whole s targets saved? fs run).Holds fs₁) (hp : path ∈ s.outputs) :
    (s.copying targets fs₁).Clear path := fun purpose σ hσ =>
  h.clear path hp purpose σ ((hw.locate fun _ _ => trivial).lookups hσ)

theorem inspect_whole (h : s.Carries targets saved? fs run last) {fs₁ : FileSystem}
    (hw : (whole s targets saved? fs run).Holds fs₁) (hin : fs.inspect path = .ok .directory)
    (hclear : ∀ σ ∈ fs.lookups .examine path, ¬ targets σ) :
    fs₁.inspect path = .ok .directory := by
  obtain ⟨i, hf, hd⟩ := inspect_eq_directory_iff.mp hin
  obtain ⟨hf', hk⟩ := h.find_whole hw hf hclear
  exact inspect_eq_directory_iff.mpr ⟨i, hf', hk.isDirectory.trans hd⟩

theorem alike (h : s.Carries targets saved? fs run last) :
    (pairing s targets saved? fs run last).Alike fs (last.opened s.outfile) := by
  have hwhole := h.holds_reopened
  refine hwhole.alike (fun _ => trivial) (fun _ => id) (fun σ hσ => ?_) (Nat.le_refl _)
    (Nat.le_refl _)
  have hslot := hwhole.slots σ trivial
  cases hσ with
  | inl ht =>
    exact .apart ht (h.vacant σ ht) (hwhole.vacant trivial (h.vacant σ ht))
  | inr hs =>
    have hfree := (h.free_of_savedAt hs).1
    refine .soft hs (fun i hi => nomatch hfree.symm.trans hi) fun i hi => ?_
    cases hslot with
    | inl hk => cases hfree.symm.trans (hk.entry.symm.trans hi)
    | inr hr => exact (hr.2 i hi).2

/-- The scene of the first invocation tells what may become of the trees before both. -/
theorem leads (h : s.Carries targets saved? fs run last) :
    (s.copying targets fs).Leads (pairing s targets saved? fs run last) where
  ways _ := trivial
  stream := rfl
  old _ hi := ⟨h.lt_size hi, Nat.lt_of_lt_of_le (h.lt_size hi) h.holds_reopened.size⟩
  held _ hi := h.lt_size hi
  soft _ hσ := h.free_of_savedAt hσ

theorem again (h : s.Carries targets saved? fs run last)
    (hrun : (s.copying targets (last.opened s.outfile)).Holds run')
    (hsaved : ∃ text, last' = run'.saved saved? text) :
    s.Carries targets saved? (last.opened s.outfile) run' last' where
  holds := hrun
  clear _ hp := h.clear_whole h.holds_reopened hp
  opens path hp := by
    obtain ⟨i, hi⟩ := h.opens path hp
    obtain ⟨fs', hok⟩ := (h.opens_last hp hi).create
    rw [hp, opened_of_create hok]
    exact ⟨i, opens_create h.holds_last.wellFormed hok⟩
  vacant σ hσ := (h.alike.vacant_iff σ).mpr (h.vacant σ hσ)
  summary := h.summary
  saved := hsaved

theorem holds_run (h : s.Carries targets saved? fs run last)
    (h' : s.Carries targets saved? (last.opened s.outfile) run' last') :
    (s.copying targets last).Holds run' := by
  have hlast : (s.copying targets last).Holds last := Scene.holds_first h.holds_last.wellFormed
  have hopened : (s.copying targets last).Holds (last.opened s.outfile) :=
    h.holds_opened hlast fun path i ho hi => h.texts_last ⟨path, outfile_mem_outputs ho, hi⟩
  refine hopened.trans (h'.holds.widen rfl (fun _ => id) (fun _ => id) fun i hi => ?_)
  obtain ⟨path, hp, hf⟩ := hi
  have hfind := hopened.find_eq (fun _ => trivial) (h.clear_whole h.holds_last hp)
  exact ⟨path, hp, hfind.symm.trans hf⟩

end Settings.Carries

/-- The same directories, links and files stand under the same names, and only the files of the
outputs may hold other text. -/
structure Settings.Restores (s : Settings) (fs fs' : FileSystem) : Prop where
  workingDir : fs'.workingDir = fs.workingDir
  directories : ∀ id up, fs.node? id = some (.directory up) → fs'.node? id = some (.directory up)
  names : ∀ σ : Slot, fs'.lookup? σ.1 σ.2 = none ↔ fs.lookup? σ.1 σ.2 = none
  nodes : ∀ (σ : Slot) (i i' : NodeId), fs.lookup? σ.1 σ.2 = some i →
    fs'.lookup? σ.1 σ.2 = some i' →
      fs'.node? i' = fs.node? i ∧ (fs.isFile i = false → i' = i) ∨
        s.texts fs i ∧ i' = i ∧ fs.isFile i = true ∧ fs'.isFile i = true

def Pairing.textual (stream : NodeId → Prop) : Pairing :=
  ⟨fun _ => False, fun _ => False, stream, 0, 0⟩

theorem Pairing.Alike.restores {s : Settings} (h : (Pairing.textual (s.texts fs)).Alike fs fs') :
    s.Restores fs fs' where
  workingDir := h.workingDir
  directories := h.directories
  names σ := by
    cases h.slots σ with
    | free he he' => simp [he, he']
    | both i i' he he' => simp [he, he']
    | apart ha => exact ha.elim
    | soft hs => exact hs.elim
  nodes σ i i' hi hi' := by
    cases h.slots σ with
    | free he => cases he.symm.trans hi
    | both j j' he he' hm =>
      cases he.symm.trans hi
      cases he'.symm.trans hi'
      cases hm with
      | same he hn => exact .inl ⟨he ▸ hn, fun _ => he⟩
      | grown he hs hf hf' => exact .inr ⟨hs, he, hf, hf'⟩
      | copies x hle hle' hn hn' =>
        refine .inl ⟨hn'.trans hn.symm, fun hnot => ?_⟩
        cases hnot.symm.trans (isFile_iff.mpr ⟨x, hn⟩)
    | apart ha => exact ha.elim
    | soft hs => exact hs.elim

theorem Settings.Restores.refl (s : Settings) (fs : FileSystem) : s.Restores fs fs where
  workingDir := rfl
  directories _ _ := id
  names _ := Iff.rfl
  nodes σ i i' hi hi' := by
    cases hi.symm.trans hi'
    exact .inl ⟨rfl, fun _ => rfl⟩

namespace Settings.Carries

variable {s : Settings} {targets : Slot → Prop} {saved? : Option String}
variable {run run' last last' : FileSystem} {i : NodeId}

theorem together (h : s.Carries targets (some path) fs run last)
    (h' : s.Carries targets (some path) (last.opened s.outfile) run' last')
    (hs : run'.Settled path) :
    Pairing.Alike.Together
      { pairing s targets (some path) fs run last with apart := fun _ => False }
      (.textual (s.texts last)) (Scene.saving run path) (Scene.saving run' path) where
  ways _ := ⟨trivial, trivial⟩
  targets σ hσ := absurd hσ.2 (hs σ hσ.1)
  text i hi := by
    have hmem := h.summary_mem rfl
    obtain hi | hi | hi := hi
    · exact ⟨path, hmem, h.find_last hi⟩
    · have hfind := (h.holds_run h').find_eq (fun _ => trivial) (h.clear_whole h.holds_last hmem)
      exact ⟨path, hmem, hfind.symm.trans hi⟩
    · exact h.texts_last hi
  old i hi :=
    .inl (h.lt_size ⟨path, h.summary_mem rfl, (h.find_run (h.summary_mem rfl)).symm.trans hi⟩)
  old' i hi :=
    .inl (h'.lt_size ⟨path, h'.summary_mem rfl, (h'.find_run (h'.summary_mem rfl)).symm.trans hi⟩)
  apart _ ha := ha.elim
  soft σ hσ := by
    obtain ⟨path', hp, ht⟩ := hσ
    cases hp
    exact .inr ht
  newFrom := Nat.zero_le _
  newFrom' := Nat.zero_le _

/-- If the runs leave trees that look alike, so do the invocations. -/
theorem restores (h : s.Carries targets saved? fs run last)
    (h' : s.Carries targets saved? (last.opened s.outfile) run' last')
    (ha : Pairing.Alike { pairing s targets saved? fs run last with apart := fun _ => False }
      run run') : s.Restores last last' := by
  apply Pairing.Alike.restores
  have hrun := h.holds_run h'
  obtain ⟨text, hlast⟩ := h.saved
  obtain ⟨text', hlast'⟩ := h'.saved
  cases saved? with
  | none =>
    have hsame : last = run := hlast
    have hsame' : last' = run' := hlast'
    rw [hsame', hsame]
    refine ha.mono (fun _ => id) (fun σ hσ => ?_) (fun i hi => hsame ▸ h.texts_last hi)
      (Nat.zero_le _) (Nat.zero_le _)
    obtain ⟨path, hp, -⟩ := hσ
    cases hp
  | some path =>
    have hclear := h.clear_whole h.holds_last (h.summary_mem rfl)
    have hsettled : last.Settled path := hlast ▸ settled_saveText h.holds.wellFormed path text
    have hsettled' := hrun.settled (fun _ => trivial) hclear hsettled
    have hfind := hrun.find_eq (fun _ => trivial) hclear
    have hholds : (s.copying targets last).Holds last' := by
      rw [hlast']
      exact hrun.save_settled hsettled'
        (fun i hi => ⟨path, h.summary_mem rfl, hfind.symm.trans hi⟩) text'
    have hsaved : (Scene.saving run path).Holds last :=
      hlast ▸ Scene.holds_saving h.holds.wellFormed path text
    have hsaved' : (Scene.saving run' path).Holds last' :=
      hlast' ▸ Scene.holds_saving h'.holds.wellFormed path text'
    refine ha.step (h.together h' hsettled') hsaved hsaved' (fun σ hσ => ?_) fun id up hid => ?_
    · cases hholds.slots σ trivial with
      | inl hk => exact hk.agrees fun _ => id
      | inr hr => exact absurd hr.1 (h.free_of_savedAt ⟨path, rfl, hσ⟩).2
    · rw [hlast] at hid
      exact (addsFiles_saveText run path text).directory hid

end Settings.Carries

end StorageTrials

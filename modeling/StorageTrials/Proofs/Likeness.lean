import StorageTrials.Proofs.Deliveries

namespace StorageTrials

open FileSystem StorageTrials.Path

/-- How two trees of files may differ. -/
structure Pairing where
  apart : Slot → Prop
  /-- Names that may be free in one tree and stand for a file in the other. -/
  soft : Slot → Prop
  stream : NodeId → Prop
  newFrom : NodeId
  newFrom' : NodeId

namespace Pairing

/-- Two nodes that look alike: the same one, a file with text that differs, or two new files with
the same content. -/
inductive Matches (p : Pairing) (fs fs' : FileSystem) (i i' : NodeId) : Prop
  | same (he : i' = i) (hn : fs'.node? i = fs.node? i)
  | grown (he : i' = i) (hs : p.stream i) (hf : fs.isFile i = true) (hf' : fs'.isFile i = true)
  | copies (x : ByteArray) (hle : p.newFrom ≤ i) (hle' : p.newFrom' ≤ i')
      (hn : fs.node? i = some (.file x)) (hn' : fs'.node? i' = some (.file x))

inductive Agrees (p : Pairing) (fs fs' : FileSystem) (σ : Slot) : Prop
  | free (h : fs.lookup? σ.1 σ.2 = none) (h' : fs'.lookup? σ.1 σ.2 = none)
  | both (i i' : NodeId) (h : fs.lookup? σ.1 σ.2 = some i) (h' : fs'.lookup? σ.1 σ.2 = some i')
      (hm : p.Matches fs fs' i i')
  | apart (ha : p.apart σ) (hd : ∀ i, fs.lookup? σ.1 σ.2 = some i → fs.isDirectory i = false)
      (hd' : ∀ i, fs'.lookup? σ.1 σ.2 = some i → fs'.isDirectory i = false)
  | soft (hs : p.soft σ) (hf : ∀ i, fs.lookup? σ.1 σ.2 = some i → fs.isFile i = true)
      (hf' : ∀ i, fs'.lookup? σ.1 σ.2 = some i → fs'.isFile i = true)

structure Alike (p : Pairing) (fs fs' : FileSystem) : Prop where
  wellFormed : fs.WellFormed
  wellFormed' : fs'.WellFormed
  workingDir : fs'.workingDir = fs.workingDir
  size : p.newFrom ≤ fs.nodes.size
  size' : p.newFrom' ≤ fs'.nodes.size
  directories : ∀ id up, fs.node? id = some (.directory up) → fs'.node? id = some (.directory up)
  slots : ∀ σ, p.Agrees fs fs' σ

/-- Text goes to files that were there from the beginning. -/
def Old (p : Pairing) : Prop := ∀ i, p.stream i → i < p.newFrom ∧ i < p.newFrom'

variable {p : Pairing} {fs fs' : FileSystem} {i i' dir : NodeId} {name path : String} {σ : Slot}
variable {purpose : Purpose} {t : Bool} {steps rest : List Step} {s : Spot}

theorem Matches.files (h : p.Matches fs fs' i i') (hne : fs'.node? i' ≠ fs.node? i) :
    fs.isFile i = true ∧ fs'.isFile i' = true := by
  cases h with
  | same he hn => exact absurd (he ▸ hn) hne
  | grown he hs hf hf' => exact ⟨hf, he ▸ hf'⟩
  | copies x hle hle' hn hn' => exact ⟨isFile_iff.mpr ⟨x, hn⟩, isFile_iff.mpr ⟨x, hn'⟩⟩

theorem find_error_of_trailing {d : NodeId} {n : String} {o : Option NodeId} {path : String}
    (hl : fs.locate .examine path = .ok (.entry d n true)) (hc : fs.child d n = .ok o)
    (hf : ∀ i, o = some i → fs.isFile i = true) : ∃ e, fs.find path = .error e := by
  rw [find_of_entry hl, hc]
  cases o with
  | none => exact ⟨_, rfl⟩
  | some i =>
    simp only [isDirectory_of_isFile (hf i rfl)]
    exact ⟨_, rfl⟩

theorem Matches.isDirectory (h : p.Matches fs fs' i i') :
    fs'.isDirectory i' = fs.isDirectory i := by
  by_cases hn : fs'.node? i' = fs.node? i
  · rw [FileSystem.isDirectory, hn, FileSystem.isDirectory]
  · obtain ⟨hf, hf'⟩ := h.files hn
    rw [isDirectory_of_isFile hf, isDirectory_of_isFile hf']

theorem Matches.eq_of_not_file (h : p.Matches fs fs' i i') (hf : fs.isFile i = false) :
    i' = i ∧ fs'.node? i = fs.node? i := by
  cases h with
  | same he hn => exact ⟨he, hn⟩
  | grown he hs hf' => cases hf.symm.trans hf'
  | copies x hle hle' hn => cases hf.symm.trans (isFile_iff.mpr ⟨x, hn⟩)

theorem isFile_of_directory {up : NodeId} (h : fs.node? i = some (.directory up)) :
    fs.isFile i = false := by
  rw [isFile, content?, h]
  rfl

theorem isFile_of_link {target : String} (h : fs.node? i = some (.link target)) :
    fs.isFile i = false := by
  rw [isFile, content?, h]
  rfl

inductive Children (p : Pairing) (fs fs' : FileSystem) (dir : NodeId) (name : String) : Prop
  | fault (e : SystemError) (h : fs.child dir name = .error e) (h' : fs'.child dir name = .error e)
  | free (h : fs.child dir name = .ok none) (h' : fs'.child dir name = .ok none)
  | both (i i' : NodeId) (h : fs.child dir name = .ok (some i))
      (h' : fs'.child dir name = .ok (some i')) (hm : p.Matches fs fs' i i')
  | soft (hs : p.soft (dir, name)) (o o' : Option NodeId) (h : fs.child dir name = .ok o)
      (h' : fs'.child dir name = .ok o') (hf : ∀ i, o = some i → fs.isFile i = true)
      (hf' : ∀ i, o' = some i → fs'.isFile i = true)

namespace Alike

theorem child (h : p.Alike fs fs') (hσ : ¬ p.apart (dir, name)) :
    p.Children fs fs' dir name := by
  by_cases hname : name.utf8ByteSize ≤ maxNameBytes
  · have hok (fs : FileSystem) : fs.child dir name = .ok (fs.lookup? dir name) :=
      child_eq_ok_iff.mpr ⟨hname, rfl⟩
    cases h.slots (dir, name) with
    | free he he' => exact .free ((hok fs).trans (congrArg _ he)) ((hok fs').trans (congrArg _ he'))
    | both i i' he he' hm =>
      exact .both i i' ((hok fs).trans (congrArg _ he)) ((hok fs').trans (congrArg _ he')) hm
    | apart ha => exact absurd ha hσ
    | soft hs hf hf' => exact .soft hs _ _ (hok fs) (hok fs') hf hf'
  · have herror (fs : FileSystem) : fs.child dir name = .error .nameTooLong :=
      if_pos (Nat.lt_of_not_le hname)
    exact .fault _ (herror fs) (herror fs')

theorem parent (h : p.Alike fs fs') (hd : fs.isDirectory dir) : fs'.parent dir = fs.parent dir := by
  obtain ⟨up, hup⟩ := isDirectory_iff.mp hd
  rw [parent_eq_of_node? hup, parent_eq_of_node? (h.directories _ _ hup)]

/-- A name at which a way breaks off in one tree breaks it off in the other. -/
theorem stops (h : p.Alike fs fs') (hσ : ¬ p.apart (dir, name)) (hr : rest ≠ [])
    (hno : ∀ i, fs.child dir name = .ok (some i) →
      (∀ up, fs.node? i ≠ some (.directory up)) ∧ ∀ target, fs.node? i ≠ some (.link target)) :
    (∃ e, fs.advance t dir (.name name :: rest) = .fault e) ∧
      ∃ e, fs'.advance t dir (.name name :: rest) = .fault e := by
  have hfault {fs : FileSystem} (hno : ∀ i, fs.child dir name = .ok (some i) →
      (∀ up, fs.node? i ≠ some (.directory up)) ∧ ∀ target, fs.node? i ≠ some (.link target)) :
      ∃ e, fs.advance t dir (.name name :: rest) = .fault e := by
    rw [FileSystem.advance]
    · cases hc : fs.child dir name with
      | error e => exact ⟨e, rfl⟩
      | ok o =>
        cases o with
        | none => exact ⟨_, rfl⟩
        | some i =>
          obtain ⟨hdir, hlink⟩ := hno i hc
          refine ⟨.notDirectory, ?_⟩
          simp only
    · exact hr
  refine ⟨hfault hno, hfault fun i hi => ?_⟩
  have hfile (hf : fs'.isFile i = true) : (∀ up, fs'.node? i ≠ some (.directory up)) ∧
      ∀ target, fs'.node? i ≠ some (.link target) := by
    obtain ⟨x, hx⟩ := isFile_iff.mp hf
    simp [hx]
  cases h.child hσ with
  | fault e hc hc' => cases hi.symm.trans hc'
  | free hc hc' => cases hi.symm.trans hc'
  | soft hs o o' hc hc' hf hf' =>
    cases hi.symm.trans hc'
    exact hfile (hf' i rfl)
  | both j j' hc hc' hm =>
    cases hi.symm.trans hc'
    by_cases hn : fs'.node? i = fs.node? j
    · rw [hn]
      exact hno j hc
    · exact hfile (hm.files hn).2

theorem goes (h : p.Alike fs fs') (hσ : ¬ p.apart (dir, name))
    (hc : fs.child dir name = .ok (some i)) (hf : fs.isFile i = false) :
    fs'.child dir name = .ok (some i) ∧ fs'.node? i = fs.node? i := by
  cases h.child hσ with
  | fault e hc₁ => cases hc.symm.trans hc₁
  | free hc₁ => cases hc.symm.trans hc₁
  | soft hs o o' hc₁ hc' hfile =>
    cases hc.symm.trans hc₁
    cases hf.symm.trans (hfile i rfl)
  | both j j' hc₁ hc' hm =>
    cases hc.symm.trans hc₁
    obtain ⟨rfl, hn⟩ := hm.eq_of_not_file hf
    exact ⟨hc', hn⟩

theorem advance (h : p.Alike fs fs') (hd : fs.isDirectory dir)
    (hw : ∀ σ ∈ fs.advanceLookups dir steps, ¬ p.apart σ) :
    fs'.advance t dir steps = fs.advance t dir steps ∨
      (∃ e, fs.advance t dir steps = .fault e) ∧ ∃ e, fs'.advance t dir steps = .fault e := by
  induction dir, steps using advance.induct fs with
  | case1 dir | case2 dir | case4 dir n => exact .inl rfl
  | case3 dir => exact .inl (by rw [FileSystem.advance, h.parent hd, FileSystem.advance])
  | case5 dir rest hr ih =>
    rw [advanceLookups] at hw
    · rw [FileSystem.advance, FileSystem.advance] <;> try exact hr
      exact ih hd hw
    · exact hr
  | case6 dir rest hr ih =>
    rw [advanceLookups] at hw
    · rw [FileSystem.advance, FileSystem.advance, h.parent hd] <;> try exact hr
      exact ih (h.wellFormed.isDirectory_parent _) hw
    · exact hr
  | case9 dir n rest hr id hc up hn ih =>
    obtain ⟨hc', hn'⟩ :=
      h.goes (hw _ (Scene.mem_advanceLookups_name hr)) hc (isFile_of_directory hn)
    have hid : fs.isDirectory id = true := isDirectory_iff.mpr ⟨up, hn⟩
    rw [advanceLookups, hc] at hw
    · simp only [hid, if_true] at hw
      rw [FileSystem.advance, FileSystem.advance, hc, hc'] <;> try exact hr
      simp only [hn', hn]
      exact ih hid fun σ hσ => hw σ (List.mem_cons_of_mem _ hσ)
    · exact hr
  | case10 dir n rest hr id hc target hn =>
    obtain ⟨hc', hn'⟩ := h.goes (hw _ (Scene.mem_advanceLookups_name hr)) hc (isFile_of_link hn)
    rw [FileSystem.advance, FileSystem.advance, hc, hc'] <;> try exact hr
    simp only [hn', hn]
    exact .inl trivial
  | case7 dir n rest hr e hc =>
    exact .inr (h.stops (hw _ (Scene.mem_advanceLookups_name hr)) hr (by simp [hc]))
  | case8 dir n rest hr hc =>
    exact .inr (h.stops (hw _ (Scene.mem_advanceLookups_name hr)) hr (by simp [hc]))
  | case11 dir n rest hr id hc hnd hnl =>
    refine .inr (h.stops (hw _ (Scene.mem_advanceLookups_name hr)) hr fun i hi => ?_)
    cases hc.symm.trans hi
    exact ⟨hnd, hnl⟩

theorem advance_eq (h : p.Alike fs fs') {a : Advance} {d : NodeId} (hd : fs.isDirectory dir)
    (hw : ∀ σ ∈ fs.advanceLookups dir steps, ¬ p.apart σ) (ha : fs.advance t dir steps = a)
    (hgo : a.dir? = some d) : fs'.advance t dir steps = a := by
  obtain he | ⟨⟨e, he⟩, -⟩ := h.advance hd hw (t := t)
  · exact he.trans ha
  · cases ha.symm.trans he
    cases hgo

theorem linkAt (h : p.Alike fs fs') (hw : ∀ σ ∈ spotLookups purpose s, ¬ p.apart σ) :
    fs'.linkAt purpose s = fs.linkAt purpose s := by
  cases s with
  | directory id => rfl
  | entry d n t =>
    cases hf : purpose.follows t with
    | false => rw [linkAt_of_not_follows hf, linkAt_of_not_follows hf]
    | true =>
      have hσ : ¬ p.apart (d, n) := hw (d, n) (by rw [spotLookups, hf, if_pos rfl]; simp)
      have hnone {fs : FileSystem} {o : Option NodeId} (hc : fs.child d n = .ok o)
          (hfile : ∀ i, o = some i → fs.isFile i = true) :
          fs.linkAt purpose (.entry d n t) = .ok none := by
        rw [linkAt_of_follows hf, hc]
        cases o with
        | none => rfl
        | some i =>
          obtain ⟨x, hx⟩ := isFile_iff.mp (hfile i rfl)
          simp only [hx]
      cases h.child hσ with
      | fault e hc hc' => rw [linkAt_of_follows hf, linkAt_of_follows hf, hc, hc']
      | free hc hc' => rw [linkAt_of_follows hf, linkAt_of_follows hf, hc, hc']
      | soft hs o o' hc hc' hfile hfile' => rw [hnone hc hfile, hnone hc' hfile']
      | both i i' hc hc' hm =>
        by_cases hn : fs'.node? i' = fs.node? i
        · rw [linkAt_of_follows hf, linkAt_of_follows hf, hc, hc']
          simp only [hn]
        · obtain ⟨hfile, hfile'⟩ := hm.files hn
          rw [hnone hc fun j hj => Option.some.inj hj ▸ hfile,
            hnone hc' fun j hj => Option.some.inj hj ▸ hfile']

theorem walk (h : p.Alike fs fs') {links : Nat} (hd : fs.isDirectory dir)
    (hw : ∀ σ ∈ fs.walkLookups purpose links t dir steps, ¬ p.apart σ) :
    fs'.walk purpose links t dir steps = fs.walk purpose links t dir steps ∨
      (∃ e, fs.walk purpose links t dir steps = .error e) ∧
        ∃ e, fs'.walk purpose links t dir steps = .error e := by
  induction links, t, dir, steps using walk.induct fs purpose with
  | case1 links t dir steps e ha =>
    rw [walkLookups, ha, List.append_nil] at hw
    rw [FileSystem.walk, FileSystem.walk, ha]
    obtain he | ⟨-, e', he⟩ := h.advance hd hw (t := t)
    · rw [he, ha]
      exact .inl rfl
    · rw [he]
      exact .inr ⟨⟨e, rfl⟩, e', rfl⟩
  | case2 t dir steps d target rest ha =>
    rw [walkLookups, ha, List.append_nil] at hw
    rw [FileSystem.walk, FileSystem.walk, h.advance_eq hd hw ha rfl, ha]
    exact .inl rfl
  | case3 t dir steps d target rest ha r links ih =>
    rw [walkLookups, ha] at hw
    have he := h.advance_eq hd (fun σ hσ => hw σ (List.mem_append_left _ hσ)) ha rfl
    rw [FileSystem.walk, FileSystem.walk, he, ha]
    have hup := h.wellFormed.advance_isDirectory hd (congrArg Advance.dir? ha)
    exact ih (h.wellFormed.isDirectory_start hup r) fun σ hσ => hw σ (List.mem_append_right _ hσ)
  | case4 links t dir steps s ha e hl | case5 links t dir steps s ha hl
  | case6 t dir steps s ha d target hl =>
    rw [walkLookups, ha] at hw
    have he := h.advance_eq hd (fun σ hσ => hw σ (List.mem_append_left _ hσ)) ha rfl
    have hlink := h.linkAt fun σ hσ => hw σ (List.mem_append_right _ (List.mem_append_left _ hσ))
    rw [FileSystem.walk, FileSystem.walk, he, ha]
    simp only [hlink, hl]
    exact .inl trivial
  | case7 t dir steps s ha d target hl r links ih =>
    rw [walkLookups, ha] at hw
    have he := h.advance_eq hd (fun σ hσ => hw σ (List.mem_append_left _ hσ)) ha rfl
    have hlink := h.linkAt fun σ hσ => hw σ (List.mem_append_right _ (List.mem_append_left _ hσ))
    rw [FileSystem.walk, FileSystem.walk, he, ha]
    simp only [hl] at hw
    simp only [hlink, hl]
    have hd' := h.wellFormed.advance_isDirectory hd (congrArg Advance.dir? ha)
    refine ih (h.wellFormed.isDirectory_start (dir_of_linkAt hl ▸ hd') _) fun σ hσ => ?_
    exact hw σ (List.mem_append_right _ (List.mem_append_right _ hσ))

theorem locate (h : p.Alike fs fs') (hw : ∀ σ ∈ fs.lookups purpose path, ¬ p.apart σ) :
    fs'.locate purpose path = fs.locate purpose path ∨
      (∃ e, fs.locate purpose path = .error e) ∧ ∃ e, fs'.locate purpose path = .error e := by
  rcases refused_or_walked path with ⟨e, hrefused⟩ | hwalked
  · exact .inl ((hrefused fs' purpose).1.trans (hrefused fs purpose).1.symm)
  · rw [(hwalked fs purpose).2] at hw
    rw [(hwalked fs purpose).1, (hwalked fs' purpose).1, h.workingDir]
    exact h.walk (h.wellFormed.isDirectory_start h.wellFormed.workingDir _) hw

/-- What a path leads to looks alike in both trees, unless it ends at a soft name. -/
theorem find (h : p.Alike fs fs') (hw : ∀ σ ∈ fs.lookups .examine path, ¬ p.apart σ)
    (hs : ∀ d n, p.soft (d, n) → fs.locate .examine path ≠ .ok (.entry d n false)) :
    ((∃ e, fs.find path = .error e) ∧ ∃ e, fs'.find path = .error e) ∨
      ∃ i i', fs.find path = .ok i ∧ fs'.find path = .ok i' ∧ p.Matches fs fs' i i' := by
  cases hl : fs.locate .examine path with
  | error e =>
    refine .inl ⟨⟨e, find_of_error hl⟩, ?_⟩
    obtain hsame | ⟨-, e', he'⟩ := h.locate hw
    · exact ⟨e, find_of_error (hsame.trans hl)⟩
    · exact ⟨e', find_of_error he'⟩
  | ok s =>
    have hl' : fs'.locate .examine path = .ok s := by
      obtain hsame | ⟨⟨e, he⟩, -⟩ := h.locate hw
      · exact hsame.trans hl
      · cases hl.symm.trans he
    cases s with
    | directory id =>
      obtain ⟨up, hup⟩ := isDirectory_iff.mp (h.wellFormed.locate_isDirectory hl)
      refine .inr ⟨id, id, find_of_directory hl, find_of_directory hl', .same rfl ?_⟩
      exact (h.directories id up hup).trans hup.symm
    | entry d n t =>
      rw [find_of_entry hl, find_of_entry hl']
      cases h.child (hw (d, n) (mem_lookups hl)) with
      | fault e hc hc' => exact .inl ⟨⟨e, by rw [hc]⟩, e, by rw [hc']⟩
      | free hc hc' => exact .inl ⟨⟨_, by rw [hc]⟩, _, by rw [hc']⟩
      | both i i' hc hc' hm =>
        rw [hc, hc']
        simp only [hm.isDirectory]
        split
        · exact .inl ⟨⟨_, rfl⟩, _, rfl⟩
        · exact .inr ⟨i, i', rfl, rfl, hm⟩
      | soft hsoft o o' hc hc' hf hf' =>
        cases t with
        | false => exact absurd hl (hs d n hsoft)
        | true =>
          rw [← find_of_entry hl, ← find_of_entry hl']
          exact .inl ⟨find_error_of_trailing hl hc hf, find_error_of_trailing hl' hc' hf'⟩

theorem place? (h : p.Alike fs fs') (hw : ∀ σ ∈ fs.lookups .remove path, ¬ p.apart σ) :
    fs'.place? path = fs.place? path := by
  obtain hsame | ⟨⟨e, he⟩, e', he'⟩ := h.locate hw
  · rw [FileSystem.place?, hsame, FileSystem.place?]
  · rw [FileSystem.place?, he', FileSystem.place?, he]

theorem vacant_iff (h : p.Alike fs fs') (σ : Slot) :
    (∀ i, fs'.lookup? σ.1 σ.2 = some i → fs'.isDirectory i = false) ↔
      ∀ i, fs.lookup? σ.1 σ.2 = some i → fs.isDirectory i = false := by
  cases h.slots σ with
  | free he he' => simp [he, he']
  | both i i' he he' hm => simp [he, he', hm.isDirectory]
  | apart ha hd hd' => exact ⟨fun _ => hd, fun _ => hd'⟩
  | soft hs hf hf' =>
    exact ⟨fun _ i hi => isDirectory_of_isFile (hf i hi),
      fun _ i hi => isDirectory_of_isFile (hf' i hi)⟩

theorem target? (h : p.Alike fs fs') (hw : ∀ σ ∈ fs.lookups .remove path, ¬ p.apart σ) :
    fs'.target? path = fs.target? path := by
  apply Option.ext
  intro σ
  rw [target?_eq_some_iff, target?_eq_some_iff, h.place? hw, h.vacant_iff σ]

section both

variable {q : Pairing} {c c' : Scene} {gs gs' : FileSystem}

/-- Copies are put under the same names in both trees, and text goes to the same files. -/
structure Together (p q : Pairing) (c c' : Scene) : Prop where
  ways : ∀ σ, c.ways σ ∧ c'.ways σ
  targets : ∀ σ, c'.targets σ → c.targets σ
  text : ∀ i, c.stream i ∨ c'.stream i ∨ p.stream i → q.stream i
  old : ∀ i, c.stream i → i < p.newFrom ∨ c.first.nodes.size ≤ i
  old' : ∀ i, c'.stream i → i < p.newFrom' ∨ c'.first.nodes.size ≤ i
  apart : ∀ σ, p.apart σ → q.apart σ ∨ c.targets σ
  soft : ∀ σ, p.soft σ → q.soft σ ∨ c.targets σ
  newFrom : q.newFrom ≤ p.newFrom
  newFrom' : q.newFrom' ≤ p.newFrom'

theorem matches_of_kept (ht : Together p q c c') (hm : p.Matches c.first c'.first i i')
    (hlt : i < c.first.nodes.size) (hlt' : i' < c'.first.nodes.size)
    (hk : c.KeepsNode gs i) (hk' : c'.KeepsNode gs' i') : q.Matches gs gs' i i' := by
  cases hm with
  | same he hn =>
    subst he
    cases hk with
    | inl hn₁ =>
      cases hk' with
      | inl hn₂ => exact .same rfl (hn₂.trans (hn.trans hn₁.symm))
      | inr hg =>
        refine .grown rfl (ht.text i' (.inr (.inl hg.1))) ?_ hg.2.2
        rw [isFile_congr hn₁, ← isFile_congr hn]
        exact hg.2.1
    | inr hg =>
      refine .grown rfl (ht.text i' (.inl hg.1)) hg.2.2 ?_
      cases hk' with
      | inl hn₂ =>
        rw [isFile_congr (hn₂.trans hn)]
        exact hg.2.1
      | inr hg' => exact hg'.2.2
  | grown he hs hf hf' =>
    subst he
    refine .grown rfl (ht.text i' (.inr (.inr hs))) ?_ ?_
    · exact hk.isFile hf
    · exact hk'.isFile hf'
  | copies x hle hle' hn hn' =>
    refine .copies x (Nat.le_trans ht.newFrom hle) (Nat.le_trans ht.newFrom' hle') ?_ ?_
    · exact (hk.node?_eq_of_new (ht.old i) hle hlt).trans hn
    · exact (hk'.node?_eq_of_new (ht.old' i') hle' hlt').trans hn'

theorem step (h : p.Alike c.first c'.first) (ht : Together p q c c') (hc : c.Holds gs)
    (hc' : c'.Holds gs') (htouched : ∀ σ, c.targets σ → q.Agrees gs gs' σ)
    (hdirs : ∀ id up, gs.node? id = some (.directory up) →
      c.first.node? id = some (.directory up)) : q.Alike gs gs' where
  wellFormed := hc.wellFormed
  wellFormed' := hc'.wellFormed
  workingDir := by rw [hc'.workingDir, h.workingDir, hc.workingDir]
  size := Nat.le_trans ht.newFrom (Nat.le_trans h.size hc.size)
  size' := Nat.le_trans ht.newFrom' (Nat.le_trans h.size' hc'.size)
  directories id up hid := hc'.directories id up (h.directories id up (hdirs id up hid))
  slots σ := by
    by_cases hσ : c.targets σ
    · exact htouched σ hσ
    have hkept : c.KeepsSlot gs σ := by
      cases hc.slots σ (ht.ways σ).1 with
      | inl hk => exact hk
      | inr hr => exact absurd hr.1 hσ
    have hkept' : c'.KeepsSlot gs' σ := by
      cases hc'.slots σ (ht.ways σ).2 with
      | inl hk => exact hk
      | inr hr => exact absurd (ht.targets σ hr.1) hσ
    cases h.slots σ with
    | free he he' => exact .free (hkept.entry.trans he) (hkept'.entry.trans he')
    | both i i' he he' hm =>
      refine .both i i' (hkept.entry.trans he) (hkept'.entry.trans he') ?_
      exact matches_of_kept ht hm (h.wellFormed.lt_size he) (h.wellFormed'.lt_size he')
        (hkept.node i he) (hkept'.node i' he')
    | apart ha hd hd' =>
      exact .apart ((ht.apart σ ha).resolve_right hσ) (hkept.vacant hd) (hkept'.vacant hd')
    | soft hs hf hf' =>
      refine .soft ((ht.soft σ hs).resolve_right hσ) (fun i hi => ?_) fun i hi => ?_
      · have he := hkept.entry.symm.trans hi
        exact (hkept.node i he).isFile (hf i he)
      · have he := hkept'.entry.symm.trans hi
        exact (hkept'.node i he).isFile (hf' i he)

end both

theorem mono {q : Pairing} (h : p.Alike fs fs') (ha : ∀ σ, p.apart σ → q.apart σ)
    (hs : ∀ σ, p.soft σ → q.soft σ) (ht : ∀ i, p.stream i → q.stream i)
    (hn : q.newFrom ≤ p.newFrom) (hn' : q.newFrom' ≤ p.newFrom') : q.Alike fs fs' := by
  have htogether : Together p q (.around fs none fun _ => False)
      (.around fs' none fun _ => False) :=
    { ways := fun _ => ⟨trivial, trivial⟩
      targets := fun _ hσ => hσ
      text := fun i hi => by
        obtain hi | hi | hi := hi
        · exact hi.elim
        · exact hi.elim
        · exact ht i hi
      old := fun _ hi => hi.elim
      old' := fun _ hi => hi.elim
      apart := fun σ hσ => .inl (ha σ hσ)
      soft := fun σ hσ => .inl (hs σ hσ)
      newFrom := hn
      newFrom' := hn' }
  exact step h htogether (Scene.holds_first h.wellFormed) (Scene.holds_first h.wellFormed')
    (fun σ hσ => nomatch hσ) fun _ _ hid => hid

theorem refl (h : fs.WellFormed) (hn : p.newFrom ≤ fs.nodes.size)
    (hn' : p.newFrom' ≤ fs.nodes.size) : p.Alike fs fs where
  wellFormed := h
  wellFormed' := h
  workingDir := rfl
  size := hn
  size' := hn'
  directories _ _ := id
  slots σ := by
    cases he : fs.lookup? σ.1 σ.2 with
    | none => exact .free he he
    | some i => exact .both i i he he (.same rfl rfl)

theorem lookups_cleared (h : fs.WellFormed) (dest : String) :
    (fs.cleared dest).lookups purpose path ⊆ fs.lookups purpose path := by
  have hc : (Scene.around fs (fs.target? dest) fun _ => False).Holds (fs.cleared dest) :=
    Scene.holds_cleared h dest
  exact (hc.locate fun _ _ => trivial).lookups

theorem together_around (fs fs' : FileSystem) {σ? : Option Slot} (ho : p.Old) :
    Together p { p with apart := fun σ => p.apart σ ∧ σ? ≠ some σ }
      (.around fs σ? p.stream) (.around fs' σ? p.stream) where
  ways _ := ⟨trivial, trivial⟩
  targets _ hσ := hσ
  text i hi := by
    obtain hi | hi | hi := hi
    · exact hi
    · exact hi
    · exact hi
  old i hi := .inl (ho i hi).1
  old' i hi := .inl (ho i hi).2
  apart σ hσ := by
    by_cases he : σ? = some σ
    · exact .inr he
    · exact .inl ⟨hσ, he⟩
  soft _ hσ := .inl hσ
  newFrom := Nat.le_refl _
  newFrom' := Nat.le_refl _

variable {dest source : String} {gs gs' : FileSystem} {x? : Option ByteArray}

theorem cleared (h : p.Alike fs fs') (ho : p.Old)
    (hw : ∀ σ ∈ fs.lookups .remove dest, ¬ p.apart σ) :
    p.Alike (fs.cleared dest) (fs'.cleared dest) := by
  have ht := h.target? hw
  have hc : (Scene.around fs (fs.target? dest) p.stream).Holds (fs.cleared dest) :=
    Scene.holds_cleared h.wellFormed dest
  have hc' : (Scene.around fs' (fs.target? dest) p.stream).Holds (fs'.cleared dest) := by
    rw [← ht]
    exact Scene.holds_cleared h.wellFormed' dest
  have hstep := step h (together_around fs fs' ho) hc hc'
    (fun σ hσ => .free (lookup?_cleared hσ) (lookup?_cleared (ht.trans hσ)))
    fun id up hid => by rwa [node?_cleared] at hid
  exact hstep.mono (fun _ => And.left) (fun _ => id) (fun _ => id) (Nat.le_refl _) (Nat.le_refl _)

theorem bytes? (h : p.Alike fs fs') (hw : ∀ σ ∈ fs.lookups .examine path, ¬ p.apart σ)
    (hs : ∀ d n, p.soft (d, n) → fs.locate .examine path ≠ .ok (.entry d n false))
    (ht : ∀ i, fs.find path = .ok i → ¬ p.stream i) : fs'.bytes? path = fs.bytes? path := by
  obtain ⟨⟨e, he⟩, e', he'⟩ | ⟨i, i', hf, hf', hm⟩ := h.find hw hs
  · rw [FileSystem.bytes?, he', FileSystem.bytes?, he]
  · rw [FileSystem.bytes?, hf', FileSystem.bytes?, hf]
    cases hm with
    | same he hn =>
      subst he
      simp only [content?, hn]
    | grown he hstream => exact absurd hstream (ht i hf)
    | copies x hle hle' hn hn' => simp only [content?, hn, hn']

theorem steady (h : p.Alike fs fs') (ho : p.Old)
    (hw : ∀ σ ∈ fs.lookups .examine path, ¬ p.apart σ)
    (hs : ∀ d n, p.soft (d, n) → fs.locate .examine path ≠ .ok (.entry d n false))
    (ht : Steady p.stream fs path) : Steady p.stream fs' path := by
  intro id hid
  obtain ⟨-, e', he'⟩ | ⟨i, i', hf, hf', hm⟩ := h.find hw hs
  · cases hid.symm.trans he'
  · cases hid.symm.trans hf'
    obtain ⟨hfile, hstream⟩ := ht i hf
    cases hm with
    | same he hn =>
      subst he
      exact ⟨by rwa [isFile_congr hn], hstream⟩
    | grown he hgrown => exact absurd hgrown hstream
    | copies x hle hle' hn hn' =>
      exact ⟨isFile_iff.mpr ⟨x, hn'⟩, fun hi => absurd (ho _ hi).2 (Nat.not_lt.mpr hle')⟩

theorem delivery? (h : p.Alike fs fs') (ho : p.Old)
    (hdest : ∀ σ ∈ fs.lookups .remove dest, ¬ p.apart σ)
    (hw : ∀ σ ∈ fs.lookups .examine source, ¬ p.apart σ)
    (hs : ∀ d n, p.soft (d, n) → (fs.cleared dest).locate .examine source ≠ .ok (.entry d n false))
    (ht : Steady p.stream (fs.cleared dest) source) :
    fs'.delivery? source dest = fs.delivery? source dest := by
  have hcleared := h.cleared ho hdest
  have hways : ∀ σ ∈ (fs.cleared dest).lookups .remove dest, ¬ p.apart σ := fun σ hσ =>
    hdest σ (lookups_cleared h.wellFormed dest hσ)
  have htarget := hcleared.target? hways
  have hbytes := hcleared.bytes? (fun σ hσ => hw σ (lookups_cleared h.wellFormed dest hσ)) hs
    fun i hi => (ht i hi).2
  rw [FileSystem.delivery?, htarget, hbytes, FileSystem.delivery?]

/-- When the same has been delivered in both trees, they look alike there as well. -/
theorem delivered (h : p.Alike fs fs') (ho : p.Old)
    (hdest : ∀ σ ∈ fs.lookups .remove dest, ¬ p.apart σ)
    (hd : Scene.Delivers p.stream dest x? fs gs) (hd' : Scene.Delivers p.stream dest x? fs' gs')
    (hdirs : ∀ id up, gs.node? id = some (.directory up) → fs.node? id = some (.directory up)) :
    { p with apart := fun σ => p.apart σ ∧ fs.target? dest ≠ some σ }.Alike gs gs' := by
  have ht := h.target? hdest
  have hc' := hd'.holds
  rw [ht] at hc'
  refine step h (together_around fs fs' ho) hd.holds hc' (fun σ hσ => ?_) hdirs
  have hσ' := ht.trans hσ
  cases x? with
  | none => exact .free (hd.nothing rfl σ hσ) (hd'.nothing rfl σ hσ')
  | some x =>
    obtain ⟨i, hi, hle, hn⟩ := hd.copy x rfl σ hσ
    obtain ⟨i', hi', hle', hn'⟩ := hd'.copy x rfl σ hσ'
    exact .both i i' hi hi'
      (.copies x (Nat.le_trans h.size hle) (Nat.le_trans h.size' hle') hn hn')

end Alike

end Pairing

end StorageTrials

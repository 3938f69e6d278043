import StorageTrials.Proofs.FileSystem.Places

namespace StorageTrials.FileSystem

open Scene

variable {fs fs' fs₁ : FileSystem} {path other : String} {σ : Slot} {id i dir : NodeId}
variable {purpose : Purpose} {name text : String} {t : Bool} {s : Spot} {x : ByteArray}
variable {links : Nat} {steps : List Path.Step}

def Taken (fs : FileSystem) (σ : Slot) : Prop := fs.lookup? σ.1 σ.2 ≠ none

/-- Names that are taken stand for what they stood for, but perhaps the content of one file is
another; names that are not are free or stand for new files. -/
structure Extends (fs fs' : FileSystem) (id : NodeId) : Prop where
  holds : (still fs fs.Taken (· = id)).Holds fs'
  fresh : ∀ σ : Slot, fs.lookup? σ.1 σ.2 = none → ∀ i, fs'.lookup? σ.1 σ.2 = some i → fs'.isFile i

theorem inspect_eq_directory_iff :
    fs.inspect path = .ok .directory ↔ ∃ i, fs.find path = .ok i ∧ fs.isDirectory i = true := by
  simp only [isDirectory_iff]
  constructor
  · intro hi
    obtain ⟨i, hf, hfound⟩ := find_of_inspect hi
    refine ⟨i, hf, ?_⟩
    cases hn : fs.node? i with
    | none =>
      rw [hn] at hfound
      cases hfound
    | some n =>
      rw [hn] at hfound
      cases n with
      | directory up => exact ⟨up, rfl⟩
      | _ => cases hfound
  · rintro ⟨i, hf, up, hup⟩
    rw [inspect_of_find hf, hup]
    rfl

namespace Extends

theorem refl (h : fs.WellFormed) (id : NodeId) : fs.Extends fs id :=
  ⟨holds_first h, fun σ hσ i hi => by cases hσ.symm.trans hi⟩

theorem keepsSlot (h : fs.Extends fs' id) (hσ : fs.Taken σ) :
    (still fs fs.Taken (· = id)).KeepsSlot fs' σ := by
  rcases h.holds.slots σ hσ with hk | ⟨ht, -⟩
  · exact hk
  · exact ht.elim

theorem lookup? (h : fs.Extends fs' id) (he : fs.lookup? σ.1 σ.2 = some i) :
    fs'.lookup? σ.1 σ.2 = some i :=
  (h.keepsSlot (by simp [Taken, he])).entry.trans he

theorem node? (h : fs.Extends fs' id) (he : fs.lookup? σ.1 σ.2 = some i) (hi : i ≠ id) :
    fs'.node? i = fs.node? i := by
  rcases (h.keepsSlot (by simp [Taken, he])).node i he with hn | ⟨hs, -⟩
  · exact hn
  · exact absurd hs hi

theorem append (h : fs.Extends fs' id) (x : ByteArray) : fs.Extends (fs'.append id x).1 id := by
  refine ⟨h.holds.append rfl, fun σ hσ i hi => ?_⟩
  rcases append_eq fs' id x with ⟨y, hy, he⟩ | he
  · rw [he] at hi ⊢
    by_cases hne : i = id
    · rw [hne]
      exact isFile_iff.mpr ⟨_, node?_set_self (lt_size_of_node? hy)⟩
    · rw [isFile_congr (node?_set_of_ne hne)]
      exact h.fresh σ hσ i hi
  · rw [he] at hi ⊢
    exact h.fresh σ hσ i hi

theorem linkAt (h : fs.Extends fs' id) {p : Option (NodeId × String)}
    (hl : fs.linkAt purpose s = .ok p) : fs'.linkAt purpose s = .ok p := by
  cases s with
  | directory d => exact hl
  | entry d n t =>
    by_cases hσ : fs.lookup? d n = none
    · cases hf : purpose.follows t with
      | false =>
        rw [linkAt_of_not_follows hf] at hl ⊢
        exact hl
      | true =>
        rw [linkAt_of_follows hf] at hl ⊢
        cases hchild : fs.child d n with
        | error e =>
          rw [hchild] at hl
          cases hl
        | ok y =>
          obtain ⟨hname, he⟩ := child_eq_ok_iff.mp hchild
          rw [hchild, ← he, hσ] at hl
          rw [child_eq_ok_iff.mpr ⟨hname, rfl⟩]
          cases hnew : fs'.lookup? d n with
          | none => exact hl
          | some i =>
            obtain ⟨z, hz⟩ := isFile_iff.mp (h.fresh (d, n) hσ i hnew)
            simpa only [hz] using hl
    · have hk : (still fs fs.Taken (· = id)).KeepsSlot fs' (d, n) := h.keepsSlot hσ
      exact hk.linkAt.trans hl

theorem advance (h : fs.Extends fs' id) (hd : fs.isDirectory dir)
    (ha : (fs.advance t dir steps).dir? ≠ none) :
    fs'.advance t dir steps = fs.advance t dir steps := by
  have hw : ∀ σ ∈ fs.advanceLookups dir steps, fs.Taken σ :=
    fun σ hσ => lookup?_of_mem_advanceLookups ha hσ
  rcases h.holds.advance hd t hw with ⟨he, -⟩ | ⟨-, -, σ, -, ht, -⟩
  · exact he
  · exact ht.elim

theorem walk (h : fs.Extends fs' id) (hd : fs.isDirectory dir)
    (hw : fs.walk purpose links t dir steps = .ok s) :
    fs'.walk purpose links t dir steps = .ok s := by
  induction links, t, dir, steps using walk.induct fs purpose with
  | case1 links t dir steps e ha | case2 t dir steps d target rest ha
  | case4 links t dir steps s' ha e hl =>
    rw [FileSystem.walk, ha] at hw
    simp [*] at hw
  | case3 t dir steps d target rest ha r links ih =>
    rw [FileSystem.walk, ha] at hw
    rw [FileSystem.walk, h.advance hd (by simp [ha, Advance.dir?]), ha]
    exact ih (h.holds.first.isDirectory_start
      (h.holds.first.advance_isDirectory hd (congrArg Advance.dir? ha)) r) hw
  | case5 links t dir steps s' ha hl =>
    rw [FileSystem.walk, ha] at hw
    rw [FileSystem.walk, h.advance hd (by simp [ha, Advance.dir?]), ha]
    simp only [hl] at hw
    simp only [h.linkAt hl]
    exact hw
  | case6 t dir steps s' ha d target hl =>
    rw [FileSystem.walk, ha] at hw
    simp [hl] at hw
  | case7 t dir steps s' ha d target hl r links ih =>
    rw [FileSystem.walk, ha] at hw
    rw [FileSystem.walk, h.advance hd (by simp [ha, Advance.dir?]), ha]
    simp only [hl] at hw
    simp only [h.linkAt hl]
    have hd' := h.holds.first.advance_isDirectory hd (congrArg Advance.dir? ha)
    exact ih (h.holds.first.isDirectory_start (dir_of_linkAt hl ▸ hd') _) hw

theorem locate (h : fs.Extends fs' id) (hl : fs.locate purpose path = .ok s) :
    fs'.locate purpose path = .ok s := by
  rcases refused_or_walked path with ⟨e, hrefused⟩ | hwalked
  · cases hl.symm.trans (hrefused fs purpose).1
  · rw [(hwalked fs purpose).1] at hl
    rw [(hwalked fs' purpose).1, show fs'.workingDir = fs.workingDir from h.holds.workingDir]
    exact h.walk (h.holds.first.isDirectory_start h.holds.first.workingDir _) hl

theorem place? (h : fs.Extends fs' id) (hp : fs.place? path = some σ) :
    fs'.place? path = some σ :=
  let ⟨hl, hn⟩ := place?_eq_some_iff.mp hp
  place?_eq_some_iff.mpr ⟨h.locate hl, hn⟩

theorem standing? (h : fs.Extends fs' id) (hs : fs.standing? path = some i) :
    fs'.standing? path = some i ∧ (i ≠ id → fs'.node? i = fs.node? i) := by
  obtain ⟨σ, hp, he⟩ := standing?_eq_some_iff.mp hs
  exact ⟨standing?_eq_some_iff.mpr ⟨σ, h.place? hp, h.lookup? he⟩, h.node? he⟩

theorem find (h : fs.Extends fs' id) (hf : fs.find path = .ok i) :
    fs'.find path = .ok i ∧ (still fs fs.Taken (· = id)).KeepsNode fs' i :=
  h.holds.find (fun _ hσ => lookup?_ne_none_of_find hf hσ) (fun _ _ ht => ht) hf

theorem inspect_directory (h : fs.Extends fs' id) (hi : fs.inspect path = .ok .directory) :
    fs'.inspect path = .ok .directory := by
  obtain ⟨i, hf, hd⟩ := inspect_eq_directory_iff.mp hi
  obtain ⟨hf', hk⟩ := h.find hf
  exact inspect_eq_directory_iff.mpr ⟨i, hf', hk.isDirectory.trans hd⟩

end Extends

/-- A file that is opened is a new one, or it stands at the end of the way. -/
theorem create_cases (hok : fs.create path = .ok (fs', id)) :
    ∃ d n, fs.locate .create path = .ok (.entry d n false) ∧
      (fs.child d n = .ok none ∧ (fs', id) = fs.add d n (.file .empty) ∨
        fs.child d n = .ok (some id) ∧
          (fs.isFile id = true ∧ fs' = fs.set id (.file .empty) ∨
            fs.isFile id = false ∧ fs' = fs)) := by
  cases hl : fs.locate .create path with
  | error e =>
    rw [create, hl] at hok
    cases hok
  | ok s =>
    cases s with
    | directory d =>
      rw [create, hl] at hok
      cases hok
    | entry d n t =>
      rw [create_of_entry hl] at hok
      cases t with
      | true => cases hok
      | false =>
        refine ⟨d, n, rfl, ?_⟩
        simp only [Bool.false_eq_true, if_false] at hok
        split at hok
        · cases hok
        · rename_i hc
          exact .inl ⟨hc, (Except.ok.inj hok).symm⟩
        · rename_i i hc
          split at hok
          · cases hok
          · rename_i y hy
            cases hok
            exact .inr ⟨hc, .inl ⟨isFile_iff.mpr ⟨y, hy⟩, rfl⟩⟩
          · rename_i hnf
            cases hok
            refine .inr ⟨hc, .inr ⟨Bool.eq_false_iff.mpr fun hf => ?_, rfl⟩⟩
            obtain ⟨y, hy⟩ := isFile_iff.mp hf
            exact hnf y hy

theorem extends_add (h : fs.WellFormed) (hfree : fs.lookup? dir name = none) (id : NodeId) :
    fs.Extends (fs.add dir name (.file x)).1 id := by
  have hadd : (Scene.mk fs (fun _ => True) (· = (dir, name)) (· = id)).Holds
      (fs.add dir name (.file x)).1 :=
    (holds_first (c := Scene.mk fs (fun _ => True) (· = (dir, name)) (· = id)) h).add rfl hfree
  refine ⟨{ hadd with slots := fun σ hσ => ?_ }, fun σ hσ i hi => ?_⟩
  · rcases hadd.slots σ trivial with hk | ⟨rfl, -⟩
    · exact .inl ⟨hk.entry, hk.node⟩
    · exact absurd hfree hσ
  · rcases hadd.slots σ trivial with hk | ⟨rfl, hr⟩
    · cases (hk.entry.symm.trans hi).symm.trans hσ
    · exact (hr i hi).2

theorem extends_set (h : fs.WellFormed) (hf : fs.isFile id = true) (x : ByteArray) :
    fs.Extends (fs.set id (.file x)) id := by
  refine ⟨(holds_first (c := still fs fs.Taken (· = id)) h).set rfl hf, fun σ hσ i hi => ?_⟩
  cases hσ.symm.trans hi

theorem extends_create (h : fs.WellFormed) (hok : fs.create path = .ok (fs', id)) :
    fs.Extends fs' id := by
  obtain ⟨d, n, -, ⟨hc, hadd⟩ | ⟨hc, ⟨hf, rfl⟩ | ⟨-, rfl⟩⟩⟩ := create_cases hok
  · have hfree := (child_eq_ok_iff.mp hc).2
    rw [(Prod.mk.inj hadd).1]
    exact extends_add h hfree id
  · exact extends_set h hf .empty
  · exact .refl h id

theorem content?_create (hok : fs.create path = .ok (fs', id)) (hf : fs'.isFile id) :
    fs'.content? id = some .empty := by
  obtain ⟨d, n, -, ⟨hc, hadd⟩ | ⟨hc, ⟨hf', rfl⟩ | ⟨hnf, rfl⟩⟩⟩ := create_cases hok
  · obtain ⟨rfl, rfl⟩ := Prod.mk.inj hadd
    exact content?_eq_some_iff.mpr node?_add_self
  · obtain ⟨y, hy⟩ := isFile_iff.mp hf'
    exact content?_eq_some_iff.mpr (node?_set_self (lt_size_of_node? hy))
  · rw [hnf] at hf
    cases hf

theorem saveText_cases (h : fs.WellFormed) (path text : String) :
    (fs.saveText path text).1 = fs ∨
      ∃ fs₁ id, fs.create path = .ok (fs₁, id) ∧ fs.Extends (fs.saveText path text).1 id := by
  unfold saveText
  split
  · exact .inl rfl
  · rename_i fs₁ id hok
    have hext := extends_create h hok
    refine .inr ⟨fs₁, id, hok, ?_⟩
    split
    · exact hext
    · exact hext.append _

theorem walk_examine_of_create {d : NodeId} {n : String}
    (hw : fs.walk .create links t dir steps = .ok (.entry d n false)) :
    fs.walk .examine links t dir steps = .ok (.entry d n false) := by
  induction links, t, dir, steps using walk.induct fs .create with
  | case1 links t dir steps e ha | case2 t dir steps d target rest ha
  | case4 links t dir steps s ha e hl | case6 t dir steps s ha d target hl =>
    rw [walk, ha] at hw
    simp [*] at hw
  | case3 t dir steps d target rest ha r links ih =>
    rw [walk, ha] at hw ⊢
    exact ih hw
  | case5 links t dir steps s ha hl =>
    rw [walk, ha] at hw ⊢
    simp only [hl, Except.ok.injEq] at hw
    subst hw
    have hl' : fs.linkAt .examine (.entry d n false) = .ok none := hl
    simp only [hl']
  | case7 t dir steps s ha d' target hl r links ih =>
    rw [walk, ha] at hw ⊢
    simp only [hl] at hw
    have hl' : fs.linkAt .examine s = .ok (some (d', target)) := by
      cases s with
      | directory i => cases hl
      | entry i m t =>
        cases t with
        | false => exact hl
        | true => cases hl
    simp only [hl']
    exact ih hw

theorem locate_examine_of_create {d : NodeId} {n : String}
    (hl : fs.locate .create path = .ok (.entry d n false)) :
    fs.locate .examine path = .ok (.entry d n false) := by
  rcases refused_or_walked path with ⟨e, hrefused⟩ | hwalked
  · cases hl.symm.trans (hrefused fs .create).1
  · rw [(hwalked fs .create).1] at hl
    rw [(hwalked fs .examine).1]
    exact walk_examine_of_create hl

theorem find_create (h : fs.WellFormed) (hok : fs.create path = .ok (fs', id)) :
    fs'.find path = .ok id := by
  have hext := extends_create h hok
  obtain ⟨d, n, hl, hcases⟩ := create_cases hok
  have hl' := hext.locate (locate_examine_of_create hl)
  have hc : fs'.child d n = .ok (some id) := by
    rcases hcases with ⟨hc, hadd⟩ | ⟨hc, -⟩
    · obtain ⟨hname, hfree⟩ := child_eq_ok_iff.mp hc
      obtain ⟨rfl, rfl⟩ := Prod.mk.inj hadd
      exact child_eq_ok_iff.mpr ⟨hname, lookup?_add_self hfree⟩
    · obtain ⟨hname, he⟩ := child_eq_ok_iff.mp hc
      exact child_eq_ok_iff.mpr ⟨hname, hext.lookup? (σ := (d, n)) he⟩
  rw [find_of_entry hl', hc]
  rfl

end StorageTrials.FileSystem

import StorageTrials.Proofs.FileSystem.Scene

namespace StorageTrials.FileSystem

/-- The name at which a path ends, if a file can stand there. -/
def place? (fs : FileSystem) (path : String) : Option Slot :=
  match fs.locate .remove path with
  | .ok (.entry dir name false) =>
    if name.utf8ByteSize ≤ maxNameBytes then some (dir, name) else none
  | _ => none

def standing? (fs : FileSystem) (path : String) : Option NodeId :=
  (fs.place? path).bind fun σ => fs.lookup? σ.1 σ.2

def bytes? (fs : FileSystem) (path : String) : Option ByteArray :=
  match fs.find path with
  | .ok id => fs.content? id
  | .error _ => none

variable {fs fs' : FileSystem} {path : String} {σ : Slot} {id : NodeId} {dir : NodeId}
variable {name : String} {t : Bool} {s : Spot} {e : SystemError} {x : ByteArray}

theorem place?_eq_some_iff :
    fs.place? path = some σ ↔
      fs.locate .remove path = .ok (.entry σ.1 σ.2 false) ∧ σ.2.utf8ByteSize ≤ maxNameBytes := by
  unfold place?
  split
  · rename_i dir name hl
    split
    · simp only [hl, Option.some.injEq, Except.ok.injEq, Spot.entry.injEq]
      constructor
      · rintro rfl
        exact ⟨⟨rfl, rfl, trivial⟩, ‹_›⟩
      · rintro ⟨⟨rfl, rfl, -⟩, -⟩
        rfl
    · simp only [hl, Except.ok.injEq, Spot.entry.injEq, reduceCtorEq, false_iff]
      rintro ⟨⟨rfl, rfl, -⟩, hn⟩
      contradiction
  · rename_i hne
    simp only [reduceCtorEq, false_iff]
    rintro ⟨hl, -⟩
    exact hne _ _ hl

theorem standing?_eq_some_iff :
    fs.standing? path = some id ↔
      ∃ σ, fs.place? path = some σ ∧ fs.lookup? σ.1 σ.2 = some id := Option.bind_eq_some_iff

theorem locate_eq_of_remove {purpose : Purpose}
    (hl : ∀ s, fs.locate .remove path = .ok s → ∀ p, fs.linkAt purpose s ≠ .ok (some p)) :
    fs.locate purpose path = (do
      let s ← fs.locate .remove path
      let _ ← fs.linkAt purpose s
      return s) := by
  rcases refused_or_walked path with ⟨e, hrefused⟩ | hwalked
  · rw [(hrefused fs purpose).1, (hrefused fs .remove).1]
    rfl
  · rw [(hwalked fs purpose).1, (hwalked fs .remove).1]
    exact walk_eq_of_remove fun s hs => hl s ((hwalked fs .remove).1.trans hs)

theorem locate_of_error {purpose : Purpose} (h : fs.locate .remove path = .error e) :
    fs.locate purpose path = .error e := by
  rw [locate_eq_of_remove (by simp [h]), h]
  rfl

theorem locate_of_ok {purpose : Purpose} (h : fs.locate .remove path = .ok s)
    (hs : fs.linkAt purpose s = .ok none) : fs.locate purpose path = .ok s := by
  rw [locate_eq_of_remove (by simp [h, hs]), h]
  change (fs.linkAt purpose s >>= fun _ => .ok s) = _
  rw [hs]
  rfl

theorem locate_of_linkAt_error {purpose : Purpose} (h : fs.locate .remove path = .ok s)
    (hs : fs.linkAt purpose s = .error e) : fs.locate purpose path = .error e := by
  rw [locate_eq_of_remove (by simp [h, hs]), h]
  change (fs.linkAt purpose s >>= fun _ => .ok s) = _
  rw [hs]
  rfl

theorem locate_trailing {purpose : Purpose} {d : NodeId} {n : String}
    (hr : fs.locate .remove path = .ok (.entry dir name true))
    (h : fs.locate purpose path = .ok (.entry d n t)) : t = true :=
  walk_trailing (locate_eq_walk h).1 (walk_remove_trailing (locate_eq_walk hr).1).symm

theorem WellFormed.locate_isDirectory {purpose : Purpose} (h : fs.WellFormed)
    (hl : fs.locate purpose path = .ok s) : fs.isDirectory s.dir :=
  h.walk_isDirectory (h.isDirectory_start h.workingDir _) (locate_eq_walk hl).1

/-- Where a path ends: at a directory or behind a slash, nowhere, or at a name. -/
theorem locate_cases (h : fs.WellFormed) (path : String) :
    (∃ e, fs.locate .remove path = .error e) ∨
      (∃ id, fs.locate .remove path = .ok (.directory id) ∧ fs.isDirectory id) ∨
      (∃ dir name, fs.locate .remove path = .ok (.entry dir name true)) ∨
      (∃ dir name, fs.locate .remove path = .ok (.entry dir name false) ∧
        fs.child dir name = .error .nameTooLong) ∨
      ∃ σ, fs.place? path = some σ ∧ fs.locate .remove path = .ok (.entry σ.1 σ.2 false) ∧
        fs.child σ.1 σ.2 = .ok (fs.lookup? σ.1 σ.2) := by
  cases hl : fs.locate .remove path with
  | error e => exact .inl ⟨e, rfl⟩
  | ok s =>
    cases s with
    | directory id => exact .inr (.inl ⟨id, rfl, h.locate_isDirectory hl⟩)
    | entry dir name t =>
      cases t with
      | true => exact .inr (.inr (.inl ⟨dir, name, rfl⟩))
      | false =>
        by_cases hn : name.utf8ByteSize ≤ maxNameBytes
        · refine .inr (.inr (.inr (.inr ⟨(dir, name), ?_, rfl, ?_⟩)))
          · exact place?_eq_some_iff.mpr ⟨hl, hn⟩
          · rw [child, if_neg (Nat.not_lt.mpr hn)]
        · refine .inr (.inr (.inr (.inl ⟨dir, name, rfl, ?_⟩)))
          rw [child, if_pos (Nat.lt_of_not_le hn)]

theorem find_of_error (h : fs.locate .examine path = .error e) : fs.find path = .error e := by
  rw [find, h]
  rfl

theorem find_of_directory (h : fs.locate .examine path = .ok (.directory id)) :
    fs.find path = .ok id := by
  rw [find, h]
  rfl

theorem find_of_entry (h : fs.locate .examine path = .ok (.entry dir name t)) :
    fs.find path =
      match fs.child dir name with
      | .error e => .error e
      | .ok none => .error .noEntry
      | .ok (some id) => if t && !fs.isDirectory id then .error .notDirectory else .ok id := by
  rw [find, h]
  change (fs.child dir name >>= _) = _
  cases fs.child dir name with
  | error e => rfl
  | ok x => cases x <;> rfl

def finding : Option Node → Finding
  | some (.file content) => .file content.size
  | some (.directory _) => .directory
  | _ => .other

theorem inspect_of_find (hf : fs.find path = .ok id) :
    fs.inspect path = .ok (finding (fs.node? id)) := by
  simp only [inspect, hf, bind, Except.bind]
  cases fs.node? id with
  | none => rfl
  | some n => cases n <;> rfl

theorem find_of_inspect {found : Finding} (hi : fs.inspect path = .ok found) :
    ∃ id, fs.find path = .ok id ∧ finding (fs.node? id) = found := by
  cases hf : fs.find path with
  | error e =>
    rw [inspect, hf] at hi
    cases hi
  | ok id =>
    rw [inspect_of_find hf] at hi
    exact ⟨id, rfl, Except.ok.inj hi⟩

theorem locate_of_find (hf : fs.find path = .ok id) :
    fs.locate .examine path = .ok (.directory id) ∨
      ∃ d n t, fs.locate .examine path = .ok (.entry d n t) ∧ fs.child d n = .ok (some id) ∧
        (t = true → fs.isDirectory id = true) := by
  cases hl : fs.locate .examine path with
  | error e => cases (find_of_error hl).symm.trans hf
  | ok s =>
    cases s with
    | directory id' =>
      cases (find_of_directory hl).symm.trans hf
      exact .inl rfl
    | entry d n t =>
      rw [find_of_entry hl] at hf
      split at hf
      · cases hf
      · cases hf
      · rename_i hc
        split at hf
        · cases hf
        · rename_i hd
          cases hf
          exact .inr ⟨d, n, t, rfl, hc, by simpa using hd⟩

theorem lookup?_of_find (h : fs.locate .examine path = .ok (.entry dir name t))
    (hf : fs.find path = .ok id) :
    fs.child dir name = .ok (some id) ∧ fs.lookup? dir name = some id := by
  rcases locate_of_find hf with hl | ⟨d, n, t', hl, hc, -⟩
  · cases h.symm.trans hl
  · cases h.symm.trans hl
    exact ⟨hc, (child_eq_ok_iff.mp hc).2⟩

theorem lookup?_ne_none_of_find (hf : fs.find path = .ok id) (hσ : σ ∈ fs.lookups .examine path) :
    fs.lookup? σ.1 σ.2 ≠ none := by
  rcases locate_of_find hf with hl | ⟨d, n, t, hl, hc, -⟩
  · rcases lookup?_of_mem_lookups hl hσ with hne | ⟨-, t, he⟩
    · exact hne
    · cases he
  · rcases lookup?_of_mem_lookups hl hσ with hne | ⟨-, t', he⟩
    · exact hne
    · cases he
      simp [(child_eq_ok_iff.mp hc).2]

theorem linkAt_of_standing {purpose : Purpose}
    (hc : fs.child dir name = .ok (fs.lookup? dir name))
    (hl : ∀ id, fs.lookup? dir name = some id → ∀ target, fs.node? id ≠ some (.link target)) :
    fs.linkAt purpose (.entry dir name t) = .ok none := by
  cases hf : purpose.follows t with
  | false => exact linkAt_of_not_follows hf
  | true =>
    rw [linkAt_of_follows hf, hc]
    cases he : fs.lookup? dir name with
    | none => rfl
    | some id =>
      simp only
      split
      · rename_i target ht
        exact absurd ht (hl id he target)
      · rfl

/-- Behind a slash there is nothing but a directory. -/
theorem isDirectory_of_trailing (h : fs.WellFormed)
    (hl : fs.locate .remove path = .ok (.entry dir name true)) (hf : fs.find path = .ok id) :
    fs.isDirectory id = true := by
  rcases locate_of_find hf with hx | ⟨d, n, t, hx, -, hdir⟩
  · exact h.locate_isDirectory hx
  · exact hdir (locate_trailing hl hx)

theorem find_cases (h : fs.WellFormed) (hf : fs.find path = .ok id) :
    fs.isDirectory id = true ∨ fs.standing? path = some id ∨
      ∃ id' target, fs.standing? path = some id' ∧ fs.node? id' = some (.link target) := by
  rcases locate_cases h path with ⟨e, hl⟩ | ⟨id', hl, hd⟩ | ⟨dir, name, hl⟩ | ⟨dir, name, hl, hc⟩ |
    ⟨σ, hp, hl, hc⟩
  · rw [find_of_error (locate_of_error hl)] at hf
    cases hf
  · rw [find_of_directory (locate_of_ok hl rfl)] at hf
    cases hf
    exact .inl hd
  · exact .inl (isDirectory_of_trailing h hl hf)
  · have hs : fs.linkAt .examine (.entry dir name false) = .error .nameTooLong := by
      rw [linkAt_of_follows rfl, hc]
    rw [find_of_error (locate_of_linkAt_error hl hs)] at hf
    cases hf
  · by_cases hlink : ∃ id' target, fs.standing? path = some id' ∧ fs.node? id' = some (.link target)
    · exact .inr (.inr hlink)
    · have hs : fs.linkAt .examine (.entry σ.1 σ.2 false) = .ok none :=
        linkAt_of_standing hc fun id' he target ht =>
          hlink ⟨id', target, standing?_eq_some_iff.mpr ⟨σ, hp, he⟩, ht⟩
      obtain ⟨-, he⟩ := lookup?_of_find (locate_of_ok hl hs) hf
      exact .inr (.inl (standing?_eq_some_iff.mpr ⟨σ, hp, he⟩))

theorem find_of_standing (hs : fs.standing? path = some id)
    (hl : ∀ target, fs.node? id ≠ some (.link target)) : fs.find path = .ok id := by
  obtain ⟨σ, hp, he⟩ := standing?_eq_some_iff.mp hs
  obtain ⟨hr, hn⟩ := place?_eq_some_iff.mp hp
  have hc : fs.child σ.1 σ.2 = .ok (some id) := child_eq_ok_iff.mpr ⟨hn, he⟩
  have hlink : fs.linkAt .examine (.entry σ.1 σ.2 false) = .ok none := by
    refine linkAt_of_standing (by rw [hc, he]) fun id' he' target ht => hl target ?_
    rw [he] at he'
    cases he'
    exact ht
  rw [find_of_entry (locate_of_ok hr hlink), hc]
  rfl

theorem bytes?_of_standing (hs : fs.standing? path = some id) (hn : fs.node? id = some (.file x)) :
    fs.bytes? path = some x := by
  rw [bytes?, find_of_standing hs (by simp [hn])]
  exact content?_eq_some_iff.mpr hn

theorem remove_of_entry (h : fs.locate .remove path = .ok (.entry dir name t)) :
    fs.remove path =
      match fs.child dir name with
      | .error e => .error e
      | .ok none => .error .noEntry
      | .ok (some id) =>
        if fs.isDirectory id then .error .isDirectory
        else if t then .error .notDirectory
        else .ok (fs.drop dir name) := by
  rw [remove, h]
  change (fs.child dir name >>= _) = _
  cases fs.child dir name with
  | error e => rfl
  | ok x => cases x <;> rfl

theorem remove_of_standing (hp : fs.place? path = some σ) (he : fs.lookup? σ.1 σ.2 = some id)
    (hd : fs.isDirectory id = false) : fs.remove path = .ok (fs.drop σ.1 σ.2) := by
  obtain ⟨hr, hn⟩ := place?_eq_some_iff.mp hp
  rw [remove_of_entry hr, child_eq_ok_iff.mpr ⟨hn, he⟩]
  simp only [hd, Bool.false_eq_true, if_false]

theorem remove_of_free (hp : fs.place? path = some σ) (he : fs.lookup? σ.1 σ.2 = none) :
    fs.remove path = .error .noEntry := by
  obtain ⟨hr, hn⟩ := place?_eq_some_iff.mp hp
  rw [remove_of_entry hr, child_eq_ok_iff.mpr ⟨hn, he⟩]

theorem remove_eq_ok (h : fs.WellFormed) (hr : fs.remove path = .ok fs') :
    ∃ σ id, fs.place? path = some σ ∧ fs.lookup? σ.1 σ.2 = some id ∧
      fs.isDirectory id = false ∧ fs' = fs.drop σ.1 σ.2 := by
  rcases locate_cases h path with ⟨e, hl⟩ | ⟨id, hl, -⟩ | ⟨dir, name, hl⟩ | ⟨dir, name, hl, hc⟩ |
    ⟨σ, hp, hl, hc⟩
  · rw [remove, hl] at hr
    cases hr
  · rw [remove, hl] at hr
    cases hr
  · rw [remove_of_entry hl] at hr
    split at hr
    · cases hr
    · cases hr
    · split at hr
      · cases hr
      · cases hr
  · rw [remove_of_entry hl, hc] at hr
    cases hr
  · rw [remove_of_entry hl, hc] at hr
    cases he : fs.lookup? σ.1 σ.2 with
    | none =>
      rw [he] at hr
      cases hr
    | some id =>
      rw [he] at hr
      simp only at hr
      split at hr
      · cases hr
      · rename_i hd
        cases hr
        exact ⟨σ, id, hp, he, Bool.eq_false_iff.mpr hd, rfl⟩

theorem create_of_entry (h : fs.locate .create path = .ok (.entry dir name t)) :
    fs.create path =
      if t then .error .isDirectory
      else
        match fs.child dir name with
        | .error e => .error e
        | .ok none => .ok (fs.add dir name (.file .empty))
        | .ok (some id) =>
          match fs.node? id with
          | some (.directory _) => .error .isDirectory
          | some (.file _) => .ok (fs.set id (.file .empty), id)
          | _ => .ok (fs, id) := by
  rw [create, h]
  cases t with
  | true => rfl
  | false =>
    change (fs.child dir name >>= _) = _
    cases fs.child dir name with
    | error e => rfl
    | ok x => cases x <;> rfl

theorem create_of_free (hp : fs.place? path = some σ) (he : fs.lookup? σ.1 σ.2 = none) :
    fs.create path = .ok (fs.add σ.1 σ.2 (.file .empty)) := by
  obtain ⟨hr, hn⟩ := place?_eq_some_iff.mp hp
  have hc : fs.child σ.1 σ.2 = .ok none := child_eq_ok_iff.mpr ⟨hn, he⟩
  have hlink : fs.linkAt .create (.entry σ.1 σ.2 false) = .ok none :=
    linkAt_of_standing (by rw [hc, he]) (by simp [he])
  rw [create_of_entry (locate_of_ok hr hlink), hc]
  rfl

theorem create_eq_ok (h : fs.WellFormed)
    (hd : ∀ id', fs.standing? path = some id' → fs.isDirectory id' = true)
    (hok : fs.create path = .ok (fs', id)) :
    ∃ σ, fs.place? path = some σ ∧ fs.lookup? σ.1 σ.2 = none ∧
      (fs', id) = fs.add σ.1 σ.2 (.file .empty) := by
  rcases locate_cases h path with ⟨e, hl⟩ | ⟨id, hl, -⟩ | ⟨dir, name, hl⟩ | ⟨dir, name, hl, hc⟩ |
    ⟨σ, hp, hl, hc⟩
  · rw [create, locate_of_error hl] at hok
    cases hok
  · rw [create, locate_of_ok hl rfl] at hok
    cases hok
  · rw [create_of_entry (locate_of_ok hl (linkAt_of_not_follows rfl))] at hok
    cases hok
  · have hs : fs.linkAt .create (.entry dir name false) = .error .nameTooLong := by
      rw [linkAt_of_follows rfl, hc]
    rw [create, locate_of_linkAt_error hl hs] at hok
    cases hok
  · cases he : fs.lookup? σ.1 σ.2 with
    | none =>
      rw [create_of_free hp he] at hok
      exact ⟨σ, hp, he, (Except.ok.inj hok).symm⟩
    | some id' =>
      obtain ⟨up, hup⟩ := isDirectory_iff.mp (hd id' (standing?_eq_some_iff.mpr ⟨σ, hp, he⟩))
      have hlink : fs.linkAt .create (.entry σ.1 σ.2 false) = .ok none := by
        refine linkAt_of_standing hc fun id he' target ht => ?_
        rw [he] at he'
        cases he'
        rw [hup] at ht
        cases ht
      rw [create_of_entry (locate_of_ok hl hlink), hc, he] at hok
      simp only [hup, Bool.false_eq_true, if_false] at hok
      cases hok

end StorageTrials.FileSystem

namespace StorageTrials.Scene

open FileSystem

variable {c : Scene} {fs fs' : FileSystem} {path : String} {σ : Slot} {id : NodeId}
variable {ways : Slot → Prop} {x : ByteArray}

theorem Holds.place? (h : c.Holds fs) (hw : ∀ σ ∈ c.first.lookups .remove path, c.ways σ) :
    fs.place? path = c.first.place? path ∨ fs.place? path = none := by
  rcases (h.locate hw).spot with ⟨hl, -⟩ | ⟨σ, -, -, -, ⟨e, he⟩ | ⟨hne, -⟩⟩
  · refine .inl ?_
    rw [FileSystem.place?, hl, FileSystem.place?]
  · refine .inr ?_
    rw [FileSystem.place?, he]
  · exact absurd rfl hne

theorem Holds.place?_eq (h : c.Holds fs) (hw : ∀ σ ∈ c.first.lookups .remove path, c.ways σ)
    (ht : ∀ σ ∈ c.first.lookups .remove path, ¬ c.targets σ) :
    fs.place? path = c.first.place? path := by
  rcases (h.locate hw).spot with ⟨hl, -⟩ | ⟨σ, hσ, hσ', -⟩
  · rw [FileSystem.place?, hl, FileSystem.place?]
  · exact absurd hσ' (ht σ hσ)

/-- A tree with names that nothing is put under. -/
def still (fs : FileSystem) (ways : Slot → Prop) (stream : NodeId → Prop) : Scene :=
  ⟨fs, ways, fun _ => False, stream⟩

theorem Holds.locate_still {stream : NodeId → Prop} {purpose : Purpose}
    (h : (still fs ways stream).Holds fs') (hw : ∀ σ ∈ fs.lookups purpose path, ways σ) :
    fs'.locate purpose path = fs.locate purpose path := by
  rcases (h.locate hw).spot with ⟨hl, -⟩ | ⟨σ, -, ht, -⟩
  · exact hl
  · exact ht.elim

theorem Holds.find_same (h : c.Holds fs)
    (hl : fs.locate .examine path = c.first.locate .examine path)
    (hk : c.KeepsAll fs (c.first.lookups .examine path)) :
    fs.find path = c.first.find path ∧
      ∀ id, c.first.find path = .ok id → c.KeepsNode fs id := by
  cases hx : c.first.locate .examine path with
  | error e =>
    rw [hx] at hl
    refine ⟨(find_of_error hl).trans (find_of_error hx).symm, fun id hf => ?_⟩
    cases (find_of_error hx).symm.trans hf
  | ok s =>
    rw [hx] at hl
    cases s with
    | directory id =>
      refine ⟨(find_of_directory hl).trans (find_of_directory hx).symm, fun id' hf => ?_⟩
      cases (find_of_directory hx).symm.trans hf
      obtain ⟨up, hup⟩ := isDirectory_iff.mp (h.first.locate_isDirectory hx)
      exact .inl ((h.directories id up hup).trans hup.symm)
    | entry d n t =>
      have hslot := hk (d, n) (mem_lookups hx)
      refine ⟨?_, fun id hf => hslot.keepsNode (lookup?_of_find hx hf).1⟩
      rw [find_of_entry hl, find_of_entry hx, hslot.child]
      cases hc : c.first.child d n with
      | error e => rfl
      | ok x =>
        cases x with
        | none => rfl
        | some id => simp only [(hslot.keepsNode hc).isDirectory]

theorem Holds.find_still (h : (still fs ways fun _ => False).Holds fs')
    (hw : ∀ σ ∈ fs.lookups .examine path, ways σ) :
    fs'.find path = fs.find path ∧ ∀ id, fs.find path = .ok id → fs'.node? id = fs.node? id := by
  rcases (h.locate hw).spot with ⟨hl, hk⟩ | ⟨σ, -, ht, -⟩
  · obtain ⟨hfind, hnode⟩ := h.find_same hl hk
    refine ⟨hfind, fun id hf => ?_⟩
    rcases hnode id hf with hn | ⟨hs, -⟩
    · exact hn
    · exact hs.elim
  · exact ht.elim

structure Covers (c : Scene) (path : String) : Prop where
  lookups : ∀ σ ∈ c.first.lookups .remove path, c.ways σ
  place : ∀ σ, c.first.place? path = some σ → c.ways σ

theorem Holds.standing?_spare (h : c.Holds fs) (hp : c.Covers path) (hs : Spares c.ways fs fs') :
    fs'.standing? path = fs.standing? path ∧
      ∀ id, fs.standing? path = some id → fs'.node? id = fs.node? id := by
  have hstill : (still fs c.ways fun _ => False).Holds fs' := (holds_first h.wellFormed).spare hs
  have hl : fs'.locate .remove path = fs.locate .remove path :=
    hstill.locate_still fun σ hσ => hp.lookups σ ((h.locate hp.lookups).lookups hσ)
  have hplace : fs'.place? path = fs.place? path := by
    rw [FileSystem.place?, hl, FileSystem.place?]
  have hways {σ : Slot} (hσ : fs.place? path = some σ) : c.ways σ := by
    rcases h.place? hp.lookups with he | he
    · exact hp.place σ (he ▸ hσ)
    · rw [he] at hσ
      cases hσ
  refine ⟨?_, fun id hid => ?_⟩
  · rw [standing?, hplace, standing?]
    cases hσ : fs.place? path with
    | none => rfl
    | some σ => exact hs.entry σ (hways hσ)
  · obtain ⟨σ, hσ, he⟩ := standing?_eq_some_iff.mp hid
    exact hs.node σ (hways hσ) id he

/-- What is found by way of names that nothing is put under is found again. -/
theorem Holds.find (h : c.Holds fs) (hw : ∀ σ ∈ c.first.lookups .examine path, c.ways σ)
    (ht : ∀ σ ∈ c.first.lookups .examine path, ¬ c.targets σ) (hf : c.first.find path = .ok id) :
    fs.find path = .ok id ∧ c.KeepsNode fs id := by
  rcases (h.locate hw).spot with ⟨hl, hk⟩ | ⟨σ, hσ, hσ', -⟩
  · obtain ⟨hfind, hnode⟩ := h.find_same hl hk
    exact ⟨hfind.trans hf, hnode id hf⟩
  · exact absurd hσ' (ht σ hσ)

/-- What is found was found before, or it stands under a name that has been touched. -/
theorem Holds.found (h : c.Holds fs) (hw : ∀ σ ∈ c.first.lookups .examine path, c.ways σ)
    (hf : fs.find path = .ok id) :
    c.first.find path = .ok id ∧ c.KeepsNode fs id ∨
      ∃ σ, c.targets σ ∧ fs.lookup? σ.1 σ.2 = some id := by
  rcases (h.locate hw).spot with ⟨hl, hk⟩ | ⟨σ, -, hσ, -, ⟨e, he⟩ | ⟨-, t, he⟩⟩
  · obtain ⟨hfind, hnode⟩ := h.find_same hl hk
    have hfirst := hfind.symm.trans hf
    exact .inl ⟨hfirst, hnode id hfirst⟩
  · cases (find_of_error he).symm.trans hf
  · exact .inr ⟨σ, hσ, (lookup?_of_find he hf).2⟩

theorem Holds.find_file (h : c.Holds fs) (hw : ∀ σ ∈ c.first.lookups .examine path, c.ways σ)
    (ht : ∀ σ ∈ c.first.lookups .examine path, ¬ c.targets σ)
    (hf : c.first.find path = .ok id) (hn : c.first.node? id = some (.file x))
    (hs : ¬ c.stream id) : fs.find path = .ok id ∧ fs.node? id = some (.file x) := by
  obtain ⟨hfound, hk | ⟨hstream, -⟩⟩ := h.find hw ht hf
  · exact ⟨hfound, hk.trans hn⟩
  · exact absurd hstream hs

/-- A path that led by a name which has been touched leads nowhere, or to a new file. -/
theorem Holds.find_replaced (h : c.Holds fs) (hw : ∀ σ ∈ c.first.lookups .examine path, c.ways σ)
    {i : NodeId} (hi : c.first.find path = .ok i) (hσ : σ ∈ c.first.lookups .examine path)
    (hr : c.Replaced fs σ) (hf : fs.find path = .ok id) : c.first.nodes.size ≤ id := by
  rcases (h.locate hw).spot with ⟨-, hk⟩ | ⟨σ', -, -, hr', ⟨e, he⟩ | ⟨-, t, he⟩⟩
  · obtain ⟨id', he⟩ := Option.ne_none_iff_exists'.mp (lookup?_ne_none_of_find hi hσ)
    obtain ⟨hle, -⟩ := hr id' ((hk σ hσ).entry.trans he)
    exact absurd (h.first.lt_size he) (Nat.not_lt.mpr hle)
  · rw [find_of_error he] at hf
    cases hf
  · obtain ⟨-, hid⟩ := lookup?_of_find he hf
    exact (hr' id hid).1

end StorageTrials.Scene

namespace StorageTrials.FileSystem

open Scene

variable {fs : FileSystem} {path : String} {σ : Slot} {id : NodeId} {x : ByteArray}

theorem standing?_append (h : fs.WellFormed) (id : NodeId) (x : ByteArray) (path : String) :
    (fs.append id x).1.standing? path = fs.standing? path := by
  rcases append_eq fs id x with ⟨y, hy, he⟩ | he
  · have hstill : (still fs (fun _ => True) (· = id)).Holds (fs.append id x).1 :=
      (holds_first (c := still fs (fun _ => True) (· = id)) h).append rfl
    have hplace : (fs.append id x).1.place? path = fs.place? path := by
      rw [place?, hstill.locate_still fun _ _ => trivial, place?]
    rw [standing?, hplace, standing?, he]
    rfl
  · rw [he]

theorem standing?_drop (h : fs.WellFormed) (hp : fs.place? path = some σ) :
    (fs.drop σ.1 σ.2).standing? path = none := by
  have hdrop : (Scene.mk fs (fun _ => True) (· = σ) fun _ => False).Holds (fs.drop σ.1 σ.2) :=
    (holds_first (c := Scene.mk fs (fun _ => True) (· = σ) fun _ => False) h).drop rfl
  rcases hdrop.place? fun _ _ => trivial with he | he
  · rw [standing?, he, hp]
    exact lookup?_drop_self fs σ.1 σ.2
  · rw [standing?, he]
    rfl

theorem place?_add (h : fs.WellFormed) (hp : fs.place? path = some σ)
    (he : fs.lookup? σ.1 σ.2 = none) : (fs.add σ.1 σ.2 (.file x)).1.place? path = some σ := by
  have hadd : (Scene.mk fs (fun _ => True) (· = σ) fun _ => False).Holds
      (fs.add σ.1 σ.2 (.file x)).1 :=
    (holds_first (c := Scene.mk fs (fun _ => True) (· = σ) fun _ => False) h).add rfl he
  have hr := (place?_eq_some_iff.mp hp).1
  have hf := hadd.locate fun (σ' : Slot) (_ : σ' ∈ fs.lookups .remove path) => trivial
  rcases hf.spot with ⟨hl, -⟩ | ⟨σ', hσ', rfl, -⟩
  · rw [place?, hl]
    exact hp
  · rcases lookup?_of_mem_lookups hr hσ' with hne | ⟨hne, -⟩
    · exact absurd he hne
    · exact absurd rfl hne

theorem standing?_add (h : fs.WellFormed) (hp : fs.place? path = some σ)
    (he : fs.lookup? σ.1 σ.2 = none) :
    (fs.add σ.1 σ.2 (.file x)).1.standing? path = some fs.nodes.size :=
  standing?_eq_some_iff.mpr ⟨σ, place?_add h hp he, lookup?_add_self he⟩

end StorageTrials.FileSystem

import StorageTrials.Proofs.FileSystem.Entries

namespace StorageTrials

open StorageTrials.Path

/-- A name in a directory, taken or not. -/
abbrev Slot := NodeId × String

namespace FileSystem

def Spot.dir : Spot → NodeId
  | .directory id => id
  | .entry dir _ _ => dir

def Advance.dir? : Advance → Option NodeId
  | .spot s => some s.dir
  | .link dir _ _ => some dir
  | .fault _ => none

def advanceLookups (fs : FileSystem) (dir : NodeId) : List Step → List Slot
  | [] => []
  | [.here] => []
  | [.up] => []
  | [.name _] => []
  | .here :: rest => advanceLookups fs dir rest
  | .up :: rest => advanceLookups fs (fs.parent dir) rest
  | .name n :: rest =>
    (dir, n) ::
      match fs.child dir n with
      | .ok (some id) => if fs.isDirectory id then advanceLookups fs id rest else []
      | _ => []

def spotLookups (purpose : Purpose) : Spot → List Slot
  | .directory _ => []
  | .entry dir name trailing => if purpose.follows trailing then [(dir, name)] else []

def walkLookups (fs : FileSystem) (purpose : Purpose) :
    (links : Nat) → (trailing : Bool) → NodeId → List Step → List Slot
  | links, trailing, dir, steps =>
    fs.advanceLookups dir steps ++
      match fs.advance trailing dir steps with
      | .fault _ => []
      | .link dir target rest =>
        let r := route target
        match links with
        | 0 => []
        | links + 1 => walkLookups fs purpose links trailing (start dir r) (r.steps ++ rest)
      | .spot s =>
        spotLookups purpose s ++
          match fs.linkAt purpose s with
          | .ok (some (dir, target)) =>
            let r := route target
            match links with
            | 0 => []
            | links + 1 =>
              walkLookups fs purpose links (trailing || r.trailing) (start dir r) r.steps
          | _ => []

/-- The names that are looked up to see where a path leads. -/
def lookups (fs : FileSystem) (purpose : Purpose) (path : String) : List Slot :=
  if path.toList.contains '\x00' || path.isEmpty || maxPathBytes ≤ path.utf8ByteSize then []
  else
    let r := route path
    fs.walkLookups purpose maxLinks r.trailing (start fs.workingDir r) r.steps

variable {fs : FileSystem} {purpose : Purpose} {links : Nat} {trailing t : Bool}
variable {dir d : NodeId} {name n : String} {steps : List Step} {s : Spot} {σ : Slot}
variable {e : SystemError}

theorem WellFormed.isDirectory_start (h : fs.WellFormed) (hd : fs.isDirectory dir) (r : Route) :
    fs.isDirectory (start dir r) := by
  unfold start
  split
  · exact h.root
  · exact hd

theorem child_eq_ok_iff {x : Option NodeId} :
    fs.child dir name = .ok x ↔ name.utf8ByteSize ≤ maxNameBytes ∧ fs.lookup? dir name = x := by
  unfold child
  split
  · simp; omega
  · simp; omega

theorem WellFormed.advance_isDirectory (h : fs.WellFormed) (hd : fs.isDirectory dir)
    (ha : (fs.advance trailing dir steps).dir? = some d) : fs.isDirectory d := by
  fun_induction advance fs trailing dir steps with
  | case1 | case2 | case4 | case10 => cases ha; exact hd
  | case3 => cases ha; exact h.isDirectory_parent _
  | case5 dir rest _ ih => exact ih hd ha
  | case6 dir rest _ ih => exact ih (h.isDirectory_parent _) ha
  | case7 | case8 | case11 => cases ha
  | case9 dir name rest _ id _ up hnode ih => exact ih (isDirectory_iff.mpr ⟨up, hnode⟩) ha

theorem advance_trailing (h : fs.advance trailing dir steps = .spot (.entry d n t)) :
    t = trailing := by
  fun_induction advance fs trailing dir steps with
  | case1 | case2 | case3 | case7 | case8 | case10 | case11 => cases h
  | case4 => cases h; rfl
  | case5 _ _ _ ih | case6 _ _ _ ih | case9 _ _ _ _ _ _ _ _ ih => exact ih h

theorem lookup?_of_mem_advanceLookups (ha : (fs.advance trailing dir steps).dir? ≠ none)
    (hσ : σ ∈ fs.advanceLookups dir steps) : fs.lookup? σ.1 σ.2 ≠ none := by
  fun_induction advance fs trailing dir steps with
  | case1 | case2 | case3 | case4 => simp [advanceLookups] at hσ
  | case5 dir rest hrest ih => exact ih ha (by rwa [advanceLookups] at hσ; exact hrest)
  | case6 dir rest hrest ih => exact ih ha (by rwa [advanceLookups] at hσ; exact hrest)
  | case7 | case8 | case11 => exact absurd rfl ha
  | case9 dir name rest hrest id hchild up hnode ih =>
    rw [advanceLookups, hchild] at hσ
    · simp only [isDirectory_iff.mpr ⟨up, hnode⟩, if_true, List.mem_cons] at hσ
      rcases hσ with rfl | hσ
      · simp [(child_eq_ok_iff.mp hchild).2]
      · exact ih ha hσ
    · exact hrest
  | case10 dir name rest hrest id hchild target hnode =>
    have hdir : fs.isDirectory id = false := by
      simp [isDirectory, hnode, Node.isDirectory]
    rw [advanceLookups, hchild] at hσ
    · simp only [hdir, Bool.false_eq_true, if_false, List.mem_singleton] at hσ
      subst hσ
      simp [(child_eq_ok_iff.mp hchild).2]
    · exact hrest

theorem eq_of_mem_spotLookups (hσ : σ ∈ spotLookups purpose s) :
    ∃ t, purpose.follows t = true ∧ s = .entry σ.1 σ.2 t := by
  cases s with
  | directory id => cases hσ
  | entry dir name t =>
    rw [spotLookups] at hσ
    split at hσ
    · rename_i hf
      rw [List.mem_singleton.mp hσ]
      exact ⟨t, hf, rfl⟩
    · cases hσ

theorem linkAt_of_not_follows (h : purpose.follows t = false) :
    fs.linkAt purpose (.entry dir name t) = .ok none := by
  rw [linkAt, h]
  rfl

theorem linkAt_of_follows (h : purpose.follows t = true) :
    fs.linkAt purpose (.entry dir name t) =
      match fs.child dir name with
      | .error e => .error e
      | .ok none => .ok none
      | .ok (some id) =>
        match fs.node? id with
        | some (.link target) => .ok (some (dir, target))
        | _ => .ok none := by
  rw [linkAt, h]
  cases fs.child dir name with
  | error e => rfl
  | ok x => cases x <;> rfl

theorem dir_of_linkAt {target : String} (hl : fs.linkAt purpose s = .ok (some (d, target))) :
    d = s.dir := by
  cases s with
  | directory id => cases hl
  | entry dir name t =>
    cases hf : purpose.follows t with
    | false =>
      rw [linkAt_of_not_follows hf] at hl
      cases hl
    | true =>
      rw [linkAt_of_follows hf] at hl
      split at hl <;> try cases hl
      split at hl <;> cases hl
      rfl

theorem WellFormed.walk_isDirectory (h : fs.WellFormed) (hd : fs.isDirectory dir)
    (hw : fs.walk purpose links trailing dir steps = .ok s) : fs.isDirectory s.dir := by
  fun_induction walk fs purpose links trailing dir steps with
  | case1 | case2 | case4 | case6 => cases hw
  | case3 trailing dir steps d target rest ha r links ih =>
    exact ih (h.isDirectory_start (h.advance_isDirectory hd (congrArg Advance.dir? ha)) _) hw
  | case5 links trailing dir steps s ha hl =>
    cases hw
    exact h.advance_isDirectory hd (congrArg Advance.dir? ha)
  | case7 trailing dir steps s ha d target hl r links ih =>
    have hdir := h.advance_isDirectory hd (congrArg Advance.dir? ha)
    exact ih (h.isDirectory_start (dir_of_linkAt hl ▸ hdir) _) hw

theorem walk_trailing (h : fs.walk purpose links trailing dir steps = .ok (.entry d n t))
    (ht : trailing = true) : t = true := by
  fun_induction walk fs purpose links trailing dir steps with
  | case1 | case2 | case4 | case6 => cases h
  | case3 trailing dir steps d target rest ha r links ih => exact ih h ht
  | case5 links trailing dir steps s ha hl =>
    cases h
    rw [advance_trailing ha, ht]
  | case7 trailing dir steps s ha d target hl r links ih => exact ih h (by rw [ht, Bool.true_or])

theorem linkAt_remove (s : Spot) : fs.linkAt .remove s = .ok none := by
  cases s with
  | directory id => rfl
  | entry dir name t => exact linkAt_of_not_follows rfl

theorem walk_remove_trailing (h : fs.walk .remove links trailing dir steps = .ok (.entry d n t)) :
    t = trailing := by
  fun_induction walk fs .remove links trailing dir steps with
  | case1 | case2 | case4 | case6 => cases h
  | case3 trailing dir steps d target rest ha r links ih => exact ih h
  | case5 links trailing dir steps s ha hl =>
    cases h
    exact advance_trailing ha
  | case7 trailing dir steps s ha d target hl r links ih =>
    rw [linkAt_remove] at hl
    cases hl

/-- What a path is followed for makes a difference only where a link stands at the end. -/
theorem walk_eq_of_remove
    (hl : ∀ s, fs.walk .remove links trailing dir steps = .ok s →
      ∀ p, fs.linkAt purpose s ≠ .ok (some p)) :
    fs.walk purpose links trailing dir steps = (do
      let s ← fs.walk .remove links trailing dir steps
      let _ ← fs.linkAt purpose s
      return s) := by
  fun_induction walk fs .remove links trailing dir steps with
  | case1 links trailing dir steps e ha =>
    rw [walk, ha]
    rfl
  | case2 trailing dir steps d target rest ha =>
    rw [walk, ha]
    rfl
  | case3 trailing dir steps d target rest ha r links ih =>
    rw [walk, ha]
    exact ih hl
  | case4 links trailing dir steps s ha e hl' | case6 trailing dir steps s ha d target hl' =>
    rw [linkAt_remove] at hl'
    cases hl'
  | case5 links trailing dir steps s ha =>
    rw [walk, ha]
    change _ = (fs.linkAt purpose s >>= fun _ => .ok s)
    cases hs : fs.linkAt purpose s with
    | error e =>
      simp only [hs]
      rfl
    | ok x =>
      cases x with
      | none =>
        simp only [hs]
        rfl
      | some p => exact absurd hs (hl s rfl p)
  | case7 trailing dir steps s ha d target hl' =>
    rw [linkAt_remove] at hl'
    cases hl'

theorem lookup?_of_linkAt {target : String} (hσ : σ ∈ spotLookups purpose s)
    (hl : fs.linkAt purpose s = .ok (some (d, target))) : fs.lookup? σ.1 σ.2 ≠ none := by
  obtain ⟨t, hf, rfl⟩ := eq_of_mem_spotLookups hσ
  rw [linkAt_of_follows hf] at hl
  split at hl
  · cases hl
  · cases hl
  · rename_i id hchild
    rw [(child_eq_ok_iff.mp hchild).2]
    exact Option.some_ne_none id

theorem lookup?_of_mem_walkLookups (hw : fs.walk purpose links trailing dir steps = .ok s)
    (hσ : σ ∈ fs.walkLookups purpose links trailing dir steps) :
    fs.lookup? σ.1 σ.2 ≠ none ∨ purpose ≠ .remove ∧ ∃ t, s = .entry σ.1 σ.2 t := by
  fun_induction walk fs purpose links trailing dir steps with
  | case1 | case2 | case4 | case6 => cases hw
  | case3 trailing dir steps d target rest ha r links ih =>
    rw [walkLookups, ha] at hσ
    rcases List.mem_append.mp hσ with hσ | hσ
    · exact .inl (lookup?_of_mem_advanceLookups (by rw [ha]; simp [Advance.dir?]) hσ)
    · exact ih hw hσ
  | case5 links trailing dir steps s ha hl =>
    cases hw
    rw [walkLookups, ha] at hσ
    simp only [hl, List.append_nil] at hσ
    rcases List.mem_append.mp hσ with hσ | hσ
    · exact .inl (lookup?_of_mem_advanceLookups (by rw [ha]; simp [Advance.dir?]) hσ)
    · obtain ⟨t, hf, hs⟩ := eq_of_mem_spotLookups hσ
      have hp : purpose ≠ .remove := by
        rintro rfl
        cases hf
      exact .inr ⟨hp, t, hs⟩
  | case7 trailing dir steps s ha d target hl r links ih =>
    rw [walkLookups, ha] at hσ
    simp only [hl] at hσ
    rcases List.mem_append.mp hσ with hσ | hσ
    · exact .inl (lookup?_of_mem_advanceLookups (by rw [ha]; simp [Advance.dir?]) hσ)
    rcases List.mem_append.mp hσ with hσ | hσ
    · exact .inl (lookup?_of_linkAt hσ hl)
    · exact ih hw hσ

theorem mem_walkLookups (hw : fs.walk .examine links trailing dir steps = .ok (.entry d n t)) :
    (d, n) ∈ fs.walkLookups .examine links trailing dir steps := by
  fun_induction walk fs .examine links trailing dir steps with
  | case1 | case2 | case4 | case6 => cases hw
  | case3 trailing dir steps d target rest ha r links ih =>
    rw [walkLookups, ha]
    exact List.mem_append_right _ (ih hw)
  | case5 links trailing dir steps s ha hl =>
    cases hw
    rw [walkLookups, ha]
    exact List.mem_append_right _ (List.mem_append_left _ List.mem_cons_self)
  | case7 trailing dir steps s ha d target hl r links ih =>
    rw [walkLookups, ha]
    simp only [hl]
    exact List.mem_append_right _ (List.mem_append_right _ (ih hw))

/-- Whether a path is walked is a matter of the path alone: in every tree it is refused before a
name is looked up, or in none. -/
theorem refused_or_walked (path : String) :
    (∃ e, ∀ (fs : FileSystem) (purpose : Purpose),
        fs.locate purpose path = .error e ∧ fs.lookups purpose path = []) ∨
      ∀ (fs : FileSystem) (purpose : Purpose),
        let r := route path
        fs.locate purpose path =
            fs.walk purpose maxLinks r.trailing (start fs.workingDir r) r.steps ∧
          fs.lookups purpose path =
            fs.walkLookups purpose maxLinks r.trailing (start fs.workingDir r) r.steps := by
  by_cases hnul : path.toList.contains '\x00' = true
  · refine .inl ⟨.nulInName, fun fs purpose => ?_⟩
    simp only [locate, lookups, hnul, Bool.true_or, if_true, and_self]
  by_cases hempty : path.isEmpty = true
  · refine .inl ⟨.noEntry, fun fs purpose => ?_⟩
    simp only [locate, lookups, hnul, hempty, Bool.or_true, Bool.true_or, if_true,
      Bool.false_eq_true, if_false, and_self]
  by_cases hlong : maxPathBytes ≤ path.utf8ByteSize
  · refine .inl ⟨.nameTooLong, fun fs purpose => ?_⟩
    simp only [locate, lookups, hnul, hempty, hlong, decide_true, Bool.or_true, if_true,
      Bool.false_eq_true, if_false, and_self]
  · refine .inr fun fs purpose => ?_
    simp only [locate, lookups, hnul, hempty, hlong, decide_false, Bool.or_self,
      Bool.false_eq_true, if_false, and_self]

theorem locate_eq_walk {path : String} (h : fs.locate purpose path = .ok s) :
    let r := route path
    fs.walk purpose maxLinks r.trailing (start fs.workingDir r) r.steps = .ok s ∧
      fs.lookups purpose path =
        fs.walkLookups purpose maxLinks r.trailing (start fs.workingDir r) r.steps := by
  rcases refused_or_walked path with ⟨e, hrefused⟩ | hwalked
  · cases h.symm.trans (hrefused fs purpose).1
  · exact ⟨(hwalked fs purpose).1.symm.trans h, (hwalked fs purpose).2⟩

theorem lookup?_of_mem_lookups {path : String} (h : fs.locate purpose path = .ok s)
    (hσ : σ ∈ fs.lookups purpose path) :
    fs.lookup? σ.1 σ.2 ≠ none ∨ purpose ≠ .remove ∧ ∃ t, s = .entry σ.1 σ.2 t := by
  obtain ⟨hw, hl⟩ := locate_eq_walk h
  exact lookup?_of_mem_walkLookups hw (hl ▸ hσ)

theorem mem_lookups {path : String} (h : fs.locate .examine path = .ok (.entry d n t)) :
    (d, n) ∈ fs.lookups .examine path := by
  obtain ⟨hw, hl⟩ := locate_eq_walk h
  exact hl ▸ mem_walkLookups hw

end FileSystem

end StorageTrials

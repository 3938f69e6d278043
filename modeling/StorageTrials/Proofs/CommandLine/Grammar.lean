import Mathlib.Data.List.Basic
import StorageTrials.Proofs.CommandLine.Words

namespace StorageTrials

variable {p q : Parameter} {w t name : String} {v : Option String} {ws : List String}

namespace Item

variable {held : Option Item} {i : Item} {items : List Item}

def Usable : Item → Prop
  | choice _ value => value.isSome
  | switch s => s = .verbose
  | refused _ => False

/-- The lines on which items that can be taken up are written. -/
inductive Written : List Item → List String → Prop
  | nil : Written [] []
  /-- No word may follow two dashes. -/
  | terminator : Written [] ["--"]
  | apart (p : Parameter) {t : String} (h : Word.ofString t = .plain t) {items : List Item}
      {ws : List String} :
      Written items ws → Written (choice p (some t) :: items) (p.flag :: t :: ws)
  | assigned (p : Parameter) (t : String) {items : List Item} {ws : List String} :
      Written items ws → Written (choice p (some t) :: items) (p.assignment t :: ws)
  | verbose {items : List Item} {ws : List String} :
      Written items ws → Written (switch .verbose :: items) ("--verbose" :: ws)
  | letters (n : Nat) {items : List Item} {ws : List String} : Written items ws →
      Written (List.replicate (n + 1) (switch .verbose) ++ items)
        (("-" ++ String.ofList (List.replicate (n + 1) 'v')) :: ws)

/-- What is held back comes first if all that follows can be taken up. -/
theorem behind_of_usable (h : ∀ i ∈ behind held items, i.Usable) :
    behind held items = held.toList ++ items := by
  cases items with
  | nil => rfl
  | cons i items =>
    cases i with
    | refused cause => exact absurd (h _ List.mem_cons_self) id
    | choice | switch => rfl

theorem ofName_eq_choice (h : ofName name v = choice q value) : name = q.name ∧ v = value := by
  rw [ofName] at h
  split at h
  case h_1 p hp =>
    obtain ⟨rfl, rfl⟩ := choice.inj h
    have := List.find?_some hp
    exact ⟨(of_decide_eq_true this).symm, rfl⟩
  case h_2 => split at h <;> exact Item.noConfusion h
  case h_3 => exact Item.noConfusion h

theorem ofName_eq_verbose (h : ofName name v = switch .verbose) : name = "verbose" ∧ v = none := by
  rw [ofName] at h
  split at h
  case h_1 => exact Item.noConfusion h
  case h_2 s _ hs =>
    split at h
    case isTrue => exact Item.noConfusion h
    case isFalse hv =>
      obtain rfl := switch.inj h
      refine ⟨?_, Option.not_isSome_iff_eq_none.mp hv⟩
      unfold Switch.ofName? at hs
      split at hs <;> simp_all
  case h_3 => exact Item.noConfusion h

theorem eq_of_usable_ofLetter {c : Char} (h : (ofLetter c).Usable) : c = 'v' := by
  unfold ofLetter Switch.ofLetter? at h
  split at h
  case h_1 s hs => split at hs <;> simp_all [Usable]
  case h_2 => exact absurd h id

theorem behind_none (items : List Item) : behind none items = items := by
  unfold behind
  split <;> rfl

theorem behind_append_of_usable {more : List Item}
    (h : ∀ i ∈ behind held items ++ more, i.Usable) :
    behind held items ++ more = held.toList ++ (behind none items ++ more) := by
  rw [behind_of_usable fun i hi => h i (List.mem_append_left _ hi), behind_none, List.append_assoc]

theorem scan_held (h : ∀ i ∈ scan held ws, i.Usable) :
    scan held ws = held.toList ++ scan none ws ∨
      ∃ p t ws', held = some (choice p none) ∧ ws = t :: ws' ∧ Word.ofString t = .plain t ∧
        scan held ws = scan (some (choice p (some t))) ws' := by
  cases ws with
  | nil => exact .inl (by simp [scan])
  | cons w ws =>
    have hw := Word.text_ofString w
    simp only [scan] at h ⊢
    split at h
    case h_1 => exact .inl (by rw [behind_of_usable h, behind_none])
    case h_2 text hp =>
      rw [hp] at hw
      obtain rfl : text = w := hw
      split at h
      case h_1 p => exact .inr ⟨p, text, ws, rfl, rfl, hp, rfl⟩
      case h_2 => exact absurd (h _ List.mem_cons_self) id
    case h_3 => exact .inl (behind_append_of_usable h)
    case h_4 =>
      split at h
      case h_1 => exact .inl rfl
      case h_2 => exact .inl (behind_append_of_usable h)

theorem scan_complete (h : ∀ i ∈ scan (some (choice p (some t))) ws, i.Usable) :
    scan (some (choice p (some t))) ws = choice p (some t) :: scan none ws := by
  rcases scan_held h with h | ⟨q, u, ws', hq, -⟩
  · exact h
  · simp at hq

theorem scan_incomplete (h : ∀ i ∈ scan (some (choice p none)) ws, i.Usable) :
    ∃ t ws', ws = t :: ws' ∧ Word.ofString t = .plain t ∧
      scan (some (choice p none)) ws = choice p (some t) :: scan none ws' := by
  rcases scan_held h with he | ⟨q, t, ws', hq, hws, ht, he⟩
  · rw [he] at h
    exact absurd (h _ List.mem_cons_self) Bool.false_ne_true
  · obtain ⟨rfl, -⟩ := choice.inj (Option.some.inj hq)
    exact ⟨t, ws', hws, ht, he.trans (scan_complete (he ▸ h))⟩

theorem map_ofLetter_of_usable {cs : List Char} (h : ∀ i ∈ cs.map ofLetter, i.Usable) :
    cs = List.replicate cs.length 'v' :=
  List.eq_replicate_iff.mpr ⟨rfl, fun _ hc => eq_of_usable_ofLetter (h _ (List.mem_map_of_mem hc))⟩

theorem ne_nil_of_cluster {cs : List Char} (h : Word.ofString w = .cluster cs) : cs ≠ [] := by
  rintro rfl
  have hw := Word.text_ofString w
  rw [h] at hw
  rw [← hw] at h
  exact absurd h (by decide)

theorem scan_long (hform : Word.ofString w = .long name v)
    (h : ∀ i ∈ scan none (w :: ws), i.Usable) :
    (name = "verbose" ∧ v = none ∧ scan none (w :: ws) = switch .verbose :: scan none ws) ∨
      ∃ p t, name = p.name ∧
        (v = some t ∧ scan none (w :: ws) = choice p (some t) :: scan none ws ∨
          v = none ∧ ∃ ws', ws = t :: ws' ∧ Word.ofString t = .plain t ∧
            scan none (w :: ws) = choice p (some t) :: scan none ws') := by
  cases hitem : ofName name v with
  | refused cause =>
    simp only [scan, hform, hitem] at h
    exact absurd (h _ List.mem_cons_self) id
  | switch s =>
    have hs : scan none (w :: ws) = switch s :: scan none ws := by
      simp only [scan, hform, hitem, behind_none, List.singleton_append]
    obtain rfl : s = .verbose := h (switch s) (hs ▸ List.mem_cons_self)
    obtain ⟨hname, hv⟩ := ofName_eq_verbose hitem
    exact .inl ⟨hname, hv, hs⟩
  | choice p value =>
    obtain ⟨rfl, rfl⟩ := ofName_eq_choice hitem
    refine .inr ⟨p, ?_⟩
    cases v with
    | none =>
      have hs : scan none (w :: ws) = scan (some (choice p none)) ws := by
        simp only [scan, hform, hitem, Option.toList_none, List.nil_append]
      rw [hs] at h ⊢
      obtain ⟨t, ws', hws, ht, he⟩ := scan_incomplete h
      exact ⟨t, rfl, .inr ⟨rfl, ws', hws, ht, he⟩⟩
    | some t =>
      have hs : scan none (w :: ws) = choice p (some t) :: scan none ws := by
        simp only [scan, hform, hitem, behind_none, List.singleton_append]
      exact ⟨t, rfl, .inl ⟨rfl, hs⟩⟩

theorem written_scan (ws : List String) (h : ∀ i ∈ scan none ws, i.Usable) :
    Written (scan none ws) ws := by
  match ws with
  | [] => exact .nil
  | w :: ws =>
    have hw := Word.text_ofString w
    cases hform : Word.ofString w with
    | terminator =>
      have hs : scan none (w :: ws) = (ws.take 1).map unknown := by
        simp only [scan, hform, behind_none]
      rw [hform] at hw
      rw [hs] at h ⊢
      cases ws with
      | nil => exact hw ▸ .terminator
      | cons v ws => exact absurd (h _ List.mem_cons_self) id
    | plain text =>
      simp only [scan, hform] at h
      exact absurd (h _ List.mem_cons_self) id
    | cluster cs =>
      have hs : scan none (w :: ws) = cs.map ofLetter ++ scan none ws := by
        simp only [scan, hform, behind_none]
      rw [hform] at hw
      rw [hs] at h ⊢
      obtain ⟨n, hn⟩ := Nat.exists_eq_add_one_of_ne_zero
        (mt List.length_eq_zero_iff.mp (ne_nil_of_cluster hform))
      have hcs := map_ofLetter_of_usable fun i hi => h i (List.mem_append_left _ hi)
      rw [← hw, hcs, hn, List.map_replicate]
      exact .letters n (written_scan _ fun i hi => h i (List.mem_append_right _ hi))
    | long name v =>
      rw [hform] at hw
      rcases scan_long hform h with
        ⟨rfl, rfl, hs⟩ | ⟨p, t, rfl, ⟨rfl, hs⟩ | ⟨rfl, ws', rfl, ht, hs⟩⟩
      · rw [hs] at h ⊢
        exact hw ▸ .verbose (written_scan _ fun i hi => h i (List.mem_cons_of_mem _ hi))
      · rw [hs] at h ⊢
        exact hw ▸ .assigned p t (written_scan _ fun i hi => h i (List.mem_cons_of_mem _ hi))
      · -- the next word is the value, and the line goes on behind it
        rw [hs] at h ⊢
        exact hw ▸ .apart p ht (written_scan _ fun i hi => h i (List.mem_cons_of_mem _ hi))
termination_by ws.length

theorem ofName_name (p : Parameter) (v : Option String) : ofName p.name v = choice p v := by
  rw [ofName, Parameter.ofName?_name]

theorem ofString_letters (n : Nat) :
    Word.ofString ("-" ++ String.ofList (List.replicate (n + 1) 'v')) =
      .cluster (List.replicate (n + 1) 'v') := by
  simp [Word.ofString, List.replicate_succ]

theorem ofString_verbose : Word.ofString "--verbose" = .long "verbose" none := by decide

/-- Whatever is held back, a line on which items are written is read as these. -/
theorem Written.scan_eq (h : Written items ws) (held : Option Item) :
    scan held ws = held.toList ++ items := by
  -- a parameter apart from its value is held back in turn, so the induction is for all of them
  induction h generalizing held with
  | nil => exact (List.append_nil _).symm
  | terminator =>
    have hw : Word.ofString "--" = .terminator := by decide
    simp [scan, hw, behind]
  | apart p ht _ ih =>
    simp [scan, Word.ofString_flag, ofName_name, ht, ih]
  | assigned p t _ ih =>
    simp [scan, Word.ofString_assignment, ofName_name, behind, ih]
  | verbose _ ih =>
    have hn : ofName "verbose" none = switch .verbose := by decide
    simp [scan, ofString_verbose, hn, behind, ih]
  | letters n _ ih =>
    have hl : ofLetter 'v' = switch .verbose := rfl
    rw [scan, ofString_letters]
    simp [hl, List.replicate_succ, behind, ih]

theorem Written.ofWords (h : Written items ws) : ofWords ws = items :=
  (h.scan_eq none).trans (List.nil_append items)

def value? (p : Parameter) : Item → Option String
  | choice q value => if q = p then value else none
  | _ => none

end Item

namespace CommandLine

open Parameter

theorem verbose_ne_name (p : Parameter) : "verbose" ≠ p.name := by cases p <;> decide

theorem values_written {items : List Item} (h : Item.Written items ws) (p : Parameter) :
    items.filterMap (Item.value? p) = given p ws := by
  induction h with
  | nil => rfl
  | terminator => cases p <;> rfl
  | @apart q t ht items ws _ ih =>
    have hnone : valueAt p t ws.head? = none := valueAt_eq_none fun v => by simp [ht]
    rw [given, given, valueAt_flag, hnone, ← ih]
    by_cases hq : q = p
    · simp [Item.value?, hq]
    · simp [Item.value?, hq]
  | assigned q t _ ih =>
    rw [given, valueAt_assignment, ← ih]
    by_cases hq : q = p
    · simp [Item.value?, hq]
    · simp [Item.value?, hq]
  | verbose _ ih =>
    have hnone : ∀ next, valueAt p "--verbose" next = none := fun next =>
      valueAt_eq_none fun v => by simp [Item.ofString_verbose, verbose_ne_name p]
    rw [given, hnone, ← ih]
    rfl
  | letters n _ ih =>
    have hform := Item.ofString_letters n
    rw [given, valueAt_eq_none fun v => by rw [hform]; exact Word.noConfusion, ← ih]
    simp [Item.value?]

def isVerbose (w : String) : Bool := w = "-v" || w = "--verbose"

theorem isVerbose_eq_false (h : Word.ofString w ≠ .cluster ['v'])
    (h' : Word.ofString w ≠ .long "verbose" none) : isVerbose w = false := by
  have hv : Word.ofString "-v" = .cluster ['v'] := by decide
  have hne : w ≠ "-v" := fun e => h (e ▸ hv)
  have hne' : w ≠ "--verbose" := fun e => h' (e ▸ Item.ofString_verbose)
  simp [isVerbose, hne, hne']

theorem verbose_written {items : List Item} (h : Item.Written items ws)
    (hcount : items.count (.switch .verbose) ≤ 1) :
    .switch .verbose ∈ items ↔ ws.any isVerbose := by
  induction h with
  | nil => simp
  | terminator => decide
  | @apart p t ht items ws _ ih =>
    have hflag : isVerbose p.flag = false := isVerbose_eq_false (by simp [Word.ofString_flag])
      (by simp [Word.ofString_flag, (verbose_ne_name p).symm])
    have ht : isVerbose t = false := isVerbose_eq_false (by simp [ht]) (by simp [ht])
    simpa [hflag, ht] using ih (by simpa using hcount)
  | assigned p t _ ih =>
    have hw : isVerbose (p.assignment t) = false :=
      isVerbose_eq_false (by simp [Word.ofString_assignment]) (by simp [Word.ofString_assignment])
    simpa [hw] using ih (by simpa using hcount)
  | verbose _ _ => simp [isVerbose]
  | letters n _ _ =>
    rw [List.count_append, List.count_replicate_self] at hcount
    obtain rfl : n = 0 := by omega
    have hw : isVerbose "-v" = true := by decide
    simp [hw]

end CommandLine

end StorageTrials

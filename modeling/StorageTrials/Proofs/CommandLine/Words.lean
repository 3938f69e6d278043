import Mathlib.Data.List.Basic
import Mathlib.Data.List.TakeWhile
import StorageTrials.CommandLine.Item

namespace StorageTrials

variable {p q : Parameter} {w t : String} {next : Option String} {cs : List Char}

namespace Word

def text : Word → String
  | terminator => "--"
  | long name none => "--" ++ name
  | long name (some value) => "--" ++ name ++ "=" ++ value
  | cluster letters => "-" ++ String.ofList letters
  | plain text => text

theorem ofAssignment_of_not_mem (h : '=' ∉ cs) :
    ofAssignment cs = long (String.ofList cs) none := by
  have hall : ∀ c ∈ cs, decide (c ≠ '=') = true :=
    fun c hc => decide_eq_true fun e => h (e ▸ hc)
  rw [ofAssignment, List.takeWhile_eq_self_iff.mpr hall, List.dropWhile_eq_nil_iff.mpr hall]

theorem ofAssignment_append {ds : List Char} (h : '=' ∉ cs) :
    ofAssignment (cs ++ '=' :: ds) = long (String.ofList cs) (some (String.ofList ds)) := by
  have hall : ∀ c ∈ cs, decide (c ≠ '=') = true :=
    fun c hc => decide_eq_true fun e => h (e ▸ hc)
  rw [ofAssignment, List.takeWhile_append_of_pos hall, List.dropWhile_append_of_pos hall]
  simp

theorem ofAssignment_cases (cs : List Char) :
    ('=' ∉ cs ∧ ofAssignment cs = long (String.ofList cs) none) ∨
      ∃ ds es, cs = ds ++ '=' :: es ∧ '=' ∉ ds ∧
        ofAssignment cs = long (String.ofList ds) (some (String.ofList es)) := by
  by_cases h : '=' ∈ cs
  · obtain ⟨ds, es, rfl, hds⟩ := List.eq_append_cons_of_mem h
    exact .inr ⟨ds, es, rfl, hds, ofAssignment_append hds⟩
  · exact .inl ⟨h, ofAssignment_of_not_mem h⟩

theorem text_ofAssignment (cs : List Char) :
    (ofAssignment cs).text = String.ofList ('-' :: '-' :: cs) := by
  apply String.toList_inj.mp
  rcases ofAssignment_cases cs with ⟨-, h⟩ | ⟨ds, es, rfl, -, h⟩
  · simp [h, text]
  · simp [h, text]

theorem text_ofString (w : String) : (ofString w).text = w := by
  unfold ofString
  split
  case h_1 h => exact String.toList_inj.mp h.symm
  case h_2 cs _ h => rw [text_ofAssignment, ← h, String.ofList_toList]
  case h_4 letters _ _ h => exact String.toList_inj.mp (by simp [text, h])
  all_goals rfl

end Word

namespace Parameter

theorem toList_flag (p : Parameter) : p.flag.toList = '-' :: '-' :: p.name.toList := by
  rw [flag, String.toList_append]
  rfl

theorem equals_not_mem_name (p : Parameter) : '=' ∉ p.name.toList := by cases p <;> decide

theorem name_ne_empty (p : Parameter) : p.name.toList ≠ [] := by cases p <;> decide

theorem name_injective : Function.Injective name := fun p q h =>
  Option.some.inj (by rw [← ofName?_name p, h, ofName?_name])

def assignment (p : Parameter) (t : String) : String := p.flag ++ "=" ++ t

theorem toList_assignment (p : Parameter) (t : String) :
    (p.assignment t).toList = '-' :: '-' :: (p.name.toList ++ '=' :: t.toList) := by
  simp [assignment, toList_flag]

end Parameter

namespace Word

theorem ofString_of_dashes (hne : cs ≠ []) (h : w.toList = '-' :: '-' :: cs) :
    ofString w = ofAssignment cs := by
  rw [ofString, h]
  cases cs with
  | nil => exact absurd rfl hne
  | cons c cs => rfl

theorem ofString_flag (p : Parameter) : ofString p.flag = long p.name none := by
  rw [ofString_of_dashes p.name_ne_empty p.toList_flag,
    ofAssignment_of_not_mem p.equals_not_mem_name, String.ofList_toList]

theorem ofString_assignment (p : Parameter) (t : String) :
    ofString (p.assignment t) = long p.name (some t) := by
  rw [ofString_of_dashes (by simp) (p.toList_assignment t),
    ofAssignment_append p.equals_not_mem_name, String.ofList_toList, String.ofList_toList]

end Word

namespace CommandLine

open Parameter

/-- The value that a word gives to a parameter, if the word is about it: what stands behind the
equals sign, or the next word. -/
def valueAt (p : Parameter) (w : String) (next : Option String) : Option String :=
  if w = p.flag then next
  else (w.toList.dropPrefix? (p.flag ++ "=").toList).map String.ofList

/-- The values that a parameter is given by the words of a command line, in order. -/
def given (p : Parameter) : List String → List String
  | [] => []
  | w :: ws => (valueAt p w ws.head?).toList ++ given p ws

theorem assignment_ne_flag : p.assignment t ≠ q.flag := by
  intro h
  have := Word.ofString_assignment p t
  rw [h, Word.ofString_flag] at this
  simp at this

theorem assignment_inj {u : String} (h : p.assignment t = q.assignment u) :
    p = q ∧ t = u := by
  have := Word.ofString_assignment p t
  rw [h, Word.ofString_assignment, Word.long.injEq, Option.some.injEq] at this
  exact ⟨(Parameter.name_injective this.1).symm, this.2.symm⟩

theorem valueAt_eq_some_iff (hw : w ≠ p.flag) : valueAt p w next = some t ↔ w = p.assignment t := by
  rw [valueAt, if_neg hw, Option.map_eq_some_iff]
  constructor
  · rintro ⟨s, hs, rfl⟩
    obtain ⟨ps, hws, hps⟩ := List.dropPrefix?_eq_some_iff.mp hs
    rw [beq_iff_eq] at hps
    exact String.toList_inj.mp (by simp [hws, hps, assignment])
  · rintro rfl
    exact ⟨t.toList, List.dropPrefix?_eq_some_iff.mpr
      ⟨(p.flag ++ "=").toList, by rw [assignment, String.toList_append], beq_self_eq_true _⟩,
      String.ofList_toList⟩

theorem valueAt_eq_none (h : ∀ v, Word.ofString w ≠ .long p.name v) : valueAt p w next = none := by
  have hw : w ≠ p.flag := fun e => h none (e ▸ Word.ofString_flag p)
  refine Option.eq_none_iff_forall_ne_some.mpr fun t ht => ?_
  exact h (some t) ((valueAt_eq_some_iff hw).mp ht ▸ Word.ofString_assignment p t)

theorem valueAt_flag (p q : Parameter) (next : Option String) :
    valueAt p q.flag next = if q = p then next else none := by
  split
  case isTrue h => exact h ▸ if_pos rfl
  case isFalse h =>
    refine valueAt_eq_none fun v hv => h (name_injective ?_)
    rw [Word.ofString_flag] at hv
    exact (Word.long.inj hv).1

theorem valueAt_assignment (p q : Parameter) (t : String) (next : Option String) :
    valueAt p (q.assignment t) next = if q = p then some t else none := by
  split
  case isTrue h => exact h ▸ (valueAt_eq_some_iff assignment_ne_flag).mpr rfl
  case isFalse h =>
    refine valueAt_eq_none fun v hv => h (name_injective ?_)
    rw [Word.ofString_assignment] at hv
    exact (Word.long.inj hv).1

end CommandLine

end StorageTrials

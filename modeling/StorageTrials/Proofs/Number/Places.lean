import StorageTrials.Number.Fixed

namespace StorageTrials.Number

open StorageTrials.Text

variable {c : Char} {places n : Nat} {x : Binary64}

theorem isDigit_of_mem_paddedDigits (h : c ∈ paddedDigits places n) : c.isDigit = true := by
  rcases List.mem_append.mp h with h | h
  · rw [List.eq_of_mem_replicate h]
    rfl
  · exact isDigit_of_mem_digits h

theorem isDigit_of_mem_placed (h : c ∈ placed places n) (hpoint : c ≠ '.') : c.isDigit = true := by
  rw [placed, List.mem_append, List.mem_cons] at h
  rcases h with h | h | h
  · exact isDigit_of_mem_digits h
  · exact absurd h hpoint
  · exact isDigit_of_mem_paddedDigits h

theorem visible_of_isDigit (h : c.isDigit = true) : ' ' < c := by
  rw [Char.isDigit, Bool.and_eq_true, decide_eq_true_eq] at h
  exact Nat.lt_of_lt_of_le (by decide) h.1

/-- A number is written without blanks, also one that is not finite. -/
theorem visible_of_mem_fixed (h : c ∈ (x.fixed places).toList) : ' ' < c := by
  cases x with
  | finite negative m e =>
    have hsign : ∀ negative : Bool, (if negative then "-" else "").toList.all (' ' < ·) := by decide
    rw [Binary64.fixed, String.toList_append, String.toList_ofList, List.mem_append] at h
    rcases h with h | h
    · exact of_decide_eq_true (List.all_eq_true.mp (hsign negative) c h)
    · by_cases hpoint : c = '.'
      · subst c
        decide
      · exact visible_of_isDigit (isDigit_of_mem_placed h hpoint)
  | infinite negative =>
    have hall : ∀ negative : Bool,
        (if negative then "-inf" else "inf").toList.all (' ' < ·) := by decide
    exact of_decide_eq_true (List.all_eq_true.mp (hall negative) c h)
  | notANumber =>
    have hall : "NaN".toList.all (' ' < ·) := by decide
    exact of_decide_eq_true (List.all_eq_true.mp hall c h)

end StorageTrials.Number

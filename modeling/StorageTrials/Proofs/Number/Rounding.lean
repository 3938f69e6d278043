import Mathlib.Algebra.Order.Field.Rat
import Mathlib.Algebra.Order.Group.Abs
import Mathlib.Algebra.Ring.Parity
import Mathlib.Data.Nat.Cast.Order.Field
import Mathlib.Tactic.FieldSimp
import Mathlib.Tactic.Linarith
import StorageTrials.Number.Rounding

namespace StorageTrials.Number

variable {x y : ℚ} {m n num den : Nat}

/-- Whether `n` is the whole number nearest to `x`, or the even one of the two nearest. -/
structure Rounds (x : ℚ) (n : Nat) : Prop where
  near : |x - n| ≤ 1 / 2
  tie : |x - n| = 1 / 2 → Even n

theorem rounds_natCast (n : Nat) : Rounds n n := by
  refine ⟨?_, fun h => ?_⟩
  · rw [sub_self, abs_zero]
    norm_num
  · rw [sub_self, abs_zero] at h
    norm_num at h

theorem Rounds.even_of_half_below (h : Rounds x n) (hx : x = n - 1 / 2) : Even n := by
  apply h.tie
  rw [abs_of_nonpos (by linarith)]
  linarith

theorem Rounds.even_of_half_above (h : Rounds x n) (hx : x = n + 1 / 2) : Even n := by
  apply h.tie
  rw [abs_of_nonneg (by linarith)]
  linarith

theorem Rounds.mono (hx : Rounds x m) (hy : Rounds y n) (h : x ≤ y) : m ≤ n := by
  by_contra hlt
  have hle : (n : ℚ) + 1 ≤ m := by exact_mod_cast Nat.lt_of_not_le hlt
  have hxm := (abs_le.mp hx.near).1
  have hyn := (abs_le.mp hy.near).2
  have hsucc : (m : ℚ) = n + 1 := by linarith
  have hm : Even m := hx.even_of_half_below (by linarith)
  have hn : Even n := hy.even_of_half_above (by linarith)
  have hsucc' : m = n + 1 := by exact_mod_cast hsucc
  rw [hsucc', Nat.even_add_one] at hm
  exact hm hn

theorem Rounds.unique (h : Rounds x m) (h' : Rounds x n) : m = n :=
  Nat.le_antisymm (h.mono h' le_rfl) (h'.mono h le_rfl)

/-- An even number is reached from half a unit below it on. -/
theorem Rounds.le_iff_of_even (h : Rounds x n) (hm : Even m) : m ≤ n ↔ (m : ℚ) - 1 / 2 ≤ x := by
  constructor
  · intro hle
    have hcast : (m : ℚ) ≤ n := by exact_mod_cast hle
    have hlow := (abs_le.mp h.near).1
    linarith
  · intro hle
    by_contra hlt
    have hcast : (n : ℚ) + 1 ≤ m := by exact_mod_cast Nat.lt_of_not_le hlt
    have hhigh := (abs_le.mp h.near).2
    -- there is only the half way left, and from there it goes to the even one
    have hsucc : (m : ℚ) = n + 1 := by linarith
    have hn : Even n := h.even_of_half_above (by linarith)
    have hsucc' : m = n + 1 := by exact_mod_cast hsucc
    rw [hsucc', Nat.even_add_one] at hm
    exact hm hn

theorem even_roundHalfEven (h : 0 < den)
    (htie : 2 * num = 2 * (roundHalfEven num den * den) + den ∨
      2 * num + den = 2 * (roundHalfEven num den * den)) : Even (roundHalfEven num den) := by
  have hdiv := Nat.div_add_mod' num den
  have hmod := Nat.mod_lt num h
  have hsucc : (num / den + 1) * den = num / den * den + den := Nat.succ_mul _ _
  unfold roundHalfEven at htie ⊢
  dsimp only at htie ⊢
  split
  case isTrue hlow =>
    rw [if_pos hlow] at htie
    omega
  case isFalse hlow =>
    rw [if_neg hlow] at htie
    split
    case isTrue hhigh =>
      rw [if_pos hhigh, hsucc] at htie
      omega
    case isFalse hhigh =>
      split
      case isTrue heven => exact Nat.even_iff.mpr heven
      case isFalse hodd => exact Nat.even_iff.mpr (by omega)

theorem rounds_roundHalfEven (num : Nat) (h : 0 < den) :
    Rounds (num / den) (roundHalfEven num den) := by
  have hden : (0 : ℚ) < den := by exact_mod_cast h
  obtain ⟨hlow, hhigh⟩ := roundHalfEven_near num h
  have hscaled : (num / den - roundHalfEven num den : ℚ) * (2 * den) =
      2 * num - 2 * (roundHalfEven num den * den) := by
    field_simp
  refine ⟨?_, fun htie => even_roundHalfEven h ?_⟩
  · have hlow' : (2 * num : ℚ) ≤ 2 * roundHalfEven num den * den + den := by exact_mod_cast hlow
    have hhigh' : (2 * roundHalfEven num den * den : ℚ) ≤ 2 * num + den := by exact_mod_cast hhigh
    rw [abs_le]
    constructor <;> nlinarith
  · rcases (abs_eq (by norm_num)).mp htie with hhalf | hhalf <;> rw [hhalf] at hscaled
    · left
      have hcast : (2 * num : ℚ) = 2 * (roundHalfEven num den * den) + den := by linarith
      exact_mod_cast hcast
    · right
      have hcast : (2 * num + den : ℚ) = 2 * (roundHalfEven num den * den) := by linarith
      exact_mod_cast hcast

theorem roundHalfEven_eq_of_rounds (hden : 0 < den) (h : Rounds (num / den) n) :
    roundHalfEven num den = n :=
  (rounds_roundHalfEven num hden).unique h

end StorageTrials.Number

import Mathlib.Algebra.Order.Field.Power
import Mathlib.Tactic.Positivity
import Mathlib.Tactic.Ring
import StorageTrials.Number.Fixed
import StorageTrials.Proofs.Number.Rounding

namespace StorageTrials.Number.Binary64

variable {x : Binary64} {q : ℚ} {m n num den : Nat} {e k : Int}

theorem two_zpow (e : Int) : (2 : ℚ) ^ e = 2 ^ e.toNat / 2 ^ (-e).toNat := by
  rw [← zpow_natCast, ← zpow_natCast, ← zpow_sub₀ (by norm_num), Int.toNat_sub_toNat_neg]

theorem numerator_div_denominator (m : Nat) (e : Int) :
    (numerator m e / denominator e : ℚ) = m * 2 ^ e := by
  rw [numerator, denominator, two_zpow]
  push_cast
  exact mul_div_assoc _ _ _

theorem denominator_pos (e : Int) : 0 < denominator e := Nat.two_pow_pos _

theorem shifted_div_shifted (num den : Nat) (k : Int) :
    ((num * 2 ^ (-k).toNat : Nat) / (den * 2 ^ k.toNat : Nat) : ℚ) = num / den / 2 ^ k := by
  rw [two_zpow]
  push_cast
  field_simp

theorem shifted_pos (hden : 0 < den) (k : Int) : 0 < den * 2 ^ k.toNat :=
  Nat.mul_pos hden (Nat.two_pow_pos _)

theorem shifted_lt_iff (hden : 0 < den) (c : Nat) :
    num * 2 ^ (-k).toNat < c * (den * 2 ^ k.toNat) ↔ (num / den : ℚ) < c * 2 ^ k := by
  have hpos : (0 : ℚ) < (den * 2 ^ k.toNat : Nat) := by exact_mod_cast shifted_pos hden k
  rw [← div_lt_iff₀ (by positivity), ← shifted_div_shifted, div_lt_iff₀ hpos]
  norm_cast

theorem shifted_eq (hden : 0 < den) (h : (num / den : ℚ) = m * 2 ^ k) :
    num * 2 ^ (-k).toNat = m * (den * 2 ^ k.toNat) := by
  have hpos : (0 : ℚ) < (den * 2 ^ k.toNat : Nat) := by exact_mod_cast shifted_pos hden k
  have hdiv := shifted_div_shifted num den k
  rw [h, mul_div_cancel_right₀ _ (by positivity), div_eq_iff hpos.ne'] at hdiv
  exact_mod_cast hdiv

theorem two_pow_log2_le (h : 0 < n) : (2 : ℚ) ^ (n.log2 : Int) ≤ n := by
  rw [zpow_natCast]
  exact_mod_cast Nat.log2_self_le (Nat.ne_of_gt h)

theorem lt_two_pow_log2 (n : Nat) : (n : ℚ) < 2 ^ (n.log2 + 1 : Int) := by
  have hlt : n < 2 ^ (n.log2 + 1) := Nat.lt_log2_self
  exact_mod_cast hlt

theorem log2_sub_log2 (hnum : 0 < num) (hden : 0 < den) (hlow : (2 : ℚ) ^ k ≤ num / den)
    (hhigh : (num / den : ℚ) < 2 ^ (k + 1)) :
    (num.log2 : Int) - den.log2 = k ∨ (num.log2 : Int) - den.log2 = k + 1 := by
  have hden' : (0 : ℚ) < den := by exact_mod_cast hden
  have hbelow : (2 : ℚ) ^ k < 2 ^ (num.log2 + 1 - den.log2 : Int) := by
    refine hlow.trans_lt ?_
    rw [zpow_sub₀ (by norm_num)]
    exact div_lt_div₀ (lt_two_pow_log2 num) (two_pow_log2_le hden) (by positivity) (by positivity)
  have habove : (2 : ℚ) ^ (num.log2 - (den.log2 + 1) : Int) < 2 ^ (k + 1) := by
    refine lt_of_le_of_lt ?_ hhigh
    rw [zpow_sub₀ (by norm_num)]
    exact div_le_div₀ (by positivity) (two_pow_log2_le hnum) hden' (lt_two_pow_log2 den).le
  rw [zpow_lt_zpow_iff_right₀ (by norm_num)] at hbelow habove
  omega

theorem exponentOf_eq (hnum : 0 < num) (hden : 0 < den) (h : (num / den : ℚ) = m * 2 ^ e)
    (hlow : 2 ^ 52 ≤ m) (hhigh : m < 2 ^ 53) (he : minExponent ≤ e) : exponentOf num den = e := by
  have hpos : (0 : ℚ) < 2 ^ e := by positivity
  have hm : (2 : ℚ) ^ 52 ≤ m := by exact_mod_cast hlow
  have hm' : (m : ℚ) < 2 ^ 53 := by exact_mod_cast hhigh
  have hq : (2 : ℚ) ^ (e + 52) ≤ num / den := by
    rw [h, zpow_add₀ (by norm_num), mul_comm]
    exact mul_le_mul_of_nonneg_right hm hpos.le
  have hq' : (num / den : ℚ) < 2 ^ (e + 52 + 1) := by
    rw [h, add_assoc, zpow_add₀ (by norm_num), mul_comm]
    exact mul_lt_mul_of_pos_left hm' hpos
  unfold exponentOf
  dsimp only
  rcases log2_sub_log2 hnum hden hq hq' with hlog | hlog
  · have hlarge : ¬ num * 2 ^ (-e).toNat < 2 ^ 52 * (den * 2 ^ e.toNat) := by
      rw [shifted_lt_iff hden, h, not_lt]
      exact mul_le_mul_of_nonneg_right (by exact_mod_cast hlow) hpos.le
    rw [hlog, Int.add_sub_cancel, if_neg hlarge]
    exact max_eq_right he
  · have hsmall : num * 2 ^ (-(e + 1)).toNat < 2 ^ 52 * (den * 2 ^ (e + 1).toNat) := by
      rw [shifted_lt_iff hden]
      refine hq'.trans_eq ?_
      rw [zpow_add₀ (by norm_num), zpow_add₀ (by norm_num), zpow_add₀ (by norm_num)]
      push_cast
      ring
    have hexp : e + 52 + 1 - 52 = e + 1 := by omega
    rw [hlog, hexp, if_pos hsmall, Int.add_sub_cancel]
    exact max_eq_right he

/-- A number with a significand of 53 bits is not rounded. -/
theorem ofRatio_exact (hden : 0 < den) (h : (num / den : ℚ) = m * 2 ^ e) (hlow : 2 ^ 52 ≤ m)
    (hhigh : m < 2 ^ 53) (he : minExponent ≤ e) (he' : e ≤ maxExponent) :
    ofRatio false num den = .finite false m e := by
  have hm : (0 : ℚ) < m := by exact_mod_cast Nat.lt_of_lt_of_le (by decide) hlow
  have hnum : 0 < num := by
    rcases Nat.eq_zero_or_pos num with rfl | hpos
    · have hzero : (m : ℚ) * 2 ^ e = 0 := by rw [← h]; simp
      have : (0 : ℚ) < m * 2 ^ e := by positivity
      linarith
    · exact hpos
  have hround : roundHalfEven (num * 2 ^ (-e).toNat) (den * 2 ^ e.toNat) = m := by
    rw [shifted_eq hden h]
    exact roundHalfEven_mul_right m (shifted_pos hden e)
  have hexp := exponentOf_eq hnum hden h hlow hhigh he
  rw [ofRatio, if_neg (Nat.ne_of_gt hnum)]
  simp only [hexp, hround]
  rw [if_neg (Nat.ne_of_lt hhigh)]
  exact if_neg (Int.not_lt.mpr he')

/-- The number is exactly `q`, and nothing is lost as long as it does not fall below one. -/
def Holds (x : Binary64) (q : ℚ) : Prop :=
  ∃ m e, x = .finite false m e ∧ 2 ^ 52 ≤ m ∧ m < 2 ^ 53 ∧ -52 ≤ e ∧ e ≤ 0 ∧ (m * 2 ^ e : ℚ) = q

theorem holds_ofNat (hpos : 0 < n) (h : n < 2 ^ 53) : (ofNat n).Holds n := by
  have hlog : n.log2 < 53 := (Nat.log2_lt (Nat.ne_of_gt hpos)).mpr h
  have hlow : 2 ^ 52 ≤ n * 2 ^ (52 - n.log2) := by
    have hsplit : 2 ^ n.log2 * 2 ^ (52 - n.log2) = 2 ^ 52 := by
      rw [← Nat.pow_add]
      congr 1
      omega
    rw [← hsplit]
    exact Nat.mul_le_mul_right _ (Nat.log2_self_le (Nat.ne_of_gt hpos))
  have hhigh : n * 2 ^ (52 - n.log2) < 2 ^ 53 := by
    have hsplit : 2 ^ (n.log2 + 1) * 2 ^ (52 - n.log2) = 2 ^ 53 := by
      rw [← Nat.pow_add]
      congr 1
      omega
    rw [← hsplit]
    exact Nat.mul_lt_mul_of_pos_right Nat.lt_log2_self (Nat.two_pow_pos _)
  have hvalue : ((n * 2 ^ (52 - n.log2) : Nat) * 2 ^ (n.log2 - 52 : Int) : ℚ) = n := by
    have hexp : (n.log2 - 52 : Int) = -((52 - n.log2 : Nat) : Int) := by omega
    rw [hexp, zpow_neg, zpow_natCast]
    push_cast
    field_simp
  refine ⟨_, _, ?_, hlow, hhigh, ?_, ?_, hvalue⟩
  · refine ofRatio_exact Nat.one_pos ?_ hlow hhigh ?_ ?_
    · rw [hvalue, Nat.cast_one, div_one]
    · simp only [minExponent]
      omega
    · simp only [maxExponent]
      omega
  · omega
  · omega

theorem kibi_eq : (1024 : Binary64) = .finite false (2 ^ 52) (-42) := by
  change ofRatio false 1024 1 = _
  refine ofRatio_exact Nat.one_pos ?_ (le_refl _) (by decide) (by decide) (by decide)
  norm_num

theorem finite_div_finite (hn : n ≠ 0) (m : Nat) (e k : Int) :
    finite false m e / finite false n k =
      ofRatio false (numerator m e * denominator k) (denominator e * numerator n k) :=
  if_neg hn

theorem Holds.div_kibi (hx : x.Holds q) (h : 1024 ≤ q) : (x / 1024).Holds (q / 1024) := by
  obtain ⟨m, e, rfl, hlow, hhigh, hmin, hmax, rfl⟩ := hx
  have hvalue : ((numerator m e * denominator (-42) : Nat) /
      (denominator e * numerator (2 ^ 52) (-42) : Nat) : ℚ) = m * 2 ^ (e - 10) := by
    push_cast
    rw [mul_div_mul_comm, numerator_div_denominator, ← inv_div (numerator _ _ : ℚ),
      numerator_div_denominator, zpow_sub₀ (by norm_num)]
    norm_num
    ring
  have hden : 0 < denominator e * numerator (2 ^ 52) (-42) :=
    Nat.mul_pos (denominator_pos e) (by decide)
  -- what is not less than the divisor has room for its exponent
  have hroom : -42 ≤ e := by
    by_contra hlt
    have hle : (2 : ℚ) ^ e ≤ 2 ^ (-43 : Int) := zpow_le_zpow_right₀ (by norm_num) (by omega)
    have hm : (m : ℚ) < 2 ^ 53 := by exact_mod_cast hhigh
    have hlt' : (m * 2 ^ e : ℚ) < 2 ^ 53 * 2 ^ (-43 : Int) :=
      mul_lt_mul hm hle (by positivity) (by positivity)
    norm_num at hlt'
    linarith
  refine ⟨m, e - 10, ?_, hlow, hhigh, by omega, by omega, ?_⟩
  · rw [kibi_eq, finite_div_finite (by decide)]
    refine ofRatio_exact hden hvalue hlow hhigh ?_ ?_
    · simp only [minExponent]
      omega
    · simp only [maxExponent]
      omega
  · rw [zpow_sub₀ (by norm_num)]
    norm_num
    ring

theorem ofNat_zero : ofNat 0 = .finite false 0 minExponent := by
  rw [ofNat, ofRatio, if_pos rfl]

theorem not_atLeast_zero (hn : 0 < n) (e : Int) : ¬ (finite false 0 e).atLeast n = true := by
  intro h
  have hle : n * denominator e ≤ numerator 0 e := of_decide_eq_true h
  rw [numerator, Nat.zero_mul] at hle
  exact absurd (Nat.mul_pos hn (denominator_pos e)) (Nat.not_lt.mpr hle)

theorem Holds.atLeast_iff (hx : x.Holds q) (n : Nat) : x.atLeast n = true ↔ (n : ℚ) ≤ q := by
  obtain ⟨m, e, rfl, -, -, -, -, rfl⟩ := hx
  have hpos : (0 : ℚ) < denominator e := by exact_mod_cast denominator_pos e
  have hcast : n * denominator e ≤ numerator m e ↔ (n * denominator e : ℚ) ≤ numerator m e := by
    norm_cast
  rw [← numerator_div_denominator, le_div_iff₀ hpos, ← hcast]
  exact decide_eq_true_iff

theorem Holds.fixed (hx : x.Holds (num / den)) (hden : 0 < den) (places : Nat) :
    x.fixed places = String.ofList (placed places (roundHalfEven (num * 10 ^ places) den)) := by
  obtain ⟨m, e, rfl, -, -, -, -, hq⟩ := hx
  have hunits : decimalUnits places m e = roundHalfEven (num * 10 ^ places) den := by
    refine roundHalfEven_eq_of_rounds (denominator_pos e) ?_
    have hsame : ((numerator m e * 10 ^ places : Nat) / denominator e : ℚ) =
        (num * 10 ^ places : Nat) / den := by
      push_cast
      rw [mul_div_right_comm, numerator_div_denominator, hq, mul_div_right_comm]
    rw [hsame]
    exact rounds_roundHalfEven _ hden
  rw [Binary64.fixed, hunits]
  exact String.empty_append

end StorageTrials.Number.Binary64

import Mathlib.Data.Nat.Log
import StorageTrials.Proofs.Number.Exact
import StorageTrials.Proofs.Number.Places
import StorageTrials.Text.Separated
import StorageTrials.Units

namespace StorageTrials.Units

open StorageTrials.Number StorageTrials.Text

variable {x : Binary64} {q : ℚ} {a b k n t : Nat}

def allUnits : List String := "B" :: largerUnits

/-- A number is divided until it is less than 1024 or no unit is left. -/
theorem climb_holds (hx : x.Holds q) (hq : 1 ≤ q) (unit : String) (larger : List String) :
    ∃ k ≤ larger.length, ∃ y u, climb x unit larger = (y, u) ∧ (unit :: larger)[k]? = some u ∧
      y.Holds (q / 1024 ^ k) ∧ 1024 ^ k ≤ q ∧ (k < larger.length → q < 1024 ^ (k + 1)) := by
  induction larger generalizing x q unit with
  | nil => exact ⟨0, le_refl _, x, unit, rfl, rfl, by simpa using hx, by simpa using hq, by simp⟩
  | cons next rest ih =>
    have hreached : x.atLeast 1024 = true ↔ 1024 ≤ q := hx.atLeast_iff 1024
    rw [climb]
    by_cases hlarge : 1024 ≤ q
    · obtain ⟨k, hk, y, u, hclimb, hu, hy, hlow, hhigh⟩ :=
        ih (hx.div_kibi hlarge) (by linarith) next
      refine ⟨k + 1, Nat.succ_le_succ hk, y, u, ?_, hu, ?_, ?_, fun hlt => ?_⟩
      · rw [if_pos (hreached.mpr hlarge), hclimb]
      · rwa [div_div, ← pow_succ'] at hy
      · rw [pow_succ]
        linarith
      · have hhigh' := hhigh (Nat.lt_of_succ_lt_succ hlt)
        rw [pow_succ]
        linarith
    · refine ⟨0, Nat.zero_le _, x, unit, ?_, rfl, by simpa using hx, by simpa using hq, ?_⟩
      · rw [if_neg fun h => hlarge (hreached.mp h)]
      · intro _
        simpa using not_le.mp hlarge

def tier (b : Nat) : Nat := Nat.log 1024 b

def tenths (b : Nat) : Nat := roundHalfEven (b * 10) (1024 ^ tier b)

theorem tier_eq (hlow : 1024 ^ k ≤ b) (hhigh : b < 1024 ^ (k + 1)) : tier b = k :=
  Nat.log_eq_of_pow_le_of_lt_pow hlow hhigh

theorem tier_mono (h : a ≤ b) : tier a ≤ tier b := Nat.log_mono_right h

theorem tier_le (h : b < 2 ^ 53) : tier b ≤ 5 := by
  have hlarge : (2 : Nat) ^ 53 ≤ 1024 ^ 6 := by norm_num
  exact Nat.lt_succ_iff.mp (Nat.log_lt_of_lt_pow' (by decide) (h.trans_le hlarge))

theorem formatBytes_of_climb {y : Binary64} {u : String}
    (h : climb (Binary64.ofNat b) "B" largerUnits = (y, u)) :
    formatBytes b = (if u = "B" then decimal b else y.fixed 1) ++ " " ++ u := by
  rw [formatBytes, h]
  split
  case h_1 heq =>
    obtain ⟨-, rfl⟩ := Prod.mk.inj heq
    rw [if_pos rfl, String.append_assoc]
    rfl
  case h_2 hne heq =>
    obtain ⟨rfl, rfl⟩ := Prod.mk.inj heq
    rw [if_neg fun hu => hne hu]

theorem eq_byte_iff {u : String} (h : allUnits[k]? = some u) : u = "B" ↔ k = 0 := by
  cases k with
  | zero =>
    cases h
    exact iff_of_true rfl rfl
  | succ k =>
    have hmem : u ∈ largerUnits := List.mem_of_getElem? h
    refine iff_of_false ?_ (Nat.succ_ne_zero k)
    rintro rfl
    revert hmem
    decide

theorem formatBytes_eq (h : b < 2 ^ 53) : ∃ u, allUnits[tier b]? = some u ∧
    formatBytes b =
      (if tier b = 0 then decimal b else String.ofList (placed 1 (tenths b))) ++ " " ++ u := by
  rcases Nat.eq_zero_or_pos b with rfl | hpos
  · have hclimb : climb (Binary64.ofNat 0) "B" largerUnits = (Binary64.ofNat 0, "B") :=
      if_neg (by rw [Binary64.ofNat_zero]; exact Binary64.not_atLeast_zero (by decide) _)
    refine ⟨"B", rfl, ?_⟩
    rw [formatBytes_of_climb hclimb, if_pos rfl, tier, Nat.log_zero_right, if_pos rfl]
  · obtain ⟨k, hk, y, u, hclimb, hu, hy, hlow, hhigh⟩ :=
      climb_holds (Binary64.holds_ofNat hpos h) (by exact_mod_cast hpos) "B" largerUnits
    have hlow' : 1024 ^ k ≤ b := by exact_mod_cast hlow
    have hhigh' : b < 1024 ^ (k + 1) := by
      rcases Nat.lt_or_eq_of_le hk with hlt | rfl
      · exact_mod_cast hhigh hlt
      · exact h.trans_le (by decide)
    have hsize : y.Holds (b / (1024 ^ k : Nat)) := by
      push_cast
      exact hy
    rw [formatBytes_of_climb hclimb, tenths, tier_eq hlow' hhigh', hsize.fixed (by positivity)]
    refine ⟨u, hu, ?_⟩
    simp only [eq_byte_iff hu, pow_one]

def shownSize (b : Nat) : ℚ := if tier b = 0 then b else tenths b / 10 * 1024 ^ tier b

theorem rounds_tenths (b : Nat) : Rounds (b * 10 / 1024 ^ tier b) (tenths b) := by
  have hpos : 0 < 1024 ^ tier b := by positivity
  have h := rounds_roundHalfEven (b * 10) hpos
  push_cast at h
  exact h

theorem shownSize_of_eq_zero (h : tier b = 0) : shownSize b = b := if_pos h

theorem shownSize_of_pos (h : 0 < tier b) : shownSize b = tenths b / 10 * 1024 ^ tier b :=
  if_neg (Nat.ne_of_gt h)

theorem pow_tier_le (h : 0 < tier b) : 1024 ^ tier b ≤ b := by
  apply Nat.pow_log_le_self
  rintro rfl
  rw [tier, Nat.log_zero_right] at h
  exact absurd h (Nat.lt_irrefl 0)

theorem lt_pow_tier (b : Nat) : b < 1024 ^ (tier b + 1) := Nat.lt_pow_succ_log_self (by decide) b

/-- What is shown is off by half a tenth of a unit at most. -/
theorem abs_shownSize_sub_le (h : 0 < tier b) : |shownSize b - b| ≤ 1024 ^ tier b / 20 := by
  have hpos : (0 : ℚ) < 1024 ^ tier b := by positivity
  have hdiff : shownSize b - b =
      -(b * 10 / 1024 ^ tier b - tenths b) * (1024 ^ tier b / 10) := by
    rw [shownSize_of_pos h]
    field_simp
    ring
  rw [hdiff, abs_mul, abs_neg, abs_of_pos (by positivity : (0 : ℚ) < 1024 ^ tier b / 10)]
  have hnear := mul_le_mul_of_nonneg_right (rounds_tenths b).near
    (by positivity : (0 : ℚ) ≤ 1024 ^ tier b / 10)
  linarith

theorem pow_tier_le_shownSize (h : 0 < tier b) : 1024 ^ tier b ≤ shownSize b := by
  have hpos : (0 : ℚ) < 1024 ^ tier b := by positivity
  have hle : (10 : ℚ) ≤ b * 10 / 1024 ^ tier b := by
    have hcast : (1024 ^ tier b : ℚ) ≤ b := by exact_mod_cast pow_tier_le h
    rw [le_div_iff₀ hpos]
    linarith
  have hten : (10 : ℚ) ≤ tenths b := by
    exact_mod_cast (rounds_natCast 10).mono (rounds_tenths b) (by exact_mod_cast hle)
  rw [shownSize_of_pos h]
  have hmul := mul_le_mul_of_nonneg_right hten hpos.le
  linarith

theorem tenths_le (b : Nat) : tenths b ≤ 10240 := by
  have hpos : (0 : ℚ) < 1024 ^ tier b := by positivity
  have hlt : (b : ℚ) < 1024 ^ (tier b + 1) := by exact_mod_cast lt_pow_tier b
  have hle : (b * 10 / 1024 ^ tier b : ℚ) ≤ (10240 : Nat) := by
    rw [div_le_iff₀ hpos]
    rw [pow_succ] at hlt
    push_cast
    linarith
  exact (rounds_tenths b).mono (rounds_natCast 10240) hle

/-- Rounding may reach the next unit, but not go beyond it. -/
theorem shownSize_le_pow (b : Nat) : shownSize b ≤ 1024 ^ (tier b + 1) := by
  rcases Nat.eq_zero_or_pos (tier b) with h | h
  · rw [shownSize_of_eq_zero h]
    exact_mod_cast (lt_pow_tier b).le
  · have hpos : (0 : ℚ) < 1024 ^ tier b := by positivity
    have hten : (tenths b : ℚ) ≤ 10240 := by exact_mod_cast tenths_le b
    rw [shownSize_of_pos h, pow_succ]
    have hmul := mul_le_mul_of_nonneg_right hten hpos.le
    linarith

theorem shownSize_mono (h : a ≤ b) : shownSize a ≤ shownSize b := by
  rcases Nat.lt_or_eq_of_le (tier_mono h) with hlt | heq
  · -- at the most, the smaller size is shown as one of the next unit
    calc shownSize a ≤ 1024 ^ (tier a + 1) := shownSize_le_pow a
      _ ≤ 1024 ^ tier b := pow_le_pow_right₀ (by norm_num) hlt
      _ ≤ shownSize b := pow_tier_le_shownSize (Nat.zero_lt_of_lt hlt)
  · have hcast : (a : ℚ) ≤ b := by exact_mod_cast h
    rcases Nat.eq_zero_or_pos (tier b) with hb | hb
    · rwa [shownSize_of_eq_zero hb, shownSize_of_eq_zero (heq.trans hb)]
    · have hpos : (0 : ℚ) < 1024 ^ tier b := by positivity
      have hle : (a * 10 / 1024 ^ tier a : ℚ) ≤ b * 10 / 1024 ^ tier b := by
        rw [heq]
        exact div_le_div_of_nonneg_right (by linarith) hpos.le
      have hten : (tenths a : ℚ) ≤ tenths b := by
        exact_mod_cast (rounds_tenths a).mono (rounds_tenths b) hle
      rw [shownSize_of_pos hb, shownSize_of_pos (heq ▸ hb), heq]
      exact mul_le_mul_of_nonneg_right (by linarith) hpos.le

def shownNumber (b : Nat) : ℚ := if tier b = 0 then b else tenths b / 10

theorem shownNumber_of_eq_zero (h : tier b = 0) : shownNumber b = b := if_pos h

theorem shownNumber_of_pos (h : 0 < tier b) : shownNumber b = tenths b / 10 :=
  if_neg (Nat.ne_of_gt h)

theorem shownNumber_mul (b : Nat) : shownNumber b * 1024 ^ tier b = shownSize b := by
  rcases Nat.eq_zero_or_pos (tier b) with h | h
  · rw [shownNumber_of_eq_zero h, shownSize_of_eq_zero h, h, pow_zero, mul_one]
  · rw [shownNumber_of_pos h, shownSize_of_pos h]

theorem shownNumber_le (b : Nat) : shownNumber b ≤ 1024 := by
  have hpos : (0 : ℚ) < 1024 ^ tier b := by positivity
  have hle := shownSize_le_pow b
  rw [← shownNumber_mul, pow_succ'] at hle
  exact le_of_mul_le_mul_right hle hpos

/-- A size of the unit `k` that lacks half a tenth of it at most to the next unit. -/
def RoundsUp (b k : Nat) : Prop := 20 * 1024 ^ (k + 1) ≤ 20 * b + 1024 ^ k ∧ b < 1024 ^ (k + 1)

instance : Decidable (RoundsUp b k) := inferInstanceAs (Decidable (_ ∧ _))

theorem RoundsUp.tier_eq (h : RoundsUp b k) : tier b = k := by
  refine Units.tier_eq ?_ h.2
  have hnear := h.1
  rw [pow_succ] at hnear
  omega

theorem RoundsUp.pos (h : RoundsUp b k) : 0 < k := by
  rw [Nat.pos_iff_ne_zero]
  rintro rfl
  have hnear : 20 * 1024 ≤ 20 * b + 1 := h.1
  have hlt : b < 1024 := h.2
  omega

theorem le_tenths_iff (b : Nat) : 10240 ≤ tenths b ↔ RoundsUp b (tier b) := by
  have hpos : (0 : ℚ) < 1024 ^ tier b := by positivity
  rw [(rounds_tenths b).le_iff_of_even (by decide), le_div_iff₀ hpos, RoundsUp,
    and_iff_left (lt_pow_tier b), pow_succ]
  constructor
  · intro hle
    have hnear : (20 * (1024 ^ tier b * 1024) : ℚ) ≤ 20 * b + 1024 ^ tier b := by
      push_cast at hle
      linarith
    exact_mod_cast hnear
  · intro hle
    have hnear : (20 * (1024 ^ tier b * 1024) : ℚ) ≤ 20 * b + 1024 ^ tier b := by
      exact_mod_cast hle
    push_cast
    linarith

theorem RoundsUp.tenths_eq (h : RoundsUp b k) : tenths b = 10240 :=
  Nat.le_antisymm (tenths_le b) ((le_tenths_iff b).mpr (h.tier_eq ▸ h))

theorem RoundsUp.shownNumber_eq (h : RoundsUp b k) : shownNumber b = 1024 := by
  rw [shownNumber_of_pos (h.tier_eq ▸ h.pos), h.tenths_eq]
  norm_num

theorem shownNumber_lt_iff (b : Nat) : shownNumber b < 1024 ↔ ∀ k, ¬ RoundsUp b k := by
  constructor
  · intro hlt k hup
    exact absurd hup.shownNumber_eq (ne_of_lt hlt)
  · intro hnone
    rcases Nat.eq_zero_or_pos (tier b) with h | h
    · have hlt := lt_pow_tier b
      rw [h] at hlt
      rw [shownNumber_of_eq_zero h]
      exact_mod_cast hlt
    · have hlt : tenths b < 10240 := Nat.lt_of_not_le fun hle => hnone _ ((le_tenths_iff b).mp hle)
      have hcast : (tenths b : ℚ) < 10240 := by exact_mod_cast hlt
      rw [shownNumber_of_pos h]
      linarith

def decimal? (cs : List Char) : Option ℚ :=
  match pieces '.' cs with
  | [whole] => (readDigits? whole).map fun n : Nat => (n : ℚ)
  | [whole, places] =>
    (readDigits? (whole ++ places)).map fun n : Nat => (n / 10 ^ places.length : ℚ)
  | _ => none

def size? (text : String) : Option ℚ :=
  match pieces ' ' text.toList with
  | [number, unit] => do
    some ((← decimal? number) * 1024 ^ (← allUnits.idxOf? (String.ofList unit)))
  | _ => none

def shown? (text : String) : Option (ℚ × String) :=
  match pieces ' ' text.toList with
  | [number, unit] => (decimal? number).map (·, String.ofList unit)
  | _ => none

theorem placed_one (t : Nat) : placed 1 t = digits (t / 10) ++ ['.', digitChar (t % 10)] := by
  have hdigits : digits (t % 10 ^ 1) = [digitChar (t % 10)] := by
    rw [digits, if_pos (Nat.mod_lt _ (by decide))]
  rw [placed, paddedDigits, hdigits]
  rfl

theorem ofList_placed_one (t : Nat) :
    String.ofList (placed 1 t) = decimal (t / 10) ++ "." ++ decimal (t % 10) := by
  have hlast : decimal (t % 10) = String.ofList [digitChar (t % 10)] := by
    rw [decimal, digits, if_pos (Nat.mod_lt _ (by decide))]
  rw [placed_one, hlast, decimal, ← String.toList_inj]
  simp only [String.toList_append, String.toList_ofList, List.append_assoc]
  rfl

theorem not_mem_digits {c : Char} (hc : c.isDigit = false) (n : Nat) : c ∉ digits n := by
  intro h
  rw [isDigit_of_mem_digits h] at hc
  cases hc

theorem decimal?_digits (n : Nat) : decimal? (digits n) = some (n : ℚ) := by
  rw [decimal?, pieces_of_not_mem (not_mem_digits rfl n)]
  dsimp only
  rw [readDigits?_digits, Option.map_some]

theorem readDigits?_tenths (t : Nat) :
    readDigits? (digits (t / 10) ++ [digitChar (t % 10)]) = some t := by
  have hmod : t % 10 < 10 := Nat.mod_lt t (by decide)
  have hall : (digits (t / 10) ++ [digitChar (t % 10)]).all Char.isDigit = true := by
    rw [List.all_append, all_isDigit_digits, List.all_cons, isDigit_digitChar hmod]
    rfl
  have hvalue : digitsValue 0 (digits (t / 10) ++ [digitChar (t % 10)]) = t := by
    rw [digitsValue_append, digitsValue_digits]
    refine Eq.trans ?_ (Nat.div_add_mod t 10)
    exact congrArg (10 * (t / 10) + ·) (digitValue_digitChar hmod)
  rw [readDigits?, hall, hvalue]
  simp

theorem decimal?_placed (t : Nat) : decimal? (placed 1 t) = some (t / 10 : ℚ) := by
  have hpoint : '.' ∉ [digitChar (t % 10)] := by
    intro h
    have hdigit := isDigit_digitChar (Nat.mod_lt t (by decide : 0 < 10))
    rw [← List.mem_singleton.mp h] at hdigit
    cases hdigit
  rw [decimal?, placed_one, pieces_append (not_mem_digits rfl _), pieces_of_not_mem hpoint]
  dsimp only
  rw [readDigits?_tenths, Option.map_some, List.length_singleton, pow_one]

theorem idxOf?_allUnits {u : String} (hu : allUnits[k]? = some u) : allUnits.idxOf? u = some k := by
  have hall : ∀ k : Fin allUnits.length, allUnits.idxOf? allUnits[k] = some k.val := by decide
  obtain ⟨hk, rfl⟩ := List.getElem?_eq_some_iff.mp hu
  exact hall ⟨k, hk⟩

theorem shown?_eq {number : List Char} (hnumber : ' ' ∉ number) (hq : decimal? number = some q)
    {u : String} (hu : allUnits[k]? = some u) :
    shown? (String.ofList number ++ " " ++ u) = some (q, u) := by
  have hunit : ∀ u ∈ allUnits, ' ' ∉ u.toList := by decide
  have hchars : (String.ofList number ++ " " ++ u).toList = number ++ ' ' :: u.toList := by
    rw [String.toList_append, String.toList_append, String.toList_ofList, List.append_assoc]
    rfl
  rw [shown?, hchars, pieces_append hnumber,
    pieces_of_not_mem (hunit u (List.mem_of_getElem? hu))]
  dsimp only
  rw [hq, Option.map_some, String.ofList_toList]

theorem size?_of_shown? {text u : String} (h : shown? text = some (q, u))
    (hu : allUnits[k]? = some u) : size? text = some (q * 1024 ^ k) := by
  rw [shown?] at h
  split at h
  case h_1 number unit hpieces =>
    obtain ⟨q', hq, heq⟩ := Option.map_eq_some_iff.mp h
    obtain ⟨rfl, rfl⟩ := Prod.mk.inj heq
    rw [size?, hpieces]
    dsimp only
    rw [hq, idxOf?_allUnits hu]
    rfl
  case h_2 => cases h

theorem shown?_formatBytes (h : b < 2 ^ 53) :
    ∃ u, allUnits[tier b]? = some u ∧ shown? (formatBytes b) = some (shownNumber b, u) := by
  obtain ⟨u, hu, htext⟩ := formatBytes_eq h
  refine ⟨u, hu, ?_⟩
  rw [htext, shownNumber]
  split
  case isTrue => exact shown?_eq (not_mem_digits rfl b) (decimal?_digits b) hu
  case isFalse =>
    have hblank : ' ' ∉ placed 1 (tenths b) := by
      intro hmem
      exact absurd (isDigit_of_mem_placed hmem (by decide)) (by decide)
    exact shown?_eq hblank (decimal?_placed _) hu

theorem size?_formatBytes (h : b < 2 ^ 53) : size? (formatBytes b) = some (shownSize b) := by
  obtain ⟨u, hu, hshown⟩ := shown?_formatBytes h
  rw [size?_of_shown? hshown hu, shownNumber_mul]

/-- A size below `2 ^ 53` is shown in the largest unit of which there is a whole one, single bytes
as such and all else correct to the nearest tenth, a half going to the even one. What is shown is
off by half a tenth at most, and less is not shown as more. -/
theorem shown_sizes_accurate (h : b < 2 ^ 53) :
    ∃ k ≤ 5, (0 < k → 1024 ^ k ≤ b) ∧ (∀ j ≤ 5, 1024 ^ j ≤ b → j ≤ k) ∧
      ∃ unit, ["B", "KiB", "MiB", "GiB", "TiB", "PiB"][k]? = some unit ∧
      (k = 0 → formatBytes b = decimal b ++ " B") ∧
      (0 < k → ∃ t : Nat, Rounds (b * 10 / 1024 ^ k) t ∧
        formatBytes b = decimal (t / 10) ++ "." ++ decimal (t % 10) ++ " " ++ unit) ∧
      ∃ q, size? (formatBytes b) = some q ∧
        |q - b| ≤ (if k = 0 then 0 else 1024 ^ k / 20) ∧
        ∀ a ≤ b, ∃ p ≤ q, size? (formatBytes a) = some p := by
  obtain ⟨unit, hunit, htext⟩ := formatBytes_eq h
  refine ⟨tier b, tier_le h, pow_tier_le, fun j _ hj => ?_, unit, hunit, fun hzero => ?_,
    fun hpos => ⟨tenths b, rounds_tenths b, ?_⟩, shownSize b, size?_formatBytes h, ?_,
    fun a ha => ⟨shownSize a, shownSize_mono ha, size?_formatBytes (Nat.lt_of_le_of_lt ha h)⟩⟩
  · exact Nat.le_log_of_pow_le (by decide) hj
  · rw [hzero] at hunit
    cases hunit
    rw [htext, if_pos hzero, String.append_assoc]
    rfl
  · rw [htext, if_neg (Nat.ne_of_gt hpos), ofList_placed_one]
  · split
    case isTrue hzero => rw [shownSize_of_eq_zero hzero, sub_self, abs_zero]
    case isFalse hne => exact abs_shownSize_sub_le (Nat.pos_of_ne_zero hne)

theorem shown_sizes_accurate_below_unit :
    1048575 < 2 ^ 53 ∧ ∃ q, size? (formatBytes 1048575) = some q ∧ |q - 1048575| ≤ 1024 / 20 ∧
      ∃ p ≤ q, size? (formatBytes 1048063) = some p := by
  have hlt : 1048575 < 2 ^ 53 := by decide
  obtain ⟨k, -, hle, hlargest, -, -, -, -, q, hq, herror, hmono⟩ := shown_sizes_accurate hlt
  have hlow : 1 ≤ k := hlargest 1 (by decide) (by decide)
  have hhigh : k < 2 := by
    by_contra hge
    have hpow : 1024 ^ 2 ≤ 1024 ^ k := Nat.pow_le_pow_right (by decide) (Nat.not_lt.mp hge)
    exact absurd (hpow.trans (hle hlow)) (by decide)
  obtain rfl : k = 1 := by omega
  rw [if_neg Nat.one_ne_zero, pow_one] at herror
  exact ⟨hlt, q, hq, by exact_mod_cast herror, hmono _ (by decide)⟩

theorem formatBytes_of_roundsUp (h : b < 2 ^ 53) (hup : RoundsUp b k) :
    ∃ u, allUnits[k]? = some u ∧ formatBytes b = "1024.0 " ++ u := by
  obtain ⟨u, hu, htext⟩ := formatBytes_eq h
  have hnumber : String.ofList (placed 1 10240) = "1024.0" := by decide +kernel
  rw [hup.tier_eq] at hu
  refine ⟨u, hu, ?_⟩
  rw [htext, if_neg (hup.tier_eq ▸ Nat.ne_of_gt hup.pos), hup.tenths_eq, hnumber,
    String.append_assoc]
  rfl

/-- The number shown for a size below `2 ^ 53` is less than 1024 unless the size lacks half a tenth
of its unit at most to the next one. Then it is 1024, as the unit is chosen before the number is
rounded. -/
theorem number_shown_below_1024_iff (h : b < 2 ^ 53) :
    ∃ q unit, shown? (formatBytes b) = some (q, unit) ∧ q ≤ 1024 ∧
      (q < 1024 ↔ ∀ k, ¬ RoundsUp b k) ∧
      ∀ k, RoundsUp b k → 0 < k ∧ k < 5 ∧
        ["B", "KiB", "MiB", "GiB", "TiB", "PiB"][k]? = some unit ∧
        formatBytes b = "1024.0 " ++ unit := by
  obtain ⟨unit, hunit, hshown⟩ := shown?_formatBytes h
  refine ⟨shownNumber b, unit, hshown, shownNumber_le b, shownNumber_lt_iff b, fun k hup => ?_⟩
  obtain ⟨u, hu, htext⟩ := formatBytes_of_roundsUp h hup
  rw [hup.tier_eq] at hunit
  obtain rfl : u = unit := Option.some.inj (hu.symm.trans hunit)
  refine ⟨hup.pos, ?_, hunit, htext⟩
  -- no size of this range fills the greatest unit
  have hle : k ≤ 5 := hup.tier_eq ▸ tier_le h
  refine Nat.lt_of_le_of_ne hle ?_
  rintro rfl
  have hnear : 20 * 1024 ^ 6 ≤ 20 * b + 1024 ^ 5 := hup.1
  omega

theorem number_shown_below_1024_iff_mebibyte :
    (1048524 < 2 ^ 53 ∧ ∃ q unit, shown? (formatBytes 1048524) = some (q, unit) ∧ q < 1024) ∧
      1048525 < 2 ^ 53 ∧ RoundsUp 1048525 1 ∧ formatBytes 1048525 = "1024.0 KiB" := by
  have hbelow : 1048524 < 2 ^ 53 := by decide
  have hreached : 1048525 < 2 ^ 53 := by decide
  have hup : RoundsUp 1048525 1 := by decide
  refine ⟨⟨hbelow, ?_⟩, hreached, hup, ?_⟩
  · obtain ⟨q, unit, hshown, -, hiff, -⟩ := number_shown_below_1024_iff hbelow
    refine ⟨q, unit, hshown, hiff.mpr fun k hk => ?_⟩
    have htier : tier 1048524 = 1 := tier_eq (by decide) (by decide)
    obtain rfl : k = 1 := hk.tier_eq.symm.trans htier
    exact absurd hk (by decide)
  · obtain ⟨q, unit, -, -, -, htext⟩ := number_shown_below_1024_iff hreached
    obtain ⟨-, -, hunit, heq⟩ := htext 1 hup
    cases hunit
    exact heq

/-- A mebibyte less one byte is shown as 1024 kibibytes, and not in mebibytes. -/
theorem mebibyte_less_one_in_kibibytes :
    formatBytes 1048575 = "1024.0 KiB" ∧
      ¬ ∀ b < 2 ^ 53, ∀ q unit, shown? (formatBytes b) = some (q, unit) → unit ≠ "PiB" →
        q < 1024 := by
  have htext : formatBytes 1048575 = "1024.0 KiB" := by decide +kernel
  refine ⟨htext, fun hall => ?_⟩
  have hshown : shown? (formatBytes 1048575) = some (1024, "KiB") := by
    rw [htext]
    decide +kernel
  exact lt_irrefl _ (hall 1048575 (by decide) 1024 "KiB" hshown (by decide))

end StorageTrials.Units

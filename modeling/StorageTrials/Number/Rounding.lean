import StorageTrials.Instances

namespace StorageTrials.Number

/-- The whole number nearest to `num / den`; a half goes to the even neighbour. -/
def roundHalfEven (num den : Nat) : Nat :=
  let q := num / den
  let r := num % den
  if 2 * r < den then q
  else if den < 2 * r then q + 1
  else if q % 2 = 0 then q else q + 1

theorem roundHalfEven_near (num : Nat) {den : Nat} (h : 0 < den) :
    2 * num ≤ 2 * roundHalfEven num den * den + den ∧
      2 * roundHalfEven num den * den ≤ 2 * num + den := by
  have hd := Nat.div_add_mod num den
  have hr := Nat.mod_lt num h
  have hs : 2 * (num / den + 1) * den = 2 * (den * (num / den)) + 2 * den := by
    rw [Nat.mul_comm den]; simp only [Nat.mul_add, Nat.add_mul, Nat.mul_one, Nat.mul_assoc]
  have hq : 2 * (num / den) * den = 2 * (den * (num / den)) := by
    rw [Nat.mul_comm den, Nat.mul_assoc]
  unfold roundHalfEven
  dsimp only
  split
  · rw [hq]; omega
  · split
    · rw [hs]; omega
    · split
      · rw [hq]; omega
      · rw [hs]; omega

theorem roundHalfEven_mul_right (n : Nat) {den : Nat} (h : 0 < den) :
    roundHalfEven (n * den) den = n := by
  simp [roundHalfEven, Nat.mul_div_cancel n h, h]

end StorageTrials.Number

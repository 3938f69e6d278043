import StorageTrials.Instances

namespace StorageTrials.Text

def digitChar (d : Nat) : Char := Char.ofNat (48 + d)

def digitValue (c : Char) : Nat := c.toNat - 48

def digits (n : Nat) : List Char :=
  if n < 10 then [digitChar n] else digits (n / 10) ++ [digitChar (n % 10)]

/-- The value of a string of digits, continuing from `start`. -/
def digitsValue (start : Nat) (cs : List Char) : Nat :=
  cs.foldl (fun n c => 10 * n + digitValue c) start

def readDigits? (cs : List Char) : Option Nat :=
  if !cs.isEmpty && cs.all Char.isDigit then some (digitsValue 0 cs) else none

def paddedDigits (width n : Nat) : List Char :=
  let ds := digits n
  List.replicate (width - ds.length) '0' ++ ds

def decimal (n : Nat) : String := String.ofList (digits n)

theorem digitValue_digitChar {d : Nat} (h : d < 10) : digitValue (digitChar d) = d := by
  revert d; decide

theorem isDigit_digitChar {d : Nat} (h : d < 10) : (digitChar d).isDigit = true := by
  revert d; decide

theorem digits_ne_nil (n : Nat) : digits n ≠ [] := by
  unfold digits; split <;> simp

theorem all_isDigit_digits (n : Nat) : (digits n).all Char.isDigit = true := by
  fun_induction digits n with
  | case1 n h => simp [isDigit_digitChar h]
  | case2 n h ih => simp [ih, isDigit_digitChar (Nat.mod_lt n (by decide))]

theorem isDigit_of_mem_digits {c : Char} {n : Nat} (h : c ∈ digits n) : c.isDigit = true :=
  List.all_eq_true.mp (all_isDigit_digits n) c h

theorem digitsValue_append (start : Nat) (cs ds : List Char) :
    digitsValue start (cs ++ ds) = digitsValue (digitsValue start cs) ds :=
  List.foldl_append

theorem digitsValue_digits (n : Nat) : digitsValue 0 (digits n) = n := by
  fun_induction digits n with
  | case1 n h => simp [digitsValue, digitValue_digitChar h]
  | case2 n h ih =>
    rw [digitsValue_append, ih]
    simp only [digitsValue, List.foldl_cons, List.foldl_nil,
      digitValue_digitChar (Nat.mod_lt n (by decide : 0 < 10))]
    omega

theorem readDigits?_digits (n : Nat) : readDigits? (digits n) = some n := by
  simp [readDigits?, digits_ne_nil, digitsValue_digits, all_isDigit_digits]

end StorageTrials.Text

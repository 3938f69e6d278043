import StorageTrials.Number.Rounding

namespace StorageTrials.Number

/-- A binary64 number. A finite one is `significand * 2 ^ exponent` with a sign. -/
inductive Binary64
  | finite (negative : Bool) (significand : Nat) (exponent : Int)
  | infinite (negative : Bool)
  | notANumber
deriving DecidableEq, Repr

namespace Binary64

def numerator (significand : Nat) (exponent : Int) : Nat := significand * 2 ^ exponent.toNat

def denominator (exponent : Int) : Nat := 2 ^ (-exponent).toNat

def minExponent : Int := -1074

def maxExponent : Int := 971

def zero : Binary64 := .finite false 0 minExponent

def exponentOf (num den : Nat) : Int :=
  let e : Int := (num.log2 : Int) - den.log2 - 52
  let tight :=
    if num * 2 ^ (-e).toNat < 2 ^ 52 * (den * 2 ^ e.toNat) then e - 1 else e
  max minExponent tight

def ofRatio (negative : Bool) (num den : Nat) : Binary64 :=
  if num = 0 then .finite negative 0 minExponent
  else
    let e := exponentOf num den
    let m := roundHalfEven (num * 2 ^ (-e).toNat) (den * 2 ^ e.toNat)
    let (m, e) := if m = 2 ^ 53 then (2 ^ 52, e + 1) else (m, e)
    if maxExponent < e then .infinite negative else .finite negative m e

def ofNat (n : Nat) : Binary64 := ofRatio false n 1

def neg : Binary64 → Binary64
  | .finite s m e => .finite (!s) m e
  | .infinite s => .infinite (!s)
  | .notANumber => .notANumber

def mul : Binary64 → Binary64 → Binary64
  | .finite s m e, .finite t n f =>
    ofRatio (s != t) (numerator m e * numerator n f) (denominator e * denominator f)
  | .finite s m _, .infinite t | .infinite t, .finite s m _ =>
    if m = 0 then .notANumber else .infinite (s != t)
  | .infinite s, .infinite t => .infinite (s != t)
  | .notANumber, _ | _, .notANumber => .notANumber

def div : Binary64 → Binary64 → Binary64
  | .finite s m e, .finite t n f =>
    if n = 0 then if m = 0 then .notANumber else .infinite (s != t)
    else ofRatio (s != t) (numerator m e * denominator f) (denominator e * numerator n f)
  | .finite s _ _, .infinite t => .finite (s != t) 0 minExponent
  | .infinite s, .finite t _ _ => .infinite (s != t)
  | .infinite _, .infinite _ => .notANumber
  | .notANumber, _ | _, .notANumber => .notANumber

private def signed (negative : Bool) (n : Nat) : Int := if negative then -n else n

/-- A sum of two zeros is negative only if both are; any other zero sum is positive. -/
def add : Binary64 → Binary64 → Binary64
  | .finite s m e, .finite t n f =>
    let sum := signed s (numerator m e * denominator f) + signed t (numerator n f * denominator e)
    ofRatio (if sum = 0 then s && t else sum < 0) sum.natAbs (denominator e * denominator f)
  | .finite .., .infinite t | .infinite t, .finite .. => .infinite t
  | .infinite s, .infinite t => if s = t then .infinite s else .notANumber
  | .notANumber, _ | _, .notANumber => .notANumber

instance : Neg Binary64 := ⟨neg⟩
instance : Add Binary64 := ⟨add⟩
instance : Mul Binary64 := ⟨mul⟩
instance : Div Binary64 := ⟨div⟩
instance (n : Nat) : OfNat Binary64 n := ⟨ofNat n⟩

def atLeast (x : Binary64) (n : Nat) : Bool :=
  match x with
  | .finite s m e => if s then m = 0 && n = 0 else n * denominator e ≤ numerator m e
  | .infinite s => !s
  | .notANumber => false

def isInfinite : Binary64 → Bool
  | .infinite _ => true
  | _ => false

def isZero : Binary64 → Bool
  | .finite _ m _ => m = 0
  | _ => false

def toBits : Binary64 → Nat
  | .finite s m e =>
    let sign := if s then 2 ^ 63 else 0
    if m < 2 ^ 52 then sign + m else sign + (e - minExponent + 1).toNat * 2 ^ 52 + (m - 2 ^ 52)
  | .infinite s => (if s then 2 ^ 63 else 0) + 2047 * 2 ^ 52
  | .notANumber => 2047 * 2 ^ 52 + 2 ^ 51

def ofBits (bits : Nat) : Binary64 :=
  let s := bits / 2 ^ 63 % 2 = 1
  let biased : Nat := bits / 2 ^ 52 % 2048
  let fraction : Nat := bits % 2 ^ 52
  if biased = 2047 then if fraction = 0 then .infinite s else .notANumber
  else if biased = 0 then .finite s fraction minExponent
  else .finite s (2 ^ 52 + fraction) (minExponent + (biased : Int) - 1)

end Binary64

end StorageTrials.Number

import StorageTrials.Number.Binary64
import StorageTrials.Text.Decimal

namespace StorageTrials.Number

open StorageTrials.Text

def placed (places units : Nat) : List Char :=
  digits (units / 10 ^ places) ++ '.' :: paddedDigits places (units % 10 ^ places)

def decimalUnits (places significand : Nat) (exponent : Int) : Nat :=
  roundHalfEven (Binary64.numerator significand exponent * 10 ^ places)
    (Binary64.denominator exponent)

def Binary64.fixed (places : Nat) : Binary64 → String
  | .finite negative m e =>
    (if negative then "-" else "") ++ String.ofList (placed places (decimalUnits places m e))
  | .infinite negative => if negative then "-inf" else "inf"
  | .notANumber => "NaN"

end StorageTrials.Number

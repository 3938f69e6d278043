import StorageTrials.Number.Binary64
import StorageTrials.Text.Decimal

namespace StorageTrials.Number

open StorageTrials.Text

structure ScaledDecimal where
  coefficient : Nat
  exponent : Int
deriving DecidableEq, Repr

/-- A positive quotient with the bounds of the numbers that round to it, as numerators over one
denominator. The bounds belong to the interval if `closed`. -/
structure RoundingInterval where
  lower : Nat
  value : Nat
  upper : Nat
  denominator : Nat
  closed : Bool
deriving Repr

namespace RoundingInterval

def ofBinary (significand : Nat) (exponent : Int) : RoundingInterval :=
  let unit := 2 ^ exponent.toNat
  let narrow := significand = 2 ^ 52 && Binary64.minExponent < exponent
  { lower := (4 * significand - if narrow then 1 else 2) * unit
    value := 4 * significand * unit
    upper := (4 * significand + 2) * unit
    denominator := 4 * Binary64.denominator exponent
    closed := significand % 2 = 0 }

def holds (i : RoundingInterval) (num den : Nat) : Bool :=
  let x := num * i.denominator
  if i.closed then i.lower * den ≤ x && x ≤ i.upper * den
  else i.lower * den < x && x < i.upper * den

def leadingPlace (i : RoundingInterval) : Int :=
  if i.denominator ≤ i.value then ((digits (i.value / i.denominator)).length : Int) - 1
  else
    let inverse := (i.denominator + i.value - 1) / i.value
    Int.negOfNat (digits (inverse - 1)).length

def onGrid (i : RoundingInterval) (place : Int) : Option ScaledDecimal :=
  let up := 10 ^ place.toNat
  let down := 10 ^ (-place).toNat
  let num := i.value * down
  let den := i.denominator * up
  let below := num / den
  let inBelow := i.holds (below * up) down && below ≠ 0
  let inAbove := i.holds ((below + 1) * up) down
  let twice := 2 * (num % den)
  let nearBelow := twice < den || (twice = den && below % 2 = 0)
  if inBelow && (nearBelow || !inAbove) then some ⟨below, place⟩
  else if inAbove then some ⟨below + 1, place⟩
  else none

/-- Try one digit, then two, and so on. Seventeen digits always suffice. -/
def shortest (i : RoundingInterval) : ScaledDecimal :=
  let first := i.leadingPlace
  ((List.range 17).findSome? fun k : Nat => i.onGrid (first - k)).getD ⟨0, 0⟩

end RoundingInterval

def ScaledDecimal.reduced (x : ScaledDecimal) : ScaledDecimal :=
  let ds := digits x.coefficient
  let zeros := (ds.reverse.takeWhile (· = '0')).length
  ⟨x.coefficient / 10 ^ zeros, x.exponent + zeros⟩

def shortestDecimal (significand : Nat) (exponent : Int) : ScaledDecimal :=
  (RoundingInterval.ofBinary significand exponent).shortest.reduced

end StorageTrials.Number

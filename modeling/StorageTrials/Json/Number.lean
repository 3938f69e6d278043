import StorageTrials.Json.Value
import StorageTrials.Number.Shortest

namespace StorageTrials.Json

open StorageTrials.Number StorageTrials.Text

def natural? (bits : Nat) (lexeme : List Char) : Option Nat :=
  (readDigits? lexeme).filter (· < 2 ^ bits)

def leadingPoint : List Char → List Char
  | [] => []
  | [d] => [d]
  | d :: ds => d :: '.' :: ds

def signedDecimal (n : Int) : List Char := (if n < 0 then '-' else '+') :: digits n.natAbs

def plain (ds : List Char) (place : Int) : List Char :=
  if place < 0 then ['0', '.'] ++ List.replicate (-place - 1).toNat '0' ++ ds
  else
    let whole := place.toNat + 1
    ds.take whole ++ List.replicate (whole - ds.length) '0' ++ '.' ::
      (if ds.length ≤ whole then ['0'] else ds.drop whole)

def scientific (ds : List Char) (place : Int) : List Char :=
  leadingPoint ds ++ 'e' :: signedDecimal place

def decimalLexeme (x : ScaledDecimal) : List Char :=
  let ds := digits x.coefficient
  let place := x.exponent + ds.length - 1
  if -5 ≤ place && place < 16 then plain ds place else scientific ds place

def ofBinary64 : Binary64 → Value
  | .finite negative 0 _ => .number ((if negative then ['-'] else []) ++ ['0', '.', '0'])
  | .finite negative m e =>
    .number ((if negative then ['-'] else []) ++ decimalLexeme (shortestDecimal m e))
  | .infinite _ | .notANumber => .null

/-- A decimal number on its way in: `significand * 10 ^ exponent`. Once a digit does not fit, the
number is `full`, and further digits count as places only. -/
structure Intake where
  significand : Nat
  exponent : Int
  full : Bool

namespace Intake

def fits (n : Nat) : Bool := n < 2 ^ 64

def whole (x : Intake) (c : Char) : Intake :=
  if x.full then { x with exponent := x.exponent + 1 }
  else
    let next := x.significand * 10 + digitValue c
    if fits next then { x with significand := next }
    else { x with exponent := x.exponent + 1, full := true }

def fraction (x : Intake) (c : Char) : Intake :=
  if x.full then x
  else
    let next := x.significand * 10 + digitValue c
    if fits next then { x with significand := next, exponent := x.exponent - 1 }
    else { x with full := true }

end Intake

/-- Divide or multiply by a power of ten. Beyond `10 ^ 308` it takes several steps; a result
beyond the range of numbers is refused. -/
def scale : Nat → Binary64 → Int → Option Binary64
  | 0, x, _ => some x
  | fuel + 1, x, exponent =>
    if exponent.natAbs ≤ 308 then
      let power := Binary64.ofNat (10 ^ exponent.natAbs)
      if 0 ≤ exponent then
        let scaled := x * power
        if scaled.isInfinite then none else some scaled
      else some (x / power)
    else if x.isZero then some x
    else if 0 ≤ exponent then none
    else scale fuel (x / Binary64.ofNat (10 ^ 308)) (exponent + 308)

def maxExponent : Nat := 2 ^ 31 - 1

def clamp (n : Int) : Int := max (-(2 ^ 31)) (min (2 ^ 31 - 1) n)

def magnitude? (whole fraction : List Char) (exponent : Option (Bool × List Char)) :
    Option Binary64 :=
  let x := whole.foldl Intake.whole ⟨0, 0, false⟩
  let x := fraction.foldl Intake.fraction { x with full := false }
  let start := Binary64.ofNat x.significand
  match exponent with
  | none => scale 4 start x.exponent
  | some (negative, ds) =>
    let n := digitsValue 0 ds
    if maxExponent < n then
      if x.significand ≠ 0 && !negative then none else some Binary64.zero
    else scale 4 start (clamp (x.exponent + if negative then -(n : Int) else n))

def takeDigits (cs : List Char) : List Char × List Char :=
  (cs.takeWhile Char.isDigit, cs.dropWhile Char.isDigit)

def fractionPart : List Char → List Char × List Char
  | '.' :: cs => takeDigits cs
  | cs => ([], cs)

def exponentPart : List Char → Option (Bool × List Char)
  | [] => none
  | _ :: '+' :: cs => some (false, cs)
  | _ :: '-' :: cs => some (true, cs)
  | _ :: cs => some (false, cs)

def binary64? (lexeme : List Char) : Option Binary64 :=
  let negative := lexeme.head? = some '-'
  let unsigned := if negative then lexeme.drop 1 else lexeme
  let (whole, rest) := takeDigits unsigned
  let (fraction, rest) := fractionPart rest
  (magnitude? whole fraction (exponentPart rest)).map fun x => if negative then -x else x

end StorageTrials.Json

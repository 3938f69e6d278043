import StorageTrials.Duration
import StorageTrials.Text.Blank
import StorageTrials.Text.Decimal
import StorageTrials.Text.Quoted

namespace StorageTrials.Duration

open StorageTrials.Text

inductive TimeUnit
  | nanosecond | microsecond | millisecond | second | minute | hour | day | week | month | year
deriving DecidableEq, Repr

namespace TimeUnit

def length : TimeUnit → Nat
  | nanosecond => 1
  | microsecond => 1000
  | millisecond => 1000000
  | second => 1000000000
  | minute => 60 * 1000000000
  | hour => 3600 * 1000000000
  | day => 86400 * 1000000000
  | week => 7 * 86400 * 1000000000
  | month => 2630016 * 1000000000
  | year => 31557600 * 1000000000

def names : TimeUnit → List String
  | nanosecond => ["nanos", "nsec", "ns"]
  | microsecond => ["usec", "us", "µs"]
  | millisecond => ["millis", "msec", "ms"]
  | second => ["seconds", "second", "secs", "sec", "s"]
  | minute => ["minutes", "minute", "min", "mins", "m"]
  | hour => ["hours", "hour", "hr", "hrs", "h"]
  | day => ["days", "day", "d"]
  | week => ["weeks", "week", "wk", "wks", "w"]
  | month => ["months", "month", "M"]
  | year => ["years", "year", "yr", "yrs", "y"]

def all : List TimeUnit :=
  [nanosecond, microsecond, millisecond, second, minute, hour, day, week, month, year]

def ofName? (name : String) : Option TimeUnit := all.find? fun u => u.names.contains name

def isSubsecond : TimeUnit → Bool
  | nanosecond | microsecond | millisecond => true
  | _ => false

def isFine (u : TimeUnit) : Bool := u.isSubsecond || u = second || u = minute

end TimeUnit

inductive ReadError
  | empty
  | numberExpected (offset : Nat)
  | invalidCharacter (offset : Nat)
  | unitNeeded (value : Nat)
  | unknownUnit (unit : String)
  | tooLarge
  | carriedOut
deriving DecidableEq, Repr

def ReadError.message : ReadError → String
  | empty => "value was empty"
  | numberExpected offset => "expected number at " ++ decimal offset
  | invalidCharacter offset => "invalid character at " ++ decimal offset
  | unitNeeded value =>
    "time unit needed, for example " ++ decimal value ++ "sec or " ++ decimal value ++ "ms"
  | unknownUnit unit =>
    "unknown time unit " ++ quoted unit ++ ", supported units: ns, us/µs, ms, sec, min, hours, " ++
      "days, weeks, months, years (and few variations)"
  | tooLarge =>
    "number is too large or cannot be represented without a lack of precision " ++
      "(values below 1ns are not supported)"
  | carriedOut => "overflow"

def word (n : Nat) : Except ReadError Nat := if n < 2 ^ 64 then .ok n else .error .tooLarge

def exactly (n d : Nat) : Except ReadError Nat :=
  if d ≠ 0 && n % d = 0 then .ok (n / d) else .error .tooLarge

/-- Add whole seconds and nanoseconds to a span. Nanoseconds are carried when they exceed a full
second; a remaining full second is carried by the span itself. -/
def extend (d : Duration) (seconds nanos : Nat) : Except ReadError Duration := do
  let nanos ← word (d.subsecond + nanos)
  let carries := 1000000000 < nanos
  let seconds ← word (seconds + if carries then nanos / 1000000000 else 0)
  let nanos := if carries then nanos % 1000000000 else nanos
  let seconds ← word (d.seconds + seconds)
  match ofNanos? (seconds * 1000000000 + nanos) with
  | some d => .ok d
  | none => .error .carriedOut

structure Fraction where
  numerator : Nat
  denominator : Nat

def addWhole (d : Duration) (n : Nat) (u : TimeUnit) : Except ReadError Duration := do
  if u.isSubsecond then extend d 0 (← word (n * u.length))
  else extend d (← word (n * (u.length / 1000000000))) 0

def addFraction (d : Duration) (f : Fraction) (u : TimeUnit) : Except ReadError Duration := do
  if u = .nanosecond then .error .tooLarge
  else if u.isFine then extend d 0 (← exactly (← word (f.numerator * u.length)) f.denominator)
  else extend d (← exactly (← word (f.numerator * (u.length / 1000000000))) f.denominator) 0

def addItem (d : Duration) (n : Nat) (f : Option Fraction) (unit : List Char) :
    Except ReadError Duration := do
  match TimeUnit.ofName? (String.ofList unit) with
  | none => .error (if unit.isEmpty then .unitNeeded n else .unknownUnit (String.ofList unit))
  | some u =>
    let d ← addWhole d n u
    match f with
    | none => .ok d
    | some f => addFraction d f u

def isUnitLetter (c : Char) : Bool := c.isAlpha || c = 'µ'

/-- Read a digit that starts a number; the rest and its offset follow. At the end of the text
there is none. -/
def firstDigit (start : Nat) : Nat → List Char → Except ReadError (Option (Nat × Nat × List Char))
  | _, [] => .ok none
  | offset, c :: cs =>
    if c.isDigit then .ok (some (digitValue c, offset + c.utf8Size, cs))
    else if isBlank c then firstDigit start (offset + c.utf8Size) cs
    else .error (.numberExpected start)

def fraction (f : Fraction) (last : Nat) :
    List Char → Except ReadError (Fraction × Nat × List Char)
  | [] => finish []
  | c :: cs =>
    if c.isDigit then do
      let denominator ← word (f.denominator * 10)
      let numerator ← word (f.numerator * 10 + digitValue c)
      fraction ⟨numerator, denominator⟩ (last + 1) cs
    else if isBlank c then fraction f (last + c.utf8Size) cs
    else if isUnitLetter c then finish (c :: cs)
    else .error (.invalidCharacter last)
where
  finish (rest : List Char) : Except ReadError (Fraction × Nat × List Char) :=
    if f.denominator = 1 then .error (.invalidCharacter last) else .ok (f, last, rest)

def number (n offset : Nat) :
    List Char → Except ReadError (Nat × Option Fraction × Nat × List Char)
  | [] => .ok (n, none, offset, [])
  | c :: cs =>
    if c.isDigit then do
      number (← word (n * 10 + digitValue c)) (offset + 1) cs
    else if isBlank c then number n (offset + c.utf8Size) cs
    else if isUnitLetter c then .ok (n, none, offset, c :: cs)
    else if c = '.' then do
      let (f, offset, rest) ← fractionFrom offset cs
      .ok (n, some f, offset, rest)
    else .error (.invalidCharacter offset)
where
  fractionFrom (point : Nat) : List Char → Except ReadError (Fraction × Nat × List Char)
    | [] => .error (.invalidCharacter point)
    | c :: cs =>
      if c.isDigit || isBlank c then fraction ⟨0, 1⟩ (point + 1) (c :: cs)
      else .error (.invalidCharacter point)

def unitName (offset : Nat) : List Char → Except ReadError (List Char × Nat × List Char)
  | [] => .ok ([], offset, [])
  | c :: cs =>
    if c.isDigit then .ok ([], offset, c :: cs)
    else if isBlank c then .ok ([], offset + c.utf8Size, cs)
    else if isUnitLetter c then do
      let (name, offset, rest) ← unitName (offset + c.utf8Size) cs
      .ok (c :: name, offset, rest)
    else .error (.invalidCharacter offset)

/-- Read number after number with its unit. Each round takes at least its first digit. -/
def items (fuel : Nat) (d : Duration) (offset : Nat) (cs : List Char) :
    Except ReadError (Option Duration) := do
  match fuel with
  | 0 => .ok (some d)
  | fuel + 1 =>
    match ← firstDigit offset offset cs with
    | none => .ok none
    | some (n, offset, cs) =>
      let (n, f, offset, cs) ← number n offset cs
      let (unit, offset, cs) ← unitName offset cs
      let d ← addItem d n f unit
      match ← items fuel d offset cs with
      | none => .ok (some d)
      | some d => .ok (some d)

def read (s : String) : Except ReadError Duration := do
  if s = "0" then .ok zero
  else
    match ← items (s.length + 1) zero 0 s.toList with
    | none => .error .empty
    | some d => .ok d

def amounts (d : Duration) : List (Nat × String) :=
  let long (n : Nat) (name : String) := (n, if 1 < n then name ++ "s" else name)
  let s := d.seconds
  let n := d.subsecond
  [long (s / 31557600) "year",
    long (s % 31557600 / 2630016) "month",
    long (s % 31557600 % 2630016 / 86400) "day",
    (s % 31557600 % 2630016 % 86400 / 3600, "h"),
    (s % 31557600 % 2630016 % 86400 % 3600 / 60, "m"),
    (s % 31557600 % 2630016 % 86400 % 60, "s"),
    (n / 1000000, "ms"),
    (n / 1000 % 1000, "us"),
    (n % 1000, "ns")]

def written (d : Duration) : String :=
  if d.isZero then "0s"
  else
    " ".intercalate ((d.amounts.filter fun a => a.1 ≠ 0).map fun (n, label) => decimal n ++ label)

end StorageTrials.Duration

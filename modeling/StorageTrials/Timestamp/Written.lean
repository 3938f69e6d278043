import StorageTrials.Text.Blank
import StorageTrials.Text.Decimal
import StorageTrials.Timestamp

namespace StorageTrials.Timestamp

open StorageTrials.Text

def writtenYear (year : Int) : List Char :=
  if 0 ≤ year && year ≤ 9999 then paddedDigits 4 year.toNat
  else (if year < 0 then '-' else '+') :: paddedDigits 4 year.natAbs

def writtenFraction (nanos : Nat) : List Char :=
  if nanos = 0 then []
  else if nanos % 1000000 = 0 then '.' :: paddedDigits 3 (nanos / 1000000)
  else if nanos % 1000 = 0 then '.' :: paddedDigits 6 (nanos / 1000)
  else '.' :: paddedDigits 9 nanos

/-- A leap second is the sixtieth of its minute. -/
def written (t : Timestamp) : String :=
  let s := t.secondOfDay
  let second := if 1000000000 ≤ t.nanos then s % 60 + 1 else s % 60
  let nanos := if 1000000000 ≤ t.nanos then t.nanos - 1000000000 else t.nanos
  String.ofList <|
    writtenYear t.date.year ++ '-' :: paddedDigits 2 t.date.month ++
      '-' :: paddedDigits 2 t.date.day ++ 'T' :: paddedDigits 2 (s / 3600) ++
      ':' :: paddedDigits 2 (s / 60 % 60) ++ ':' :: paddedDigits 2 second ++
      writtenFraction nanos ++ ['Z']

def number? (width : Nat) (cs : List Char) : Option (Nat × List Char) :=
  let ds := (cs.take width).takeWhile Char.isDigit
  (readDigits? ds).map fun n => (n, cs.drop ds.length)

def longNumber? (cs : List Char) : Option (Nat × List Char) := number? cs.length cs

def year? (cs : List Char) : Option (Int × List Char) :=
  match trimStart cs with
  | '-' :: cs => (longNumber? cs).map fun (n, rest) => (-(n : Int), rest)
  | '+' :: cs => (longNumber? cs).map fun (n, rest) => ((n : Int), rest)
  | cs => (number? 4 cs).map fun (n, rest) => ((n : Int), rest)

def part? (least greatest : Nat) (cs : List Char) : Option (Nat × List Char) :=
  (number? 2 (trimStart cs)).filter fun (n, _) => least ≤ n && n ≤ greatest

def mark? (mark : Char) (cs : List Char) : Option (List Char) :=
  match trimStart cs with
  | c :: cs => if c = mark then some cs else none
  | [] => none

def fraction? : List Char → Option (Nat × List Char)
  | '.' :: cs => do
    let (n, rest) ← number? 9 cs
    let taken := cs.length - rest.length
    some (n * 10 ^ (9 - taken), rest.dropWhile Char.isDigit)
  | cs => some (0, cs)

def offsetAmount? (cs : List Char) : Option (Nat × List Char) := do
  let (hours, rest) ← twoDigits? cs
  let (minutes, rest) ← twoDigits? (rest.dropWhile fun c => c = ':' || isBlank c)
  if minutes < 60 then some (hours * 3600 + minutes * 60, rest) else none
where
  twoDigits? : List Char → Option (Nat × List Char)
    | c :: d :: rest => (readDigits? [c, d]).map (·, rest)
    | _ => none

/-- The rest after a mark of universal time, which is `Z` or `UTC` in letters of either case. -/
def universal? (cs : List Char) : Option (List Char) :=
  if (cs.take 1).map Char.toUpper = ['Z'] then some (cs.drop 1)
  else if (cs.take 3).map Char.toUpper = ['U', 'T', 'C'] then some (cs.drop 3)
  else none

def signedOffset? : List Char → Option (Int × List Char)
  | '+' :: cs => (offsetAmount? cs).map fun (n, rest) => ((n : Int), rest)
  | '-' :: cs | '−' :: cs => (offsetAmount? cs).map fun (n, rest) => (-(n : Int), rest)
  | _ => none

def offset? (cs : List Char) : Option (Int × List Char) :=
  ((universal? cs).map ((0 : Int), ·)).or (signedOffset? cs)

def isYear (year : Int) : Bool := firstYear ≤ year && year ≤ lastYear

def read? (s : String) : Option Timestamp := do
  let (year, cs) ← year? s.toList
  let cs ← mark? '-' cs
  let (month, cs) ← part? 1 12 cs
  let cs ← mark? '-' cs
  let (day, cs) ← part? 1 31 cs
  let cs ←
    match cs with
    | c :: cs => if c = 'T' || c = 't' || c = ' ' then some cs else none
    | [] => none
  let (hour, cs) ← part? 0 23 cs
  let cs ← mark? ':' cs
  let (minute, cs) ← part? 0 59 cs
  let cs ← mark? ':' cs
  let (second, cs) ← part? 0 60 cs
  let (nanos, cs) ← fraction? cs
  let (offset, cs) ← offset? (trimStart cs)
  let date : CivilDate := ⟨year, month, day⟩
  let leap := second = 60
  let secondOfDay : Nat := hour * 3600 + minute * 60 + if leap then 59 else second
  let t : Timestamp :=
    ⟨date.toDays * secondsPerDay + secondOfDay - offset, if leap then 1000000000 + nanos else nanos⟩
  if (trimStart cs).isEmpty && isYear year && date.isValid && offset.natAbs < 86400 && t.isInRange
  then some t
  else none

end StorageTrials.Timestamp

import StorageTrials.Text.Hex

namespace StorageTrials.Toml

open StorageTrials.Text

inductive Value
  | string (text : List Char)
  | integer (n : Int)
deriving DecidableEq, Repr

def isGap (c : Char) : Bool := c = ' ' || c = '\t'

def skipGap (cs : List Char) : List Char := cs.dropWhile isGap

def isPrintable (c : Char) : Bool := c = '\t' || (0x20 ≤ c.toNat && c.toNat ≠ 0x7f)

def lineBreak? : List Char → Option (List Char)
  | '\n' :: cs => some cs
  | '\r' :: '\n' :: cs => some cs
  | _ => none

def lineEnd? (cs : List Char) : Option (List Char) :=
  match skipGap cs with
  | [] => some []
  | '#' :: cs =>
    match cs.dropWhile isPrintable with
    | [] => some []
    | cs => lineBreak? cs
  | cs => lineBreak? cs

def codePoint? (ds : List Char) : Option Char :=
  if ds.all isHexDigit then
    let n := hexNumber ds
    if h : n.isValidChar then some (Char.ofNatAux n h) else none
  else none

def escaped? : Char → Option Char
  | 'b' => some '\x08'
  | 't' => some '\t'
  | 'n' => some '\n'
  | 'f' => some '\x0c'
  | 'r' => some '\r'
  | '"' => some '"'
  | '\\' => some '\\'
  | _ => none

abbrev Taken := List Char × List Char

def Taken.push (c : Char) (t : Taken) : Taken := (c :: t.1, t.2)

def basic? : List Char → Option Taken
  | [] => none
  | '"' :: cs => some ([], cs)
  | '\\' :: 'u' :: a :: b :: c :: d :: cs => do
    (basic? cs).map (Taken.push (← codePoint? [a, b, c, d]))
  | '\\' :: 'U' :: a :: b :: c :: d :: e :: f :: g :: h :: cs => do
    (basic? cs).map (Taken.push (← codePoint? [a, b, c, d, e, f, g, h]))
  | '\\' :: c :: cs => do (basic? cs).map (Taken.push (← escaped? c))
  | c :: cs => if isPrintable c then (basic? cs).map (Taken.push c) else none

def literal? : List Char → Option Taken
  | [] => none
  | '\x27' :: cs => some ([], cs)
  | c :: cs => if isPrintable c then (literal? cs).map (Taken.push c) else none

/-- After three closing quotes, up to two more belong to the string. -/
def closing (quote : Char) : List Char → Taken
  | c :: d :: cs =>
    if c = quote then if d = quote then ([c, d], cs) else ([c], d :: cs) else ([], c :: d :: cs)
  | [c] => if c = quote then ([c], []) else ([], [c])
  | [] => ([], [])

inductive Joint
  | text
  | lineEnd
  | lineStart

def multiBasic? : Joint → List Char → Option Taken
  | _, [] => none
  | .lineEnd, '\n' :: cs | .lineEnd, '\r' :: '\n' :: cs => multiBasic? .lineStart cs
  | .lineEnd, c :: cs => if isGap c then multiBasic? .lineEnd cs else none
  | .lineStart, ' ' :: cs | .lineStart, '\t' :: cs | .lineStart, '\n' :: cs
  | .lineStart, '\r' :: '\n' :: cs => multiBasic? .lineStart cs
  | _, '"' :: '"' :: '"' :: cs => some (closing '"' cs)
  | _, '\\' :: 'u' :: a :: b :: c :: d :: cs => do
    (multiBasic? .text cs).map (Taken.push (← codePoint? [a, b, c, d]))
  | _, '\\' :: 'U' :: a :: b :: c :: d :: e :: f :: g :: h :: cs => do
    (multiBasic? .text cs).map (Taken.push (← codePoint? [a, b, c, d, e, f, g, h]))
  | _, '\\' :: '\n' :: cs | _, '\\' :: '\r' :: '\n' :: cs => multiBasic? .lineStart cs
  | _, '\\' :: c :: cs =>
    if isGap c then multiBasic? .lineEnd cs
    else do (multiBasic? .text cs).map (Taken.push (← escaped? c))
  | _, '\n' :: cs | _, '\r' :: '\n' :: cs => (multiBasic? .text cs).map (Taken.push '\n')
  | _, c :: cs => if isPrintable c then (multiBasic? .text cs).map (Taken.push c) else none

def multiLiteral? : List Char → Option Taken
  | [] => none
  | '\x27' :: '\x27' :: '\x27' :: cs => some (closing '\x27' cs)
  | '\n' :: cs | '\r' :: '\n' :: cs => (multiLiteral? cs).map (Taken.push '\n')
  | c :: cs => if isPrintable c then (multiLiteral? cs).map (Taken.push c) else none

/-- A line break right after the opening quotes is not part of the string. -/
def dropLineBreak (cs : List Char) : List Char := (lineBreak? cs).getD cs

def ungrouped? (isDigit : Char → Bool) : List Char → Option (List Char)
  | [] => none
  | [c] => if isDigit c then some [c] else none
  | c :: '_' :: cs => if isDigit c then (ungrouped? isDigit cs).map (c :: ·) else none
  | c :: cs => if isDigit c then (ungrouped? isDigit cs).map (c :: ·) else none

def based? (base : Nat) (isDigit : Char → Bool) (cs : List Char) : Option Nat :=
  (ungrouped? isDigit cs).map (·.foldl (fun n c => n * base + hexValue c) 0)

def decimal? (cs : List Char) : Option Nat :=
  if cs.head? = some '0' && cs.length ≠ 1 then none else based? 10 Char.isDigit cs

def unbounded? : List Char → Option Int
  | '0' :: 'x' :: cs => (based? 16 isHexDigit cs).map Int.ofNat
  | '0' :: 'o' :: cs => (based? 8 (fun c => '0' ≤ c && c ≤ '7') cs).map Int.ofNat
  | '0' :: 'b' :: cs => (based? 2 (fun c => c = '0' || c = '1') cs).map Int.ofNat
  | '+' :: cs => (decimal? cs).map Int.ofNat
  | '-' :: cs => (decimal? cs).map fun n => -(n : Int)
  | cs => (decimal? cs).map Int.ofNat

def integer? (cs : List Char) : Option Int :=
  (unbounded? cs).filter fun n => -(2 ^ 63) ≤ n && n < 2 ^ 63

def isKeyChar (c : Char) : Bool := c.isAlphanum || c = '-' || c = '_'

def key? : List Char → Option Taken
  | '"' :: cs => basic? cs
  | '\x27' :: cs => literal? cs
  | cs =>
    let k := cs.takeWhile isKeyChar
    if k.isEmpty then none else some (k, cs.dropWhile isKeyChar)

def isNumberChar (c : Char) : Bool := isKeyChar c || c = '+'

def value? : List Char → Option (Value × List Char)
  | '"' :: '"' :: '"' :: cs =>
    (multiBasic? .text (dropLineBreak cs)).map fun t => (.string t.1, t.2)
  | '"' :: cs => (basic? cs).map fun t => (.string t.1, t.2)
  | '\x27' :: '\x27' :: '\x27' :: cs =>
    (multiLiteral? (dropLineBreak cs)).map fun t => (.string t.1, t.2)
  | '\x27' :: cs => (literal? cs).map fun t => (.string t.1, t.2)
  | cs =>
    (integer? (cs.takeWhile isNumberChar)).map fun n => (.integer n, cs.dropWhile isNumberChar)

def entry? (cs : List Char) : Option ((List Char × Value) × List Char) := do
  let (k, cs) ← key? cs
  match skipGap cs with
  | '=' :: cs =>
    let (v, cs) ← value? (skipGap cs)
    some ((k, v), ← lineEnd? cs)
  | _ => none

/-- The entries of the lines of a text, in order. Each line takes at least one character. -/
def lines? : Nat → List Char → Option (List (List Char × Value))
  | 0, _ => some []
  | fuel + 1, cs =>
    if cs.isEmpty then some []
    else
      match lineEnd? cs with
      | some rest => lines? fuel rest
      | none => do
        let (e, rest) ← entry? (skipGap cs)
        (lines? fuel rest).map (e :: ·)

def withoutMark : List Char → List Char
  | '\ufeff' :: cs => cs
  | cs => cs

def read? (s : String) : Option (List (String × Value)) := do
  let entries ← lines? (s.length + 1) (withoutMark s.toList)
  let entries := entries.map fun (k, v) => (String.ofList k, v)
  if (entries.map (·.1)).Nodup then some entries else none

end StorageTrials.Toml

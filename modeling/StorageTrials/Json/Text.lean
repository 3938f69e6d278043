import StorageTrials.Text.Hex

namespace StorageTrials.Json

open StorageTrials.Text

def isLeadingSurrogate (n : Nat) : Bool := 0xd800 ≤ n && n < 0xdc00

def isTrailingSurrogate (n : Nat) : Bool := 0xdc00 ≤ n && n < 0xe000

def escaped? : Char → Option Char
  | '"' => some '"'
  | '\\' => some '\\'
  | '/' => some '/'
  | 'b' => some '\x08'
  | 'f' => some '\x0c'
  | 'n' => some '\n'
  | 'r' => some '\r'
  | 't' => some '\t'
  | _ => none

/-- The text that a string means. A surrogate has to be half of a pair. -/
def decode? : List Char → Option (List Char)
  | [] => some []
  | '\\' :: 'u' :: a :: b :: c :: d :: '\\' :: 'u' :: e :: f :: g :: h :: rest =>
    let first := hexNumber [a, b, c, d]
    let second := hexNumber [e, f, g, h]
    if isTrailingSurrogate first then none
    else if isLeadingSurrogate first then
      if isTrailingSurrogate second then
        (decode? rest).map
          (Char.ofNat (0x10000 + (first - 0xd800) * 0x400 + (second - 0xdc00)) :: ·)
      else none
    else (decode? ('\\' :: 'u' :: e :: f :: g :: h :: rest)).map (Char.ofNat first :: ·)
  | '\\' :: 'u' :: a :: b :: c :: d :: rest =>
    let n := hexNumber [a, b, c, d]
    if isLeadingSurrogate n || isTrailingSurrogate n then none
    else (decode? rest).map (Char.ofNat n :: ·)
  | '\\' :: c :: rest => do
    let c ← escaped? c
    (decode? rest).map (c :: ·)
  | c :: rest => (decode? rest).map (c :: ·)

def controlEscape (c : Char) : List Char := ['\\', 'u'] ++ (['0', '0'] ++ hexPair c.toNat)
where
  hexPair (n : Nat) : List Char := [Nat.digitChar (n / 16), Nat.digitChar (n % 16)]

def encodeChar : Char → List Char
  | '"' => ['\\', '"']
  | '\\' => ['\\', '\\']
  | '\x08' => ['\\', 'b']
  | '\x0c' => ['\\', 'f']
  | '\n' => ['\\', 'n']
  | '\r' => ['\\', 'r']
  | '\t' => ['\\', 't']
  | c => if c.toNat < 0x20 then controlEscape c else [c]

def encode (cs : List Char) : List Char := cs.flatMap encodeChar

end StorageTrials.Json

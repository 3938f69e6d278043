import StorageTrials.Json.Text

namespace StorageTrials.Json

open StorageTrials.Text

inductive Token
  | openArray
  | closeArray
  | openObject
  | closeObject
  | comma
  | colon
  | null
  | boolean (value : Bool)
  | number (lexeme : List Char)
  | string (lexeme : List Char)
deriving DecidableEq, Repr

inductive NumberPart
  | sign
  | zero
  | whole
  | point
  | fraction
  | mark
  | markSign
  | exponent
deriving DecidableEq, Repr

namespace NumberPart

def next : NumberPart → Char → Option NumberPart
  | .sign, c => if c = '0' then some .zero else if c.isDigit then some .whole else none
  | .zero, c => if c = '.' then some .point else if c = 'e' || c = 'E' then some .mark else none
  | .whole, c =>
    if c.isDigit then some .whole
    else if c = '.' then some .point
    else if c = 'e' || c = 'E' then some .mark
    else none
  | .point, c => if c.isDigit then some .fraction else none
  | .fraction, c =>
    if c.isDigit then some .fraction else if c = 'e' || c = 'E' then some .mark else none
  | .mark, c =>
    if c = '+' || c = '-' then some .markSign else if c.isDigit then some .exponent else none
  | .markSign, c | .exponent, c => if c.isDigit then some .exponent else none

def isComplete : NumberPart → Bool
  | .zero | .whole | .fraction | .exponent => true
  | .sign | .point | .mark | .markSign => false

end NumberPart

inductive Scan
  | between
  | word (lexeme : List Char)
  | number (part : NumberPart) (lexeme : List Char)
  | string (lexeme : List Char)
  | escape (lexeme : List Char)
  /-- The given count of hexadecimal digits is still to come. -/
  | code (left : Nat) (lexeme : List Char)
deriving DecidableEq, Repr

structure Scanned where
  tokens : List Token
  scan : Scan
deriving DecidableEq, Repr

def isSpace (c : Char) : Bool := c = ' ' || c = '\t' || c = '\n' || c = '\r'

def punctuation? : Char → Option Token
  | '[' => some .openArray
  | ']' => some .closeArray
  | '\x7b' => some .openObject
  | '\x7d' => some .closeObject
  | ',' => some .comma
  | ':' => some .colon
  | _ => none

def word? (lexeme : List Char) : Option Token :=
  match String.ofList lexeme with
  | "null" => some .null
  | "true" => some (.boolean true)
  | "false" => some (.boolean false)
  | _ => none

namespace Scanned

def begin (tokens : List Token) (c : Char) : Option Scanned :=
  if isSpace c then some ⟨tokens, .between⟩
  else if c = '"' then some ⟨tokens, .string []⟩
  else if c = '-' then some ⟨tokens, .number .sign ['-']⟩
  else if c.isDigit then some ⟨tokens, .number (if c = '0' then .zero else .whole) [c]⟩
  else if c.isLower then some ⟨tokens, .word [c]⟩
  else (punctuation? c).map fun t => ⟨t :: tokens, .between⟩

def step (s : Scanned) (c : Char) : Option Scanned :=
  match s.scan with
  | .between => begin s.tokens c
  | .word lexeme =>
    if c.isLower then some ⟨s.tokens, .word (c :: lexeme)⟩
    else (word? lexeme.reverse).bind fun t => begin (t :: s.tokens) c
  | .number part lexeme =>
    match part.next c with
    | some part => some ⟨s.tokens, .number part (c :: lexeme)⟩
    | none => if part.isComplete then begin (.number lexeme.reverse :: s.tokens) c else none
  | .string lexeme =>
    if c = '"' then some ⟨.string lexeme.reverse :: s.tokens, .between⟩
    else if c = '\\' then some ⟨s.tokens, .escape (c :: lexeme)⟩
    else if c.toNat < 0x20 then none
    else some ⟨s.tokens, .string (c :: lexeme)⟩
  | .escape lexeme =>
    if c = 'u' then some ⟨s.tokens, .code 4 (c :: lexeme)⟩
    else (escaped? c).map fun _ => ⟨s.tokens, .string (c :: lexeme)⟩
  | .code left lexeme =>
    if isHexDigit c then
      some ⟨s.tokens, if left = 1 then .string (c :: lexeme) else .code (left - 1) (c :: lexeme)⟩
    else none

def finish (s : Scanned) : Option (List Token) :=
  match s.scan with
  | .between => some s.tokens.reverse
  | .word lexeme => (word? lexeme.reverse).map fun t => (t :: s.tokens).reverse
  | .number part lexeme =>
    if part.isComplete then some (.number lexeme.reverse :: s.tokens).reverse else none
  | .string _ | .escape _ | .code .. => none

end Scanned

def scan? (cs : List Char) : Option (List Token) :=
  (cs.foldlM Scanned.step ⟨[], .between⟩).bind Scanned.finish

end StorageTrials.Json

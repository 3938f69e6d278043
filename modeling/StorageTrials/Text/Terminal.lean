namespace StorageTrials.Text.Terminal

def escapeCharacter : Char := '\x1b'

inductive Style
  | bold
  | underlined
deriving DecidableEq, Repr

namespace Style

def digit : Style → Char
  | bold => '1'
  | underlined => '4'

end Style

def rendition (digit : Char) : List Char := [escapeCharacter, '[', digit, 'm']

def styledChars (styles : List Style) (cs : List Char) : List Char :=
  styles.flatMap (fun s => rendition s.digit) ++ cs ++ rendition '0'

def styled (styles : List Style) (text : String) : String :=
  String.ofList (styledChars styles text.toList)

inductive Phase
  | ground
  | escape
  | escapeIntermediate
  | control
  | deviceEntry
  | deviceParameter
  | deviceIntermediate
  | string
  | command
deriving DecidableEq, Repr

def isIntermediate (c : Char) : Bool := ' ' ≤ c && c ≤ '/'

def isParameter (c : Char) : Bool := '0' ≤ c && c ≤ '?'

def isPrivateParameter (c : Char) : Bool := '<' ≤ c && c ≤ '?'

def isFinal (c : Char) : Bool := '@' ≤ c && c ≤ '~'

def isLayout (c : Char) : Bool := c = '\t' || c = '\n' || c = '\x0c' || c = '\r'

def stringTerminator : UInt8 := 0x9c

namespace Phase

def ofIntroducer (c : Char) : Phase :=
  if c = '[' then control
  else if c = ']' then command
  else if c = 'P' then deviceEntry
  else if c = 'X' || c = '^' || c = '_' then string
  else if isIntermediate c then escapeIntermediate
  else if isParameter c || isFinal c then ground
  else escape

/-- The phase behind a character. Cancelling and escape characters act in every phase. -/
def next (p : Phase) (c : Char) : Phase :=
  if c = '\x18' || c = '\x1a' then ground
  else if c = escapeCharacter then escape
  else
    match p with
    | ground => ground
    | escape => ofIntroducer c
    | escapeIntermediate => if isParameter c || isFinal c then ground else escapeIntermediate
    | control => if isFinal c then ground else control
    | deviceEntry =>
      if isIntermediate c then deviceIntermediate
      else if isParameter c then deviceParameter
      else if isFinal c then string
      else deviceEntry
    | deviceParameter =>
      if isIntermediate c then deviceIntermediate
      else if isPrivateParameter c || isFinal c then string
      else deviceParameter
    | deviceIntermediate => if isParameter c || isFinal c then string else deviceIntermediate
    | string => if (String.utf8EncodeChar c).contains stringTerminator then ground else string
    | command => if c = '\x07' then ground else command

def shows (p : Phase) (c : Char) : Bool :=
  match p with
  | ground => (' ' ≤ c && c ≠ '\x7f') || isLayout c
  | escape | escapeIntermediate | control => isLayout c
  | deviceEntry | deviceParameter | deviceIntermediate | string | command => false

end Phase

def isAscii (c : Char) : Bool := c.toNat < 128

/-- What shows of a text that is at hand as a whole. Layout ends a sequence that it stands in.
There is no answer if a sequence takes a character that is not ASCII. -/
def plainChars? (p : Phase) : List Char → Option (List Char)
  | [] => some []
  | c :: cs =>
    if p.shows c then (plainChars? .ground cs).map (c :: ·)
    else if isAscii c then plainChars? (p.next c) cs
    else none

def passingChars (p : Phase) (showing : Bool) : List Char → List Char
  | [] => []
  | c :: cs =>
    if (if showing then Phase.ground else p).shows c then
      c :: passingChars (if isAscii c then p else .ground) true cs
    else passingChars (p.next c) false cs

def plain? (text : String) : Option String :=
  (plainChars? .ground text.toList).map String.ofList

def passing (text : String) : String := String.ofList (passingChars .ground false text.toList)

end StorageTrials.Text.Terminal

import StorageTrials.CommandLine.Parameter

namespace StorageTrials

inductive Rejection
  | unknownArgument (text : String)
  | unexpectedValue (switch : Switch)
  | missingValue (parameter : Parameter)
  | unacceptableValue (parameter : Parameter) (text : String)
  | malformedValue (parameter : Parameter) (text : String)
  | repeatedParameter (parameter : Parameter)
  | repeatedSwitch (switch : Switch)
  | missingParameters (parameters : List Parameter)
deriving DecidableEq, Repr

inductive Word
  | terminator
  | long (name : String) (value : Option String)
  | cluster (letters : List Char)
  | plain (text : String)
deriving DecidableEq, Repr

namespace Word

def ofAssignment (cs : List Char) : Word :=
  let name := String.ofList (cs.takeWhile (· ≠ '='))
  match cs.dropWhile (· ≠ '=') with
  | _ :: value => long name (some (String.ofList value))
  | [] => long name none

def ofString (text : String) : Word :=
  match text.toList with
  | ['-', '-'] => terminator
  | '-' :: '-' :: cs => ofAssignment cs
  | ['-'] => plain text
  | '-' :: letters => cluster letters
  | _ => plain text

end Word

inductive Item
  | choice (parameter : Parameter) (value : Option String)
  | switch (s : Switch)
  | refused (cause : Rejection)
deriving DecidableEq, Repr

namespace Item

def unknown (text : String) : Item := refused (.unknownArgument text)

def ofLetter (c : Char) : Item :=
  match Switch.ofLetter? c with
  | some s => switch s
  | none => unknown (String.ofList ['-', c])

def ofName (name : String) (value : Option String) : Item :=
  match Parameter.ofName? name, Switch.ofName? name with
  | some p, _ => choice p value
  | none, some s => if value.isSome then refused (.unexpectedValue s) else switch s
  | none, none => unknown ("--" ++ name)

/-- Items after one that has been held back, which is passed over if the first of them is a word
that is refused. -/
def behind (held : Option Item) : List Item → List Item
  | refused cause :: items => refused cause :: items
  | items => held.toList ++ items

def scan (held : Option Item) : List String → List Item
  | [] => held.toList
  | w :: ws =>
    match Word.ofString w with
    | .terminator => behind held (ws.take 1 |>.map unknown)
    | .plain text =>
      match held with
      | some (choice p none) => scan (some (choice p (some text))) ws
      | _ => [unknown text]
    | .cluster letters => behind held (letters.map ofLetter) ++ scan none ws
    | .long name value =>
      match ofName name value with
      | choice p none => held.toList ++ scan (some (choice p none)) ws
      | item => behind held [item] ++ scan none ws

def ofWords (ws : List String) : List Item := scan none ws

end Item

end StorageTrials

import StorageTrials.Settings
import StorageTrials.Toml

namespace StorageTrials

structure Defaults where
  server : Option String
  port : Option Nat
  db : Option String
  collection : Option String
  loopCount : Option Nat
  timeout : Option String
  sourceDir : Option String
  destinationDir : Option String
deriving DecidableEq, Repr

namespace Defaults

def empty : Defaults := ⟨none, none, none, none, none, none, none, none⟩

def word? (bits : Nat) (n : Int) : Option Nat :=
  if 0 ≤ n && n < 2 ^ bits then some n.toNat else none

/-- Take up an entry; keys other than those known and values of another type are refused. -/
def set? (d : Defaults) : String × Toml.Value → Option Defaults
  | ("server", .string s) => some { d with server := some (String.ofList s) }
  | ("port", .integer n) => (word? 16 n).map fun n => { d with port := some n }
  | ("db", .string s) => some { d with db := some (String.ofList s) }
  | ("collprefix", .string s) => some { d with collection := some (String.ofList s) }
  | ("loopcnt", .integer n) => (word? 32 n).map fun n => { d with loopCount := some n }
  | ("timeout", .string s) => some { d with timeout := some (String.ofList s) }
  | ("srcdir", .string s) => some { d with sourceDir := some (String.ofList s) }
  | ("destdir", .string s) => some { d with destinationDir := some (String.ofList s) }
  | _ => none

def ofEntries? (entries : List (String × Toml.Value)) : Option Defaults :=
  entries.foldlM set? empty

def timeoutSpan (d : Defaults) : Except Stop (Option Duration) :=
  match d.timeout with
  | none => .ok none
  | some text => (readTimeout text).map some

def parse (text : String) : Except Stop Defaults := do
  match (Toml.read? text).bind ofEntries? with
  | none => .error (.fault (.toml "not a document of known keys with values of their types"))
  | some d =>
    let _ ← d.timeoutSpan
    .ok d

end Defaults

end StorageTrials

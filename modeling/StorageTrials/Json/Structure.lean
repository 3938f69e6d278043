import StorageTrials.Duration
import StorageTrials.Json.Number

namespace StorageTrials.Json

open StorageTrials.Number StorageTrials.Text

namespace Value

def ofText (s : String) : Value := .string (encode s.toList)

def ofNat (n : Nat) : Value := .number (digits n)

def ofDuration (d : Duration) : Value := ofNat d.nanos

def ofMembers (members : List (String × Value)) : Value :=
  .object (members.map fun (k, v) => (encode k.toList, v))

def text? : Value → Option String
  | .string cs => (decode? cs).map String.ofList
  | _ => none

def boolean? : Value → Option Bool
  | .boolean b => some b
  | _ => none

def nat? (bits : Nat) : Value → Option Nat
  | .number cs => natural? bits cs
  | _ => none

def binary64? : Value → Option Binary64
  | .number cs => Json.binary64? cs
  | _ => none

def items? : Value → Option (List Value)
  | .array vs => some vs
  | _ => none

def duration? (v : Value) : Option Duration := (v.nat? 128).map Duration.ofLow64

/-- The value of the only member of a name. -/
def member? (members : List (String × Value)) (name : String) : Option Value :=
  match members.filter (·.1 = name) with
  | [(_, v)] => some v
  | _ => none

def structure? (names : List String) : Value → Option (List Value)
  | .array vs => if vs.length = names.length then some vs else none
  | .object members => do
    let members ← members.mapM fun (k, v) => (decode? k).map fun k => (String.ofList k, v)
    names.mapM (member? members)
  | _ => none

end Value

end StorageTrials.Json

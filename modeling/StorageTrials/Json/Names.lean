import StorageTrials.Json.Structure
import StorageTrials.Record
import StorageTrials.Settings

namespace StorageTrials

open StorageTrials.Json StorageTrials.Text

def Json.Value.name? : Value → Option String
  | .string cs => (decode? cs).map String.ofList
  | .object [(k, .null)] => (decode? k).map String.ofList
  | _ => none

def Operation.toJson (op : Operation) : Value := .ofText op.name

def Operation.ofJson? (v : Value) : Option Operation := v.name?.bind ofName?

def Backend.toJson (b : Backend) : Value := .ofText b.name

def Backend.ofJson? (v : Value) : Option Backend := v.name?.bind ofName?

end StorageTrials

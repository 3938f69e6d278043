import StorageTrials.Units

namespace StorageTrials

open StorageTrials.Number StorageTrials.Text

inductive Operation
  | write
  | read
deriving DecidableEq, Repr

def Operation.all : List Operation := [.write, .read]

def Operation.name : Operation → String
  | write => "write"
  | read => "read"

def Operation.ofName? (name : String) : Option Operation := all.find? (·.name = name)

theorem Operation.ofName?_name (op : Operation) : ofName? op.name = some op := by
  cases op <;> decide

structure Sample where
  bytes : Nat
  elapsed : Duration
deriving DecidableEq, Repr

structure Record where
  file : String
  operation : Operation
  size : Nat
  elapsed : Duration
deriving DecidableEq, Repr

namespace Record

def ofSample (file : String) (operation : Operation) (s : Sample) : Record :=
  ⟨file, operation, s.bytes, s.elapsed⟩

/-- Each trial has a record of its own. -/
def repeatCount : Nat := 1

def columns : List String := ["file", "op", "size", "repeat_count", "time (millisecs)"]

def millis (r : Record) : Binary64 := Units.inSeconds r.elapsed * 1000

def fields (r : Record) : List String :=
  [r.file, r.operation.name, decimal r.size, decimal repeatCount, r.millis.fixed 3]

end Record

end StorageTrials

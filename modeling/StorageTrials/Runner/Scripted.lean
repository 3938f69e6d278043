import StorageTrials.Runner

namespace StorageTrials.Runner

structure Script where
  records : List (Except Fault (Operation × Sample))
  cancels : Bool
  result : Except Fault Bool

def Script.complete : Script := ⟨[], false, .ok true⟩

def playRecords (file : String) : List (Except Fault (Operation × Sample)) → Attempt Unit
  | [] => return ()
  | .error f :: _ => .fail f
  | .ok (op, s) :: rest => do
    record file op s
    playRecords file rest

def play (file : String) (script : Script) : Attempt Bool := do
  playRecords file script.records
  if script.cancels then Ask.cancel
  Attempt.ofExcept script.result

/-- A file without a script of its own completes at once. -/
def scripted (backend : Backend) (s : Settings) (scripts : List (String × Script)) : Runner :=
  ofFiles backend s fun f => play f.name ((scripts.lookup f.name).getD .complete)

end StorageTrials.Runner

import StorageTrials.Text.Separated

namespace StorageTrials

open StorageTrials.Text

namespace Path

def isAbsolute (path : String) : Bool := path.toList.head? = some '/'

/-- A path below a directory. An absolute path stands for itself, and one slash separates the
two parts unless the directory is empty. -/
def join (dir path : String) : String :=
  if isAbsolute path || dir.isEmpty then path
  else if dir.toList.getLast? = some '/' then dir ++ path
  else dir ++ "/" ++ path

inductive Step
  | here
  | up
  | name (n : String)
deriving DecidableEq, Repr

structure Route where
  absolute : Bool
  steps : List Step
  trailing : Bool
deriving DecidableEq, Repr

def Step.ofName (n : String) : Step :=
  if n = "." then .here else if n = ".." then .up else .name n

def route (path : String) : Route where
  absolute := isAbsolute path
  steps := (pieces '/' path.toList |>.filter (· ≠ [])).map fun n => .ofName (String.ofList n)
  trailing := path.toList.getLast? = some '/'

end Path

end StorageTrials

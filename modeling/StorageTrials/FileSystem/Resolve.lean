import StorageTrials.FileSystem

namespace StorageTrials.FileSystem

open StorageTrials.Path

inductive Purpose
  | examine
  | create
  | remove
deriving DecidableEq, Repr

def Purpose.follows (trailing : Bool) : Purpose → Bool
  | examine => true
  | create => !trailing
  | remove => false

inductive Spot
  | directory (id : NodeId)
  /-- To a name in a directory, taken or not, with a slash behind it or not. -/
  | entry (dir : NodeId) (name : String) (trailing : Bool)
deriving DecidableEq, Repr

inductive Advance
  | spot (s : Spot)
  | link (dir : NodeId) (target : String) (rest : List Step)
  | fault (e : SystemError)

def maxNameBytes : Nat := 255

def maxPathBytes : Nat := 4096

def maxLinks : Nat := 40

def child (fs : FileSystem) (dir : NodeId) (name : String) :
    Except SystemError (Option NodeId) :=
  if maxNameBytes < name.utf8ByteSize then .error .nameTooLong else .ok (fs.lookup? dir name)

def advance (fs : FileSystem) (trailing : Bool) (dir : NodeId) : List Step → Advance
  | [] => .spot (.directory dir)
  | [.here] => .spot (.directory dir)
  | [.up] => .spot (.directory (fs.parent dir))
  | [.name n] => .spot (.entry dir n trailing)
  | .here :: rest => advance fs trailing dir rest
  | .up :: rest => advance fs trailing (fs.parent dir) rest
  | .name n :: rest =>
    match fs.child dir n with
    | .error e => .fault e
    | .ok none => .fault .noEntry
    | .ok (some id) =>
      match fs.node? id with
      | some (.directory _) => advance fs trailing id rest
      | some (.link target) => .link dir target rest
      | _ => .fault .notDirectory

def start (dir : NodeId) (r : Route) : NodeId := if r.absolute then root else dir

def linkAt (fs : FileSystem) (purpose : Purpose) :
    Spot → Except SystemError (Option (NodeId × String))
  | .directory _ => .ok none
  | .entry dir name trailing => do
    if purpose.follows trailing then
      match ← fs.child dir name with
      | none => .ok none
      | some id =>
        match fs.node? id with
        | some (.link target) => .ok (some (dir, target))
        | _ => .ok none
    else .ok none

/-- Follow steps, and at most `links` links. -/
def walk (fs : FileSystem) (purpose : Purpose) :
    (links : Nat) → (trailing : Bool) → NodeId → List Step → Except SystemError Spot
  | links, trailing, dir, steps =>
    match fs.advance trailing dir steps with
    | .fault e => .error e
    | .link dir target rest =>
      let r := route target
      match links with
      | 0 => .error .tooManyLinks
      | links + 1 => walk fs purpose links trailing (start dir r) (r.steps ++ rest)
    | .spot s =>
      match fs.linkAt purpose s with
      | .error e => .error e
      | .ok none => .ok s
      | .ok (some (dir, target)) =>
        let r := route target
        match links with
        | 0 => .error .tooManyLinks
        | links + 1 => walk fs purpose links (trailing || r.trailing) (start dir r) r.steps

def locate (fs : FileSystem) (purpose : Purpose) (path : String) : Except SystemError Spot :=
  if path.toList.contains '\x00' then .error .nulInName
  else if path.isEmpty then .error .noEntry
  else if maxPathBytes ≤ path.utf8ByteSize then .error .nameTooLong
  else
    let r := route path
    fs.walk purpose maxLinks r.trailing (start fs.workingDir r) r.steps

end StorageTrials.FileSystem

import StorageTrials.FileSystem.Resolve

namespace StorageTrials.FileSystem

inductive Finding
  | file (size : Nat)
  | directory
  | other
deriving DecidableEq, Repr

def find (fs : FileSystem) (path : String) : Except SystemError NodeId := do
  match ← fs.locate .examine path with
  | .directory id => .ok id
  | .entry dir name trailing =>
    match ← fs.child dir name with
    | none => .error .noEntry
    | some id => if trailing && !fs.isDirectory id then .error .notDirectory else .ok id

def inspect (fs : FileSystem) (path : String) : Except SystemError Finding := do
  match fs.node? (← fs.find path) with
  | some (.file content) => .ok (.file content.size)
  | some (.directory _) => .ok .directory
  | _ => .ok .other

def create (fs : FileSystem) (path : String) : Except SystemError (FileSystem × NodeId) := do
  match ← fs.locate .create path with
  | .directory _ => .error .isDirectory
  | .entry dir name trailing =>
    if trailing then .error .isDirectory
    else
      match ← fs.child dir name with
      | none => .ok (fs.add dir name (.file .empty))
      | some id =>
        match fs.node? id with
        | some (.directory _) => .error .isDirectory
        | some (.file _) => .ok (fs.set id (.file .empty), id)
        | _ => .ok (fs, id)

/-- Remove an entry that is not a directory. A link goes, and what it points to stays. -/
def remove (fs : FileSystem) (path : String) : Except SystemError FileSystem := do
  match ← fs.locate .remove path with
  | .directory _ => .error .isDirectory
  | .entry dir name trailing =>
    match ← fs.child dir name with
    | none => .error .noEntry
    | some id =>
      if fs.isDirectory id then .error .isDirectory
      else if trailing then .error .notDirectory
      else .ok (fs.drop dir name)

def readText (fs : FileSystem) (path : String) : Except SystemError String := do
  match fs.node? (← fs.find path) with
  | some (.file content) =>
    match String.fromUTF8? content with
    | some s => .ok s
    | none => .error .notText
  | some (.directory _) => .error .isDirectory
  | _ => .ok ""

def saveText (fs : FileSystem) (path text : String) : FileSystem × Except SystemError Unit :=
  match fs.create path with
  | .error e => (fs, .error e)
  | .ok (fs, id) => if text.isEmpty then (fs, .ok ()) else fs.append id text.toUTF8

end StorageTrials.FileSystem

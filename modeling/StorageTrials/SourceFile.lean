import StorageTrials.Dialogue

namespace StorageTrials

inductive SourceFault
  | inaccessible (cause : SystemError)
  | notRegular
deriving DecidableEq, Repr

def SourceFault.message : SourceFault → String
  | inaccessible cause => cause.message
  | notRegular => "not a regular file"

inductive SourceStatus
  /-- A regular file that can be opened, with the size it had when it was looked at. -/
  | ready (size : Nat)
  | unavailable (cause : SourceFault)
deriving DecidableEq, Repr

structure SourceFile where
  name : String
  path : String
  status : SourceStatus
deriving DecidableEq, Repr

namespace SourceFile

def size? (f : SourceFile) : Option Nat :=
  match f.status with
  | .ready size => some size
  | .unavailable _ => none

def isReady (f : SourceFile) : Bool := f.size?.isSome

def fault? (f : SourceFile) : Option Fault :=
  match f.status with
  | .ready _ => none
  | .unavailable cause => some (.missingSource f.path cause.message)

def examine (path : String) : Dialogue SourceStatus := do
  match ← Ask.inspect path with
  | .error e => return .unavailable (.inaccessible e)
  | .ok (.file size) =>
    match ← Ask.probe path with
    | .ok () => return .ready size
    | .error e => return .unavailable (.inaccessible e)
  | .ok _ => return .unavailable .notRegular

def ofName (dir name : String) : Dialogue SourceFile := do
  let path := Path.join dir name
  return ⟨name, path, ← examine path⟩

def ofNames (dir : String) : List String → Dialogue (List SourceFile)
  | [] => return []
  | name :: names => do
    let f ← ofName dir name
    return f :: (← ofNames dir names)

end SourceFile

def checkSourceDir (dir : String) : Attempt Unit := do
  match ← Ask.inspect dir with
  | .error e => .fail (.settings (.sourceInaccessible dir e))
  | .ok .directory => return ()
  | .ok _ => .fail (.settings (.sourceNotDirectory dir))

def resolveSources (dir : String) (names : List String) : Attempt (List SourceFile) := do
  checkSourceDir dir
  SourceFile.ofNames dir names

def checkDestination (path : String) : Attempt Nat := do
  match ← Attempt.system (Ask.inspect path) with
  | .file size => return size
  | _ => .fail (.trial (.destinationNotFile path))

def checkDestinationDir (dir : String) : Attempt Unit := do
  match ← Ask.inspect dir with
  | .error _ => .fail (.settings (.destinationAbsent dir))
  | .ok .directory => return ()
  | .ok _ => .fail (.settings (.destinationNotDirectory dir))

namespace Settings

def checkFor (s : Settings) (backend : Backend) : Attempt Unit := do
  if s.files.isEmpty then .fail (.settings .noFiles)
  else if s.loopCount = 0 then .fail (.settings .noTrials)
  else
    checkSourceDir s.sourceDir
    match backend with
    | .mounted =>
      match s.destinationDir with
      | none => .fail (.settings .destinationMissing)
      | some dir => checkDestinationDir dir
    | .direct =>
      let _ ← Attempt.ofExcept s.connection.resolve
      return ()

def checkBackends (s : Settings) : List Backend → Attempt Unit
  | [] => return ()
  | b :: bs => do
    s.checkFor b
    s.checkBackends bs

def check (s : Settings) : Attempt Unit := s.checkBackends s.mode.backends

end Settings

end StorageTrials

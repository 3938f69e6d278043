import StorageTrials.Runner

namespace StorageTrials.Runner

/-- Remove what stands at a path. A failure is reported at most, as the copy that follows empties
the file anyway. -/
def removeIfPresent (path : String) : Dialogue Unit := do
  match ← Ask.remove path with
  | .ok () => return ()
  | .error e => if e.kind = .notFound then return () else Ask.report (.deleteIgnored path e)

def mountedWrite (s : Settings) (f : SourceFile) (dest : String) (iteration : Nat) :
    Attempt Bool := do
  removeIfPresent dest
  let result ← Ask.trial (.copy f.path dest) s.timeout
  settle ⟨.mounted, f.name, iteration⟩ .write result

def mountedRead (s : Settings) (f : SourceFile) (dest : String) (iteration : Nat) :
    Attempt Bool := do
  let result ← Ask.trial (.drain dest) s.timeout
  settle ⟨.mounted, f.name, iteration⟩ .read result

def isCopied (f : SourceFile) (dest : String) : Dialogue Bool := do
  match ← (checkDestination dest).dialogue with
  | .ok size =>
    if some size = f.size? then return true
    else
      Ask.report (.destinationIncomplete .mounted f.name dest size f.size?)
      return false
  | .error e =>
    Ask.report (.destinationUnreadable .mounted f.name dest e)
    return false

def mountedFile (s : Settings) (f : SourceFile) : Attempt Bool := do
  match s.destinationDir with
  | none => .fail (.settings .destinationMissing)
  | some dir =>
    let dest := Path.join dir f.name
    let written ← trials (mountedWrite s f dest) s.loopCount 0 true
    if ← isCopied f dest then trials (mountedRead s f dest) s.loopCount 0 written
    else return false

def mounted (s : Settings) : Runner := ofFiles .mounted s (mountedFile s)

end StorageTrials.Runner

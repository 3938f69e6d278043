import StorageTrials.Runner

namespace StorageTrials.Runner

/-- A trial whose cleaning up fails is not carried out. -/
def directWrite (s : Settings) (store : StoreId) (f : SourceFile) (iteration : Nat) :
    Attempt Bool := do
  let place : TrialPlace := ⟨.direct, f.name, iteration⟩
  match ← Ask.deleteVersions store f.name with
  | .error e =>
    Ask.report (.cleanupFailed place e)
    return false
  | .ok count =>
    Ask.report (.versionsRemoved place count)
    let result ← Ask.trial (.upload store f.name f.path) s.timeout
    settle place .write result

def directRead (s : Settings) (store : StoreId) (f : SourceFile) (iteration : Nat) :
    Attempt Bool := do
  let result ← Ask.trial (.download store f.name) s.timeout
  settle ⟨.direct, f.name, iteration⟩ .read result

def directFile (s : Settings) (store : StoreId) (f : SourceFile) : Attempt Bool := do
  let written ← trials (directWrite s store f) s.loopCount 0 true
  trials (directRead s store f) s.loopCount 0 written

def direct (s : Settings) (store : StoreId) : Runner := ofFiles .direct s (directFile s store)

end StorageTrials.Runner

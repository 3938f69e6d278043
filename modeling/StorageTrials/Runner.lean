import StorageTrials.SourceFile

namespace StorageTrials

structure Runner where
  backend : Backend
  check : Attempt Unit
  session : Attempt Bool

namespace Runner

def isRunnable (r : Runner) : Dialogue Bool := do
  match ← r.check.dialogue with
  | .ok () => return true
  | .error f =>
    Ask.report (.notRunnable r.backend f)
    return false

/-- A run takes a tally along, and adds each record where it is printed. -/
def run (r : Runner) (t : Tally) : Dialogue (Option (Tally × Except Fault Bool)) :=
  r.session.dialogue.tallied t

def record (file : String) (op : Operation) (s : Sample) : Attempt Unit :=
  .system (Ask.print (.record (.ofSample file op s)))

/-- Print the record of a trial, or report why there is none. Whether there is one is the answer.
A cancelled run and a failing stream end the file. -/
def settle (place : TrialPlace) (op : Operation) (result : Except Fault Sample) :
    Attempt Bool := do
  match result with
  | .ok s =>
    record place.file op s
    return true
  | .error .cancelled => .fail .cancelled
  | .error f =>
    Ask.report (.trialFailed place op f)
    return false

def trials (trial : Nat → Attempt Bool) :
    (count : Nat) → (iteration : Nat) → (completed : Bool) → Attempt Bool
  | 0, _, completed => return completed
  | count + 1, iteration, completed => do
    let ok ← trial iteration
    trials trial count (iteration + 1) (completed && ok)

def conclude (backend : Backend) (file : String) : Except Fault Bool → Attempt Bool
  | .ok true => do
    Ask.report (.fileCompleted backend file)
    return true
  | .ok false => do
    Ask.report (.fileIncomplete backend file)
    return false
  | .error .cancelled => .fail .cancelled
  | .error f => do
    Ask.report (.fileFailed backend file f)
    return false

def runFiles (backend : Backend) (runFile : SourceFile → Attempt Bool) :
    List SourceFile → (completed : Bool) → Attempt Bool
  | [], completed => return completed
  | f :: fs, completed => do
    match f.fault? with
    | some cause =>
      Ask.report (.skippingFile backend f.name cause)
      runFiles backend runFile fs completed
    | none =>
      let ok ← conclude backend f.name (← (runFile f).dialogue)
      runFiles backend runFile fs (completed && ok)

def runAll (backend : Backend) (s : Settings) (runFile : SourceFile → Attempt Bool) :
    Attempt Bool := do
  let files ← resolveSources s.sourceDir s.files
  Ask.report (.startingRun backend files.length (files.filter (·.isReady)).length s.loopCount)
  Attempt.system (Ask.print .header)
  let completed ← runFiles backend runFile files true
  Attempt.system (Ask.print .footer)
  return completed

def ofFiles (backend : Backend) (s : Settings) (runFile : SourceFile → Attempt Bool) : Runner where
  backend := backend
  check := s.checkFor backend
  session := runAll backend s runFile

end Runner

end StorageTrials

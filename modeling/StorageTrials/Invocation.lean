import StorageTrials.Runner.Direct
import StorageTrials.Runner.Mounted
import StorageTrials.Summary.Written

namespace StorageTrials

def notRunnable : Int := -1

inductive Phase
  | idle
  | configured
  | running
  | done
deriving DecidableEq, Repr

structure Invocation where
  settings : Option Settings
  phase : Phase
deriving DecidableEq, Repr

namespace Invocation

def idle : Invocation := ⟨none, .idle⟩

def configure (_ : Invocation) (s : Settings) : Invocation := ⟨some s, .configured⟩

def finished (i : Invocation) : Invocation := { i with phase := .done }

def areRunnable : List Runner → Dialogue Bool
  | [] => return true
  | r :: rs => do if ← r.isRunnable then areRunnable rs else return false

def judge (backend : Backend) : Except Fault Bool → Dialogue Bool
  | .ok true => do
    Ask.report (.runCompleted backend)
    return true
  | .ok false => do
    Ask.report (.runIncomplete backend)
    return false
  | .error f => do
    Ask.report (.runFailed backend f)
    return false

def reportGroups (runner : String) : List GroupSummary → Dialogue Unit
  | [] => return ()
  | g :: gs => do
    Ask.report (.groupSummary runner g)
    reportGroups runner gs

/-- Run one runner with a tally of its own and sum it up. There is no summary if a total leaves its
range. -/
def runOne (r : Runner) : OptionT Dialogue RunnerSummary := do
  let (tally, result) ← OptionT.mk (r.run .empty)
  let completed ← judge r.backend result
  let summary ← OptionT.mk (.done (tally.summary? r.backend.name completed))
  reportGroups summary.runner summary.groups
  return summary

/-- Run the runners in order until the run is cancelled. What follows then counts as failed. -/
def runEach : List Runner → (failed : Nat) → (summaries : List RunnerSummary) →
    OptionT Dialogue (Nat × List RunnerSummary)
  | [], failed, summaries => return (failed, summaries)
  | r :: rs, failed, summaries => do
    if ← Ask.isCancelled then
      Ask.report (.cancelledBeforeStart r.backend)
      runEach rs (failed + 1) summaries
    else
      let summary ← runOne r
      runEach rs (if summary.completed then failed else failed + 1) (summaries ++ [summary])

def save (summary : Summary) : Option String → Dialogue Unit
  | none => return ()
  | some path => do
    match ← Ask.saveText path summary.written with
    | .ok () => Ask.report (.summaryWritten path)
    | .error e => Ask.report (.summaryNotWritten path (.system e))

def execute (s : Settings) (runners : List Runner) : OptionT Dialogue Int := do
  if runners.isEmpty then
    Ask.report .noRunner
    return notRunnable
  else if !(← areRunnable runners) then return notRunnable
  else
    match ← Ask.openOutput s.outfile with
    | .error e =>
      Ask.report (.cannotOpenOutput (.system e))
      return notRunnable
    | .ok () =>
      let timestamp ← Ask.now
      let (failed, summaries) ← runEach runners 0 []
      save ⟨timestamp, s.loopCount, summaries⟩ s.summaryPath
      return failed

def gate (s : Settings) : List Backend → Attempt Unit
  | [] => return ()
  | b :: bs => do
    match ← (s.checkFor b).dialogue with
    | .ok () => gate s bs
    | .error f =>
      Ask.report (.notRunnable b f)
      .fail f

def runnerFor (s : Settings) : Backend → Attempt Runner
  | .mounted => return .mounted s
  | .direct => do
    let connection ← Attempt.ofExcept s.connection.resolve
    let store ← Attempt.mk (Ask.connect connection s.timeout)
    return .direct s store

def runnersFor (s : Settings) : List Backend → Attempt (List Runner)
  | [] => return []
  | b :: bs => do
    let r ← runnerFor s b
    return r :: (← runnersFor s bs)

def buildRunners (s : Settings) : Attempt (List Runner) := do
  gate s s.mode.backends
  runnersFor s s.mode.backends

def start (s : Settings) : OptionT Dialogue Int := do
  match ← (buildRunners s).dialogue with
  | .ok runners => execute s runners
  | .error f =>
    Ask.report (.cannotStart f)
    return notRunnable

def withSettings (i : Invocation) (action : Settings → OptionT Dialogue Int) :
    OptionT Dialogue (Int × Invocation) := do
  match i.settings with
  | some s => return (← action s, i.finished)
  | none =>
    Ask.report .unconfigured
    return (notRunnable, i.finished)

def run (i : Invocation) : OptionT Dialogue (Int × Invocation) := i.withSettings start

def runWith (i : Invocation) (runners : List Runner) : OptionT Dialogue (Int × Invocation) :=
  i.withSettings fun s => execute s runners

end Invocation

end StorageTrials

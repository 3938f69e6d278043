import StorageTrials.Settings
import StorageTrials.Tally

namespace StorageTrials

open StorageTrials.Text

inductive Level
  | debug
  | info
  | warn
  | error
deriving DecidableEq, Repr

def Level.name : Level → String
  | debug => "DEBUG"
  | info => "INFO"
  | warn => "WARN"
  | error => "ERROR"

structure TrialPlace where
  runner : Backend
  file : String
  iteration : Nat
deriving DecidableEq, Repr

inductive Event
  | startingRun (runner : Backend) (files ready loops : Nat)
  | skippingFile (runner : Backend) (file : String) (cause : Fault)
  | fileCompleted (runner : Backend) (file : String)
  | fileIncomplete (runner : Backend) (file : String)
  | fileFailed (runner : Backend) (file : String) (cause : Fault)
  | trialFailed (place : TrialPlace) (operation : Operation) (cause : Fault)
  | destinationIncomplete (runner : Backend) (file dest : String) (size : Nat)
      (expected : Option Nat)
  | destinationUnreadable (runner : Backend) (file dest : String) (cause : Fault)
  | deleteIgnored (path : String) (cause : SystemError)
  | versionsRemoved (place : TrialPlace) (count : Nat)
  | cleanupFailed (place : TrialPlace) (cause : Fault)
  | notRunnable (runner : Backend) (cause : Fault)
  | unconfigured
  | noRunner
  | cannotStart (cause : Fault)
  | cannotOpenOutput (cause : Fault)
  | cancelledBeforeStart (runner : Backend)
  | runCompleted (runner : Backend)
  | runIncomplete (runner : Backend)
  | runFailed (runner : Backend) (cause : Fault)
  | groupSummary (runner : String) (group : GroupSummary)
  | summaryWritten (path : String)
  | summaryNotWritten (path : String) (cause : Fault)
  | settingsRejected (cause : Fault)
deriving DecidableEq, Repr

namespace Event

def level : Event → Level
  | fileCompleted .. | deleteIgnored .. | versionsRemoved .. => .debug
  | startingRun .. | runCompleted _ | groupSummary .. | summaryWritten _ => .info
  | skippingFile .. | fileIncomplete .. | fileFailed .. | trialFailed ..
  | destinationIncomplete .. | destinationUnreadable .. | cleanupFailed ..
  | cancelledBeforeStart _ | summaryNotWritten .. => .warn
  | notRunnable .. | unconfigured | noRunner | cannotStart _ | cannotOpenOutput _
  | runIncomplete _ | runFailed .. | settingsRejected _ => .error

def message : Event → String
  | startingRun .. => "starting run"
  | skippingFile _ _ cause => "skipping file: " ++ cause.message
  | fileCompleted .. => "file completed"
  | fileIncomplete .. => "file did not complete every trial"
  | fileFailed _ _ cause => "file failed: " ++ cause.message
  | trialFailed _ _ cause => "trial failed: " ++ cause.message
  | destinationIncomplete .. => "skipping read trials, destination is incomplete"
  | destinationUnreadable _ _ _ cause =>
    "skipping read trials, destination not readable: " ++ cause.message
  | deleteIgnored .. => "ignoring failed delete"
  | versionsRemoved .. => "removed stored versions"
  | cleanupFailed _ cause => "version cleanup failed: " ++ cause.message
  | notRunnable _ cause => "not runnable: " ++ cause.message
  | unconfigured => "driver has no configuration"
  | noRunner => "no runner configured"
  | cannotStart cause => "cannot start benchmark: " ++ cause.message
  | cannotOpenOutput cause => "cannot open statistics output: " ++ cause.message
  | cancelledBeforeStart _ => "cancelled before start"
  | runCompleted _ => "run completed"
  | runIncomplete _ => "run did not complete"
  | runFailed _ cause => "run failed: " ++ cause.message
  | groupSummary .. => "summary"
  | summaryWritten _ => "summary written"
  | summaryNotWritten _ cause => "could not write summary: " ++ cause.message
  | settingsRejected cause => cause.message

def fileFields (runner : Backend) (file : String) : List (String × String) :=
  [("runner", runner.name), ("file", file)]

def placeFields (p : TrialPlace) : List (String × String) :=
  fileFields p.runner p.file ++ [("iteration", decimal p.iteration)]

def sizeText : Option Nat → String
  | some n => "Some(" ++ decimal n ++ ")"
  | none => "None"

def fields : Event → List (String × String)
  | startingRun runner files ready loops =>
    [("runner", runner.name), ("files", decimal files), ("ready", decimal ready),
      ("loops", decimal loops)]
  | skippingFile runner file _ | fileCompleted runner file | fileIncomplete runner file
  | fileFailed runner file _ => fileFields runner file
  | trialFailed place operation cause =>
    placeFields place ++ [("op", operation.name), ("category", cause.reach.name)]
  | destinationIncomplete runner file dest size expected =>
    fileFields runner file ++
      [("dest", dest), ("size", decimal size), ("expected", sizeText expected)]
  | destinationUnreadable runner file dest _ => fileFields runner file ++ [("dest", dest)]
  | deleteIgnored path cause => [("path", path), ("error", cause.message)]
  | versionsRemoved place count => placeFields place ++ [("deleted", decimal count)]
  | cleanupFailed place _ => placeFields place
  | notRunnable runner _ | cancelledBeforeStart runner | runCompleted runner
  | runIncomplete runner => [("runner", runner.name)]
  | runFailed runner cause => [("runner", runner.name), ("category", cause.reach.name)]
  | cannotStart cause => [("category", cause.reach.name)]
  | groupSummary runner g =>
    [("runner", runner), ("file", g.file), ("op", g.operation.name), ("trials", decimal g.trials),
      ("bytes", Units.formatBytes g.bytes), ("p50", Units.formatLatency g.latency.p50),
      ("p95", Units.formatLatency g.latency.p95),
      ("throughput", Units.formatThroughput g.throughput)]
  | summaryWritten path | summaryNotWritten path _ => [("path", path)]
  | unconfigured | noRunner | cannotOpenOutput _ | settingsRejected _ => []

end Event

end StorageTrials

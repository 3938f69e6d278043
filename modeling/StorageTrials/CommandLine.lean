import StorageTrials.Defaults.File

namespace StorageTrials

structure Choices where
  sourceDir : Option String
  destinationDir : Option String
  connection : ConnectionOptions
  loopCount : Option Nat
  outfile : Option String
  timeout : Option Duration
  summaryPath : Option String
  defaultsPath : Option String
  verbose : Bool
deriving DecidableEq, Repr

def Choices.none : Choices where
  sourceDir := .none
  destinationDir := .none
  connection := .empty
  loopCount := .none
  outfile := .none
  timeout := .none
  summaryPath := .none
  defaultsPath := .none
  verbose := false

structure CommandLine extends Choices where
  mode : Mode
  files : List String
deriving DecidableEq, Repr

def ConnectionOptions.orElse (first second : ConnectionOptions) : ConnectionOptions where
  server := first.server.or second.server
  port := first.port.or second.port
  db := first.db.or second.db
  collection := first.collection.or second.collection

def Defaults.connection (d : Defaults) : ConnectionOptions := ⟨d.server, d.port, d.db, d.collection⟩

namespace CommandLine

open StorageTrials.Text

def fileNames (c : CommandLine) : List String := (c.files.map trim).filter (· ≠ "")

/-- The timeout that is given, or that of the defaults, which is not looked at otherwise. -/
def timeoutWith (c : CommandLine) (d : Defaults) : Except Stop (Option Duration) :=
  match c.timeout with
  | some t => .ok (some t)
  | none => d.timeoutSpan

def settings (c : CommandLine) (d : Defaults) : Except Stop Settings :=
  (c.timeoutWith d).map fun timeout =>
    { mode := c.mode
      sourceDir := (c.sourceDir.or d.sourceDir).getD defaultSourceDir
      destinationDir := c.destinationDir.or d.destinationDir
      connection := c.connection.orElse d.connection
      files := c.fileNames
      loopCount := (c.loopCount.or d.loopCount).getD defaultLoopCount
      outfile := c.outfile
      verbose := c.verbose
      timeout := timeout
      summaryPath := c.summaryPath }

def loadDefaults (c : CommandLine) (env : Environment) : Dialogue (Except Stop Defaults) :=
  match c.defaultsPath with
  | some path => Defaults.load path
  | none => Defaults.loadStandard env

def loadSettings (c : CommandLine) (env : Environment) : Dialogue (Except Stop Settings) := do
  return (← c.loadDefaults env) >>= c.settings

end CommandLine

end StorageTrials

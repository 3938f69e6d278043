import StorageTrials.Settings

namespace StorageTrials

open StorageTrials.Text

inductive Parameter
  | mode
  | sourceDir
  | destinationDir
  | server
  | port
  | db
  | collection
  | files
  | loopCount
  | outfile
  | timeout
  | summary
  | defaults
deriving DecidableEq, Repr

namespace Parameter

def all : List Parameter :=
  [mode, sourceDir, destinationDir, server, port, db, collection, files, loopCount, outfile,
    timeout, summary, defaults]

def name : Parameter → String
  | mode => "run"
  | sourceDir => "srcdir"
  | destinationDir => "destdir"
  | server => "server"
  | port => "port"
  | db => "db"
  | collection => "collprefix"
  | files => "files"
  | loopCount => "loopcnt"
  | outfile => "outfile"
  | timeout => "timeout"
  | summary => "summary"
  | defaults => "config"

def ofName? (name : String) : Option Parameter := all.find? (·.name = name)

theorem mem_all (p : Parameter) : p ∈ all := by cases p <;> decide

theorem ofName?_name (p : Parameter) : ofName? p.name = some p := by cases p <;> decide

def flag (p : Parameter) : String := "--" ++ p.name

def placeholder (p : Parameter) : String := "<" ++ p.name.toUpper ++ ">"

def label (p : Parameter) : String := p.flag ++ " " ++ p.placeholder

/-- The variable of the environment that stands in for a parameter, if there is one. -/
def environmentName? : Parameter → Option String
  | server => some "GRIDBENCH_SERVER"
  | port => some "GRIDBENCH_PORT"
  | db => some "GRIDBENCH_DB"
  | collection => some "GRIDBENCH_COLLPREFIX"
  | _ => none

end Parameter

inductive Switch
  | verbose
  | help (detailed : Bool)
  | version
deriving DecidableEq, Repr

namespace Switch

def name : Switch → String
  | verbose => "verbose"
  | help _ => "help"
  | version => "version"

def ofName? : String → Option Switch
  | "verbose" => some verbose
  | "help" => some (help true)
  | "version" => some version
  | _ => none

def ofLetter? : Char → Option Switch
  | 'v' => some verbose
  | 'h' => some (help false)
  | 'V' => some version
  | _ => none

def label (s : Switch) : String := "--" ++ s.name

end Switch

end StorageTrials

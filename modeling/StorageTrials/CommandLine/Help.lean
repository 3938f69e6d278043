import StorageTrials.CommandLine.Parameter
import StorageTrials.Defaults.File
import StorageTrials.Text.Separated
import StorageTrials.Text.Terminal

namespace StorageTrials

open StorageTrials.Text

namespace Help

def about : String :=
  "File read/write latency benchmark for GridFS-backed mounts and direct GridFS access"

def usageHeading : String := "Usage:"

def usage : String :=
  appName ++ " [OPTIONS] " ++ Parameter.mode.label ++ " " ++ Parameter.files.label

def describeParameter : Parameter → String
  | .mode => "Backend(s) to benchmark"
  | .sourceDir => "Directory the listed files are read from [default: .]"
  | .destinationDir => "Mounted destination directory (mounted mode)"
  | .server => "Database server host (direct mode)"
  | .port => "Database server port (direct mode)"
  | .db => "Database name (direct mode)"
  | .collection => "GridFS bucket name (direct mode)"
  | .files => "Comma-separated file names under the source directory"
  | .loopCount => "Write and read repetitions per file [default: 100]"
  | .outfile => "Statistics output file; standard output when omitted"
  | .timeout => "Per-trial timeout, e.g. \"30s\" or \"2m\""
  | .summary => "Write a JSON summary of the run to this path"
  | .defaults => "Defaults file; the standard location is used when omitted"

def describeMode : Mode → String
  | .mounted => "Ordinary file operations against the mounted filesystem"
  | .direct => "GridFS put/get through the driver"
  | .both => "Mounted first, then direct"

structure Entry where
  margin : String
  forms : List String
  operand : String
  description : String
  possible : List (String × String)
  setting : Option String

def parameterEntry (env : Environment) (p : Parameter) : Entry where
  margin := "      "
  forms := [p.flag]
  operand := " " ++ p.placeholder
  description := describeParameter p
  possible := if p = .mode then Mode.all.map fun m => (m.name, describeMode m) else []
  setting := p.environmentName?.map fun v => "[env: " ++ v ++ "=" ++ (env.lookup v).getD "" ++ "]"

def switchEntry (letter : Char) (s : Switch) (description : String) : Entry where
  margin := "  "
  forms := ["-" ++ String.singleton letter, s.label]
  operand := ""
  description := description
  possible := []
  setting := none

/-- All options; each form of the help points to the other one. -/
def entries (env : Environment) (detailed : Bool) : List Entry :=
  let other := if detailed then "Print help (see a summary with '-h')"
    else "Print help (see more with '--help')"
  Parameter.all.map (parameterEntry env) ++
    [switchEntry 'v' .verbose "Verbose output", switchEntry 'h' (.help detailed) other,
      switchEntry 'V' .version "Print version"]

def Entry.labelIn (style : String → String) (e : Entry) : String :=
  e.margin ++ ", ".intercalate (e.forms.map style) ++ e.operand

def Entry.label (e : Entry) : String := e.labelIn id

def Entry.styledLabel (e : Entry) : String := e.labelIn (Terminal.styled [.bold])

def heading (text : String) : String := Terminal.styled [.bold, .underlined] text

def blanks (n : Nat) : String := String.ofList (List.replicate n ' ')

def indented (indent : Nat) (text : String) : String :=
  ("\n" ++ blanks indent).intercalate ((pieces '\n' text.toList).map String.ofList)

def padding (width : Nat) (s : String) : String := blanks (width - s.length)

/-- The column at which the descriptions start in the brief form. -/
def column (es : List Entry) : Nat := (es.map (·.label.length)).foldl max 0 + 2

def briefEntry (column : Nat) (e : Entry) : String :=
  let possible :=
    if e.possible.isEmpty then []
    else ["[possible values: " ++ ", ".intercalate (e.possible.map (·.1)) ++ "]"]
  e.styledLabel ++ padding column e.label ++
    indented column (" ".intercalate (e.description :: possible ++ e.setting.toList)) ++ "\n"

def detailIndent : Nat := 10

def possibleLines (values : List (String × String)) : List String :=
  let width := (values.map (·.1.length)).foldl max 0
  "Possible values:" ::
    values.map fun (name, meaning) => "- " ++ name ++ ":" ++ padding (width + 1) name ++ meaning

def detailedEntry (e : Entry) : String :=
  let newLine := "\n" ++ blanks detailIndent
  let possible :=
    if e.possible.isEmpty then ""
    else "\n" ++ newLine ++ newLine.intercalate (possibleLines e.possible)
  e.styledLabel ++ newLine ++
    indented detailIndent ("\n\n".intercalate (e.description :: e.setting.toList)) ++ possible ++
    "\n"

def styledText (env : Environment) (detailed : Bool) : String :=
  let es := entries env detailed
  let options :=
    if detailed then "\n".intercalate (es.map detailedEntry)
    else String.join (es.map (briefEntry (column es)))
  about ++ "\n\n" ++ heading usageHeading ++ " " ++ usage ++ "\n\n" ++ heading "Options:" ++ "\n" ++
    options

def text? (env : Environment) (detailed : Bool) : Option String :=
  Terminal.plain? (styledText env detailed)

def printed (env : Environment) (detailed : Bool) : String :=
  Terminal.passing (styledText env detailed)

end Help

def version : String := "0.1.0"

def versionText : String := appName ++ " " ++ version ++ "\n"

end StorageTrials

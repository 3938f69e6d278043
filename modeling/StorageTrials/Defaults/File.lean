import StorageTrials.Defaults
import StorageTrials.Dialogue

namespace StorageTrials

abbrev Environment := List (String × String)

def appName : String := "gridbench"

namespace Defaults

def fileName : String := "gridbench.toml"

/-- The directory for settings: the one that is named, if the name is absolute, or else one in the
home directory. -/
def settingsDir? (env : Environment) : Option String :=
  match (env.lookup "XDG_CONFIG_HOME").filter Path.isAbsolute with
  | some dir => some dir
  | none => ((env.lookup "HOME").filter (· ≠ "")).map (Path.join · ".config")

def standardPath? (env : Environment) : Option String :=
  (settingsDir? env).map fun dir => Path.join (Path.join dir appName) fileName

def load (path : String) : Dialogue (Except Stop Defaults) := do
  match ← Ask.readText path with
  | .error e => return .error (.fault (.settings (.defaultsUnreadable path e)))
  | .ok text =>
    match parse text with
    | .ok d => return .ok d
    | .error .overflow => return .error .overflow
    | .error (.fault f) => return .error (.fault (.settings (.defaultsRefused path f.message)))

def loadStandard (env : Environment) : Dialogue (Except Stop Defaults) := do
  match standardPath? env with
  | none => return .ok empty
  | some path =>
    match ← Ask.inspect path with
    | .error _ => return .ok empty
    | .ok _ => load path

end Defaults

end StorageTrials

import StorageTrials.Duration.Written
import StorageTrials.SystemError

namespace StorageTrials

open StorageTrials.Text

inductive SettingsFault
  | noFiles
  | noTrials
  | sourceInaccessible (dir : String) (cause : SystemError)
  | sourceNotDirectory (dir : String)
  | destinationMissing
  | destinationAbsent (dir : String)
  | destinationNotDirectory (dir : String)
  | connectionIncomplete (missing : List String)
  | badTimeout (text : String) (cause : Duration.ReadError)
  | defaultsUnreadable (path : String) (cause : SystemError)
  | defaultsRefused (path : String) (message : String)
  | described (text : String)
deriving DecidableEq, Repr

def SettingsFault.message : SettingsFault → String
  | noFiles => "file list is empty"
  | noTrials => "loop count must be greater than 0"
  | sourceInaccessible dir cause =>
    "source directory " ++ dir ++ " is not accessible: " ++ cause.message
  | sourceNotDirectory dir => "source path is not a directory: " ++ dir
  | destinationMissing => "mounted mode requires --destdir"
  | destinationAbsent dir => "destination directory does not exist: " ++ dir
  | destinationNotDirectory dir => "destination path is not a directory: " ++ dir
  | connectionIncomplete missing => "direct mode requires " ++ ", ".intercalate missing
  | badTimeout text cause => "invalid timeout " ++ quoted text ++ ": " ++ cause.message
  | defaultsUnreadable path cause =>
    "Failed to read config file " ++ path ++ ": " ++ cause.message
  | defaultsRefused path message => "Failed to parse config file " ++ path ++ ": " ++ message
  | described text => text

inductive TrialFault
  | destinationNotFile (path : String)
  | workFailed (detail : String)
  | described (text : String)
deriving DecidableEq, Repr

def TrialFault.message : TrialFault → String
  | destinationNotFile path => "destination is not a regular file: " ++ path
  | workFailed detail => "blocking I/O task failed: " ++ detail
  | described text => text

/-- How far a fault reaches. -/
inductive Reach
  | configuration
  | perFile
  | perTrial
  | integrity
  | interrupted
deriving DecidableEq, Repr

def Reach.name : Reach → String
  | configuration => "Configuration"
  | perFile => "PerFile"
  | perTrial => "PerTrial"
  | integrity => "Integrity"
  | interrupted => "Interrupted"

inductive Fault
  | system (cause : SystemError)
  | settings (cause : SettingsFault)
  | missingSource (path reason : String)
  | objectNotFound (name : String)
  | store (detail : String)
  | integrity (name : String) (expected actual : Nat)
  | timeout (limit : Duration)
  | cancelled
  | trial (cause : TrialFault)
  | toml (detail : String)
  | json (detail : String)
deriving DecidableEq, Repr

namespace Fault

def reach : Fault → Reach
  | settings _ | toml _ => .configuration
  | missingSource .. => .perFile
  | integrity .. => .integrity
  | cancelled => .interrupted
  | system _ | objectNotFound _ | store _ | timeout _ | trial _ | json _ => .perTrial

def message : Fault → String
  | system cause => "I/O error: " ++ cause.message
  | settings cause => "Configuration error: " ++ cause.message
  | missingSource path reason => "Source file not accessible: " ++ path ++ ": " ++ reason
  | objectNotFound name => "No stored object named " ++ name
  | store detail => "Object store error: " ++ detail
  | integrity name expected actual =>
    "Integrity error: read " ++ decimal actual ++ " bytes of " ++ name ++
      ", declared length is " ++ decimal expected
  | timeout limit => "Trial timed out after " ++ limit.written
  | cancelled => "Benchmark cancelled"
  | trial cause => "Benchmark error: " ++ cause.message
  | toml detail => "TOML parsing error: " ++ detail
  | json detail => "JSON serialization error: " ++ detail

end Fault

/-- Why there is no result: a fault, or arithmetic that leaves its range. -/
inductive Stop
  | fault (cause : Fault)
  | overflow
deriving DecidableEq, Repr

def readTimeout (text : String) : Except Stop Duration :=
  match Duration.read text with
  | .ok d => .ok d
  | .error .carriedOut => .error .overflow
  | .error e => .error (.fault (.settings (.badTimeout text e)))

end StorageTrials

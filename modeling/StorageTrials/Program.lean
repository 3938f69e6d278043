import StorageTrials.CommandLine.Draft
import StorageTrials.CommandLine.Help
import StorageTrials.Invocation

namespace StorageTrials

def notAccepted : Int := 2

namespace Rejection

def message : Rejection → String
  | unknownArgument text => "unexpected argument '" ++ text ++ "' found"
  | unexpectedValue s => "'" ++ s.label ++ "' takes no value"
  | missingValue p => "a value is required for '" ++ p.label ++ "' but none was supplied"
  | unacceptableValue p text | malformedValue p text =>
    "invalid value '" ++ text ++ "' for '" ++ p.label ++ "'"
  | repeatedParameter p => "the argument '" ++ p.label ++ "' cannot be used multiple times"
  | repeatedSwitch s => "the argument '" ++ s.label ++ "' cannot be used multiple times"
  | missingParameters ps =>
    "the following required arguments were not provided: " ++ ", ".intercalate (ps.map (·.label))

end Rejection

namespace Program

def depart (env : Environment) : Departure → OptionT Dialogue Int
  | .help detailed => do
    Ask.say (Help.printed env detailed)
    return 0
  | .version => do
    Ask.say versionText
    return 0
  | .rejected cause => do
    let usage := Help.usageHeading ++ " " ++ Help.usage
    Ask.complain ("error: " ++ cause.message ++ "\n\n" ++ usage ++ "\n")
    return notAccepted
  | .overflow => failure

def invoke (env : Environment) (c : CommandLine) : OptionT Dialogue Int := do
  match ← c.loadSettings env with
  | .ok s =>
    let (code, _) ← (Invocation.idle.configure s).run
    return code
  | .error (.fault f) =>
    Ask.report (.settingsRejected f)
    return notRunnable
  | .error .overflow => failure

def run (env : Environment) (ws : List String) : OptionT Dialogue Int :=
  match CommandLine.read env ws with
  | .ok c => invoke env c
  | .error d => depart env d

end Program

end StorageTrials

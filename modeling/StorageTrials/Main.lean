import StorageTrials.Machine
import StorageTrials.Program

open StorageTrials

def rangeStatus : UInt32 := 101

def watchedVariables : List String :=
  ["XDG_CONFIG_HOME", "HOME"] ++ Parameter.all.filterMap (·.environmentName?)

def main (words : List String) : IO UInt32 := do
  let env ← Machine.environment watchedVariables
  let verbose :=
    match CommandLine.read env words with
    | .ok c => c.verbose
    | .error _ => false
  let m ← Machine.start verbose
  match ← (Program.run env words).run.run m.answer with
  | some code => return (code % 256).toNat.toUInt32
  | none => return rangeStatus

import StorageTrials.CommandLine
import StorageTrials.CommandLine.Item

namespace StorageTrials

open StorageTrials.Text

inductive Departure
  | help (detailed : Bool)
  | version
  | rejected (cause : Rejection)
  | overflow
deriving DecidableEq, Repr

structure Draft where
  mode : Option Mode
  files : List String
  choices : Choices
deriving DecidableEq, Repr

namespace Draft

def empty : Draft := ⟨none, [], .none⟩

/-- Whether a parameter has a value to which nothing can be added. -/
def settled (d : Draft) : Parameter → Bool
  | .mode => d.mode.isSome
  | .sourceDir => d.choices.sourceDir.isSome
  | .destinationDir => d.choices.destinationDir.isSome
  | .server => d.choices.connection.server.isSome
  | .port => d.choices.connection.port.isSome
  | .db => d.choices.connection.db.isSome
  | .collection => d.choices.connection.collection.isSome
  | .files => false
  | .loopCount => d.choices.loopCount.isSome
  | .outfile => d.choices.outfile.isSome
  | .timeout => d.choices.timeout.isSome
  | .summary => d.choices.summaryPath.isSome
  | .defaults => d.choices.defaultsPath.isSome

def readWord? (bits : Nat) (text : String) : Option Nat :=
  let n? : Option Int :=
    match text.toList with
    | '+' :: cs => (readDigits? cs).map Int.ofNat
    | '-' :: cs => (readDigits? cs).map fun n => -Int.ofNat n
    | cs => (readDigits? cs).map Int.ofNat
  n?.bind (Defaults.word? bits)

def readFiles (text : String) : List String := (pieces ',' text.toList).map String.ofList

def choose (d : Draft) (f : Choices → Choices) : Draft := { d with choices := f d.choices }

def connect (d : Draft) (f : ConnectionOptions → ConnectionOptions) : Draft :=
  d.choose fun c => { c with connection := f c.connection }

def orRejected {α : Type} (value : Option α) (cause : Rejection) : Except Departure α :=
  match value with
  | some a => .ok a
  | none => .error (.rejected cause)

def readPath (p : Parameter) (text : String) : Except Departure String :=
  orRejected (if text = "" then none else some text) (.unacceptableValue p text)

def readNumber (p : Parameter) (bits : Nat) (text : String) : Except Departure Nat :=
  orRejected (readWord? bits text) (.malformedValue p text)

def readMode (p : Parameter) (text : String) : Except Departure Mode :=
  orRejected (Mode.ofName? text) (.unacceptableValue p text)

def readSpan (p : Parameter) (text : String) : Except Departure Duration :=
  match Duration.read text with
  | .ok t => .ok t
  | .error .carriedOut => .error .overflow
  | .error _ => .error (.rejected (.malformedValue p text))

def set (d : Draft) (p : Parameter) (text : String) : Except Departure Draft :=
  match p with
  | .mode => (readMode p text).map fun m => { d with mode := some m }
  | .sourceDir => (readPath p text).map fun s => d.choose ({ · with sourceDir := some s })
  | .destinationDir => (readPath p text).map fun s => d.choose ({ · with destinationDir := some s })
  | .server => .ok (d.connect ({ · with server := some text }))
  | .port => (readNumber p 16 text).map fun n => d.connect ({ · with port := some n })
  | .db => .ok (d.connect ({ · with db := some text }))
  | .collection => .ok (d.connect ({ · with collection := some text }))
  | .files => .ok { d with files := d.files ++ readFiles text }
  | .loopCount => (readNumber p 32 text).map fun n => d.choose ({ · with loopCount := some n })
  | .outfile => (readPath p text).map fun s => d.choose ({ · with outfile := some s })
  | .timeout => (readSpan p text).map fun t => d.choose ({ · with timeout := some t })
  | .summary => (readPath p text).map fun s => d.choose ({ · with summaryPath := some s })
  | .defaults => (readPath p text).map fun s => d.choose ({ · with defaultsPath := some s })

def flip (d : Draft) : Switch → Except Departure Draft
  | .verbose =>
    if d.choices.verbose then .error (.rejected (.repeatedSwitch .verbose))
    else .ok (d.choose ({ · with verbose := true }))
  | .help detailed => .error (.help detailed)
  | .version => .error .version

def take (d : Draft) : Item → Except Departure Draft
  | .choice p none => .error (.rejected (.missingValue p))
  | .choice p (some text) =>
    if d.settled p then .error (.rejected (.repeatedParameter p)) else d.set p text
  | .switch s => d.flip s
  | .refused cause => .error (.rejected cause)

def takeAll (d : Draft) (items : List Item) : Except Departure Draft := items.foldlM take d

/-- Take up the value that the environment has for a parameter which is absent. -/
def standIn (env : Environment) (d : Draft) (p : Parameter) : Except Departure Draft :=
  if d.settled p then .ok d
  else
    match p.environmentName?.bind fun v => env.lookup v with
    | some text => d.set p text
    | none => .ok d

def missing (d : Draft) : List Parameter :=
  (if d.mode.isNone then [.mode] else []) ++ (if d.files.isEmpty then [.files] else [])

def complete (d : Draft) : Except Departure CommandLine :=
  match d.mode, d.files with
  | some mode, _ :: _ => .ok { d.choices with mode := mode, files := d.files }
  | _, _ => .error (.rejected (.missingParameters d.missing))

end Draft

def CommandLine.read (env : Environment) (ws : List String) : Except Departure CommandLine := do
  let d ← Draft.empty.takeAll (Item.ofWords ws)
  let d ← Parameter.all.foldlM (Draft.standIn env) d
  d.complete

end StorageTrials

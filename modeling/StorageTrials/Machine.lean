import Std.Time.DateTime.Timestamp
import StorageTrials.Defaults.File
import StorageTrials.ObjectStore

namespace StorageTrials

structure Machine where
  output : IO.Ref IO.FS.Stream
  cancelled : IO.Ref Bool
  verbose : Bool

namespace Machine

def start (verbose : Bool) : IO Machine := do
  return ⟨← IO.mkRef (← IO.getStdout), ← IO.mkRef false, verbose⟩

def environment (names : List String) : IO Environment := do
  let values ← names.mapM fun name => return (← IO.getEnv name).map (name, ·)
  return values.filterMap id

def errorCode? : IO.Error → Option UInt32
  | .alreadyExists _ n _ | .invalidArgument _ n _ | .permissionDenied _ n _
  | .resourceExhausted _ n _ | .inappropriateType _ n _ | .noSuchThing _ n _ => some n
  | .noFileOrDirectory _ n _ | .interrupted _ n _ => some n
  | .otherError n _ | .resourceBusy n _ | .resourceVanished n _ | .unsupportedOperation n _
  | .hardwareFault n _ | .unsatisfiedConstraints n _ | .illegalOperation n _ | .protocolError n _
  | .timeExpired n _ => some n
  | .unexpectedEof | .userError _ => none

/-- The number that the system has for an error. Some calls give it with the opposite sign. -/
def systemNumber (code : UInt32) : Nat :=
  if code.toNat < 2 ^ 31 then code.toNat else 2 ^ 32 - code.toNat

def systemError (e : IO.Error) : SystemError :=
  match errorCode? e with
  | some code => .errno (systemNumber code)
  | none => .described .other (some (toString e))

def attempt {α : Type} (action : IO α) : IO (Except SystemError α) := do
  match ← action.toBaseIO with
  | .ok a => return .ok a
  | .error e => return .error (systemError e)

def inspect (path : String) : IO FileSystem.Finding := do
  let data ← (System.mkFilePath [path]).metadata
  match data.type with
  | .file => return .file data.byteSize.toNat
  | .dir => return .directory
  | _ => return .other

def fill (source : IO.FS.Handle) (room : Nat) : IO ByteArray := do
  let mut filled := ByteArray.empty
  repeat
    if room ≤ filled.size then break
    match ← (source.read (room - filled.size).toUSize).toBaseIO with
    | .ok piece =>
      if piece.isEmpty then break
      filled := filled ++ piece
    | .error e => if (systemError e).kind ≠ .interrupted then throw e
  return filled

/-- Take the pieces of a file until there are none; without an answer, the time for them was over
first. -/
def takePieces (source : IO.FS.Handle) (take : ByteArray → IO Unit) (deadline : Option Nat) :
    IO (Option Nat) := do
  let mut total := 0
  repeat
    let now ← IO.monoNanosNow
    if deadline.any (· < now) then return none
    let piece ← fill source chunkSize
    if piece.isEmpty then break
    take piece
    total := total + piece.size
  return some total

def perform (work : Work) (deadline : Option Nat) : IO (Option Nat) := do
  match work with
  | .copy source target =>
    let source ← IO.FS.Handle.mk source .read
    let target ← IO.FS.Handle.mk target .write
    let total ← takePieces source target.write deadline
    target.flush
    return total
  | .drain path => takePieces (← IO.FS.Handle.mk path .read) (fun _ => pure ()) deadline
  | .upload .. | .download .. => throw (.userError "no such store")

def trial (m : Machine) (work : Work) (limit : Option Duration) : IO (Except Fault Sample) := do
  if ← m.cancelled.get then return .error .cancelled
  let start ← IO.monoNanosNow
  match ← attempt (perform work (limit.map (start + ·.nanos))) with
  | .error e => return .error (.system e)
  | .ok none => return .error (.timeout (limit.getD .zero))
  | .ok (some bytes) =>
    let stop ← IO.monoNanosNow
    return .ok ⟨bytes, (Duration.ofNanos? (stop - start)).getD .zero⟩

def openOutput (m : Machine) : Option String → IO Unit
  | none => do m.output.set (← IO.getStdout)
  | some path => do m.output.set (.ofHandle (← IO.FS.Handle.mk path .write))

def print (m : Machine) (line : Line) : IO Unit := do
  let output ← m.output.get
  output.putStr line.text
  output.flush

def report (m : Machine) (e : Event) : IO Unit := do
  if m.verbose || e.level ≠ .debug then
    let fields := e.fields.map fun (name, value) => " " ++ name ++ "=" ++ value
    IO.eprintln (e.level.name ++ " " ++ e.message ++ String.join fields)

def readText (path : String) : IO (Except SystemError String) := do
  match ← attempt (IO.FS.readBinFile path) with
  | .error e => return .error e
  | .ok bytes =>
    match String.fromUTF8? bytes with
    | some text => return .ok text
    | none => return .error .notText

def now : IO Timestamp := do
  let t := (← Std.Time.Timestamp.now).toNanosecondsSinceUnixEpoch.toInt
  return ⟨t / 1000000000, (t % 1000000000).toNat⟩

def unreachable : Fault := .store "no server can be reached"

def answer (m : Machine) : (r : Request) → IO r.Answer
  | .inspect path => attempt (inspect path)
  | .probe path => attempt do let _ ← IO.FS.Handle.mk path .read
  | .remove path => attempt (IO.FS.removeFile path)
  | .readText path => readText path
  | .saveText path text => attempt (IO.FS.writeFile path text)
  | .trial work limit => m.trial work limit
  | .deleteVersions .. => return .error unreachable
  | .connect .. => return .error unreachable
  | .isCancelled => m.cancelled.get
  | .cancel => m.cancelled.set true
  | .openOutput path => attempt (m.openOutput path)
  | .print line => attempt (m.print line)
  | .report event => m.report event
  | .now => now
  | .say text => IO.print text
  | .complain text => IO.eprint text

end Machine

end StorageTrials

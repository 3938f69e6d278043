import StorageTrials.Cancellation
import StorageTrials.Dialogue
import StorageTrials.FileSystem.Transfer
import StorageTrials.ObjectStore.Disturbed
import StorageTrials.Trial

namespace StorageTrials

/-- Something that ends a trial before its work is over, after the work has asked so often whether
it has to stop. Work on an object store that is interrupted before its first step has not begun. -/
inductive Intervention
  | cancel (patience : Nat)
  | limit (patience : Nat)
  | failure (cause : SystemError) (patience : Nat)
  | refusal (cause : SystemError)

structure Turn where
  elapsed : Duration
  cancels : Bool
  change : FileSystem → FileSystem
  intervention : Option Intervention
  hitches : List Hitch
  denial : Option SystemError

def Turn.calm : Turn := ⟨.zero, false, id, none, [], none⟩

/-- A statistics stream that is only kept. After certain lines, counted from one, flushing it fails
or the run is cancelled. -/
structure KeptStream where
  lines : Nat
  failing : List Nat
  cancelling : List Nat
  failure : SystemError

inductive Output
  | standard
  | file (id : NodeId)
  | kept (stream : KeptStream)

structure Surroundings where
  files : FileSystem
  stores : Array DisturbedStore
  server : Option StoreId
  output : Output
  written : String
  complaints : String
  source : CancelSource
  token : CancelToken
  events : List Event
  time : Timestamp
  clock : Nat
  schedule : Nat → Turn

namespace Surroundings

def calm (files : FileSystem) : Surroundings where
  files := files
  stores := #[]
  server := none
  output := .standard
  written := ""
  complaints := ""
  source := .fresh
  token := .linked
  events := []
  time := ⟨0, 0⟩
  clock := 0
  schedule := fun _ => .calm

def isCancelled (w : Surroundings) : Bool := w.token.isCancelled w.source

def cancel (w : Surroundings) : Surroundings := { w with source := w.source.cancel }

def cancelIf (w : Surroundings) (b : Bool) : Surroundings := if b then w.cancel else w

/-- How an intervention ends a trial, if it can, with the patience of its work: a limit that is not
set cannot be exceeded, and a run that nobody watches over cannot be cancelled. -/
def interruption? (w : Surroundings) (limit : Option Duration) :
    Intervention → Option (Interruption × Nat)
  | .cancel patience =>
    if w.token = .linked && w.source.held then some (.cancelled, patience) else none
  | .limit patience => limit.map fun l => (.timedOut l, patience)
  | .failure cause patience => some (.failed cause, patience)
  | .refusal _ => none

def interrupted? (w : Surroundings) (limit : Option Duration) (t : Turn) :
    Option (Interruption × Nat) := t.intervention.bind (w.interruption? limit)

def afterwards (w : Surroundings) (i : Interruption) : Surroundings :=
  w.cancelIf (i = .cancelled)

/-- Work on files. It always comes to an end by itself; what it did up to then remains. -/
def workOnFiles (w : Surroundings) (work : Patience → FileSystem × Except SystemError Nat)
    (limit : Option Duration) (t : Turn) : Surroundings × Except Fault Nat :=
  match w.interrupted? limit t with
  | some (how, patience) =>
    ({ w with files := (work (some patience)).1 }.afterwards how, .error how.fault)
  | none =>
    let (files, result) := work none
    ({ w with files := files }, result.mapError .system)

def receive (w : Surroundings) (id : StoreId) (call : StoreCall) : Surroundings × Reception :=
  match w.stores[id]? with
  | none => (w, { Reception.calm with failure := some (.store "no such store") })
  | some d =>
    let (d, r) := d.receive call
    ({ w with stores := w.stores.setIfInBounds id d }.cancelIf r.cancels, r)

def memory (w : Surroundings) (id : StoreId) : MemoryStore :=
  ((w.stores[id]?).map (·.store)).getD .empty

def setMemory (w : Surroundings) (id : StoreId) (m : MemoryStore) : Surroundings :=
  { w with stores := w.stores.modify id fun d => { d with store := m } }

def awaitEnd (w : Surroundings) (limit : Option Duration) : Except Fault Nat :=
  let course : Course := ⟨none, if w.isCancelled then some .zero else none⟩
  (course.race limit (.error .cancelled)).getD (.error .cancelled)

def streamOf (files : FileSystem) (id : NodeId) : ByteSource :=
  match files.node? id with
  | some (.file content) => ⟨[content], none⟩
  | some (.directory _) => ⟨[], some .isDirectory⟩
  | _ => ⟨[], none⟩

/-- Reading the file waits for it, so a run that is cancelled by then ends the trial. -/
def uploadOpened (w : Surroundings) (store : StoreId) (name : String) (id : NodeId)
    (limit : Option Duration) (i : Option (Interruption × Nat)) :
    Surroundings × Except Fault Nat :=
  let (w, r) := w.receive store .upload
  match r.failure with
  | some f => (w, .error f)
  | none =>
    if r.hangs then (w, w.awaitEnd limit)
    else if w.isCancelled then (w, .error .cancelled)
    else
      match i with
      | some (how, _) => (w.afterwards how, .error how.fault)
      | none =>
        let (m, result) := (w.memory store).upload name (streamOf w.files id)
        (w.setMemory store m, result.map (· - r.missing))

def upload (w : Surroundings) (store : StoreId) (name path : String) (limit : Option Duration)
    (t : Turn) : Surroundings × Except Fault Nat :=
  match w.interrupted? limit t with
  | some (how, 0) => (w.afterwards how, .error how.fault)
  | i =>
    match w.files.find path with
    | .error e => (w, .error (.system e))
    | .ok id => w.uploadOpened store name id limit i

def download (w : Surroundings) (store : StoreId) (name : String) (limit : Option Duration)
    (t : Turn) : Surroundings × Except Fault Nat :=
  match w.interrupted? limit t with
  | some (how, _) => (w.afterwards how, .error how.fault)
  | none =>
    let (w, r) := w.receive store .download
    match r.failure with
    | some f => (w, .error f)
    | none =>
      if r.hangs then (w, w.awaitEnd limit)
      else
        let result := do
          let d ← (w.memory store).download name
          ({ d with bytesRead := d.bytesRead - r.missing } : Download).verify name
        (w, result)

def carryOut (w : Surroundings) (work : Work) (limit : Option Duration) (t : Turn) :
    Surroundings × Except Fault Nat :=
  match t.intervention with
  | some (.refusal cause) => (w, .error (.system cause))
  | _ =>
    match work with
    | .copy source target =>
      w.workOnFiles (fun p => w.files.copy source target chunkSize p t.hitches) limit t
    | .drain path =>
      w.workOnFiles (fun p => (w.files, w.files.drain path chunkSize p t.hitches)) limit t
    | .upload store name path => w.upload store name path limit t
    | .download store name => w.download store name limit t

def trial (w : Surroundings) (work : Work) (limit : Option Duration) (t : Turn) :
    Surroundings × Except Fault Sample :=
  if w.isCancelled then (w, .error .cancelled)
  else
    let (w, result) := w.carryOut work limit t
    (w, result.map fun bytes => ⟨bytes, t.elapsed⟩)

def deleteVersions (w : Surroundings) (store : StoreId) (name : String) :
    Surroundings × Except Fault Nat :=
  let (w, r) := w.receive store .delete
  match r.failure with
  | some f => (w, .error f)
  | none =>
    let (m, count) := (w.memory store).delete name
    (w.setMemory store m, .ok count)

def openOutput (w : Surroundings) : Option String → Surroundings × Except SystemError Unit
  | none => ({ w with output := .standard }, .ok ())
  | some path =>
    match w.files.create path with
    | .error e => (w, .error e)
    | .ok (files, id) => ({ w with files := files, output := .file id }, .ok ())

def print (w : Surroundings) (line : Line) : Surroundings × Except SystemError Unit :=
  match w.output with
  | .standard => ({ w with written := w.written ++ line.text }, .ok ())
  | .file id =>
    let (files, result) := w.files.append id line.text.toUTF8
    ({ w with files := files }, result)
  | .kept s =>
    let n := s.lines + 1
    let w := { w with written := w.written ++ line.text, output := .kept { s with lines := n } }
    (w.cancelIf (s.cancelling.contains n),
      if s.failing.contains n then .error s.failure else .ok ())

def removeFile (w : Surroundings) (path : String) (t : Turn) :
    Surroundings × Except SystemError Unit :=
  match t.denial with
  | some e => (w, .error e)
  | none =>
    match w.files.remove path with
    | .ok files => ({ w with files := files }, .ok ())
    | .error e => (w, .error e)

def pass (w : Surroundings) (t : Turn) : Surroundings :=
  { w with files := t.change w.files, clock := w.clock + 1 }.cancelIf t.cancels

def answerIn (w : Surroundings) (t : Turn) : (r : Request) → Surroundings × r.Answer
  | .inspect path => (w, w.files.inspect path)
  | .probe path => (w, (w.files.find path).map fun _ => ())
  | .remove path => w.removeFile path t
  | .readText path => (w, w.files.readText path)
  | .saveText path text =>
    let (files, result) := w.files.saveText path text
    ({ w with files := files }, result)
  | .trial work limit => w.trial work limit t
  | .deleteVersions store name => w.deleteVersions store name
  | .connect .. =>
    (w, match w.server with
      | some id => .ok id
      | none => .error (.store "no server can be reached"))
  | .isCancelled => (w, w.isCancelled)
  | .cancel => (w.cancel, ())
  | .openOutput path => w.openOutput path
  | .print line => w.print line
  | .report event => ({ w with events := event :: w.events }, ())
  | .now => (w, w.time)
  | .say text => ({ w with written := w.written ++ text }, ())
  | .complain text => ({ w with complaints := w.complaints ++ text }, ())

def answer (r : Request) : StateM Surroundings r.Answer := fun w =>
  let t := w.schedule w.clock
  let (w, a) := (w.pass t).answerIn t r
  (a, w)

end Surroundings

def Dialogue.within {α : Type} (d : Dialogue α) (w : Surroundings) : α × Surroundings :=
  (d.run Surroundings.answer).run w

end StorageTrials

import StorageTrials.FileSystem.Access

namespace StorageTrials

/-- How often work may ask whether it has to stop before it has to; without a number, it never
has to. -/
abbrev Patience := Option Nat

inductive Hitch
  | interrupted
  | short (bytes : Nat)
deriving DecidableEq, Repr

structure OpenFile where
  content : ByteArray
  position : Nat
  hitches : List Hitch

namespace OpenFile

def bring (f : OpenFile) (bytes : Nat) : ByteArray × OpenFile :=
  let piece := f.content.extract f.position (f.position + bytes)
  (piece, { f with position := f.position + piece.size, hitches := f.hitches.tail })

def read (f : OpenFile) (room : Nat) : Except SystemError ByteArray × OpenFile :=
  match f.hitches with
  | .interrupted :: hitches => (.error .interruptedCall, { f with hitches := hitches })
  | .short bytes :: _ =>
    let (piece, f) := f.bring (min room (bytes + 1))
    (.ok piece, f)
  | [] =>
    let (piece, f) := f.bring room
    (.ok piece, f)

/-- Read until `room` bytes are there or the file ends. A read that is interrupted is repeated. Each
round but the last uses up a hitch. -/
def fill : (rounds : Nat) → (room : Nat) → ByteArray → OpenFile →
    Except SystemError ByteArray × OpenFile
  | 0, _, filled, f => (.ok filled, f)
  | rounds + 1, room, filled, f =>
    if room ≤ filled.size then (.ok filled, f)
    else
      match f.read (room - filled.size) with
      | (.ok piece, f) =>
        if piece.size = 0 then (.ok filled, f) else fill rounds room (filled ++ piece) f
      | (.error e, f) =>
        if e.kind = .interrupted then fill rounds room filled f else (.error e, f)

def chunk (f : OpenFile) (room : Nat) : Except SystemError ByteArray × OpenFile :=
  f.fill (f.hitches.length + 1) room .empty

end OpenFile

/-- Copy what is still to be read behind `written`. Each round but the last takes at least one
byte. -/
def copyPieces (chunk : Nat) :
    (rounds : Nat) → Patience → OpenFile → (written : ByteArray) →
      ByteArray × Except SystemError Nat
  | 0, _, _, written => (written, .ok written.size)
  | rounds + 1, patience, source, written =>
    if patience = some 0 then (written, .error .aborted)
    else
      match source.chunk chunk with
      | (.error e, _) => (written, .error e)
      | (.ok piece, source) =>
        if piece.size = 0 then (written, .ok written.size)
        else copyPieces chunk rounds (patience.map (· - 1)) source (written ++ piece)

def drainPieces (chunk : Nat) :
    (rounds : Nat) → Patience → OpenFile → (taken : Nat) → Except SystemError Nat
  | 0, _, _, taken => .ok taken
  | rounds + 1, patience, source, taken =>
    if patience = some 0 then .error .aborted
    else
      match source.chunk chunk with
      | (.error e, _) => .error e
      | (.ok piece, source) =>
        if piece.size = 0 then .ok taken
        else drainPieces chunk rounds (patience.map (· - 1)) source (taken + piece.size)

namespace FileSystem

def drainNode (fs : FileSystem) (id : NodeId) (chunk : Nat) (patience : Patience)
    (hitches : List Hitch) : Except SystemError Nat :=
  match fs.node? id with
  | some (.file content) =>
    drainPieces chunk (content.size + 1) patience ⟨content, 0, hitches⟩ 0
  | some (.directory _) =>
    if patience = some 0 then .error .aborted
    else if chunk = 0 then .ok 0
    else .error .isDirectory
  | _ => if patience = some 0 then .error .aborted else .ok 0

def drain (fs : FileSystem) (path : String) (chunk : Nat) (patience : Patience)
    (hitches : List Hitch) : Except SystemError Nat := do
  fs.drainNode (← fs.find path) chunk patience hitches

def copyNode (fs : FileSystem) (source target : NodeId) (chunk : Nat) (patience : Patience)
    (hitches : List Hitch) : FileSystem × Except SystemError Nat :=
  match fs.node? source, fs.node? target with
  | some (.file content), some (.file _) =>
    let (written, result) :=
      copyPieces chunk (content.size + 1) patience ⟨content, 0, hitches⟩ .empty
    (fs.set target (.file written), result)
  | some (.file content), some (.device .full) =>
    if patience = some 0 then (fs, .error .aborted)
    else if chunk = 0 || content.size = 0 then (fs, .ok 0)
    else (fs, .error .noSpace)
  | _, _ => (fs, fs.drainNode source chunk patience hitches)

def copy (fs : FileSystem) (source target : String) (chunk : Nat) (patience : Patience)
    (hitches : List Hitch) : FileSystem × Except SystemError Nat :=
  match fs.find source with
  | .error e => (fs, .error e)
  | .ok source =>
    match fs.create target with
    | .error e => (fs, .error e)
    | .ok (fs, target) => fs.copyNode source target chunk patience hitches

end FileSystem

end StorageTrials

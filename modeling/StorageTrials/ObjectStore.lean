import StorageTrials.Fault

namespace StorageTrials

def chunkSize : Nat := 4 * 1024 * 1024

/-- A stream of bytes: the pieces as they arrive, and the failure that ends it, if any. A piece
without bytes looks like the end. -/
structure ByteSource where
  pieces : List ByteArray
  failure : Option SystemError

namespace ByteSource

def read (s : ByteSource) (room : Nat) : Except SystemError (ByteArray × ByteSource) :=
  match s.pieces, s.failure with
  | [], none => .ok (.empty, s)
  | [], some e => .error e
  | p :: ps, _ =>
    if p.size ≤ room then .ok (p, { s with pieces := ps })
    else .ok (p.extract 0 room, { s with pieces := p.extract room p.size :: ps })

def fill : (rounds : Nat) → (room : Nat) → ByteArray → ByteSource →
    Except SystemError (ByteArray × ByteSource)
  | 0, _, filled, s => .ok (filled, s)
  | rounds + 1, room, filled, s => do
    if room ≤ filled.size then .ok (filled, s)
    else
      let (piece, s) ← s.read (room - filled.size)
      if piece.size = 0 then .ok (filled, s) else fill rounds room (filled ++ piece) s

def chunks : (rounds : Nat) → ByteArray → ByteSource → Except SystemError ByteArray
  | 0, data, _ => .ok data
  | rounds + 1, data, s => do
    let (chunk, s) ← s.fill (s.pieces.length + 1) chunkSize .empty
    if chunk.size = 0 then .ok data else chunks rounds (data ++ chunk) s

def readAll (s : ByteSource) : Except SystemError ByteArray :=
  s.chunks ((s.pieces.map (·.size)).sum + 1) .empty

end ByteSource

structure Download where
  declaredLength : Nat
  bytesRead : Nat
deriving DecidableEq, Repr

def Download.verify (d : Download) (name : String) : Except Fault Nat :=
  if d.bytesRead = d.declaredLength then .ok d.bytesRead
  else .error (.integrity name d.declaredLength d.bytesRead)

structure StoredVersion where
  name : String
  data : ByteArray
  declaredLength : Nat
deriving DecidableEq

structure MemoryStore where
  versions : List StoredVersion
deriving DecidableEq

namespace MemoryStore

def empty : MemoryStore := ⟨[]⟩

def versionsOf (m : MemoryStore) (name : String) : List StoredVersion :=
  m.versions.filter (·.name = name)

def insert (m : MemoryStore) (name : String) (data : ByteArray) : MemoryStore :=
  ⟨m.versions ++ [⟨name, data, data.size⟩]⟩

def delete (m : MemoryStore) (name : String) : MemoryStore × Nat :=
  (⟨m.versions.filter (·.name ≠ name)⟩, (m.versionsOf name).length)

def count (m : MemoryStore) (name : String) : Nat := (m.versionsOf name).length

def latest? (m : MemoryStore) (name : String) : Option StoredVersion := (m.versionsOf name).getLast?

def upload (m : MemoryStore) (name : String) (source : ByteSource) :
    MemoryStore × Except Fault Nat :=
  match source.readAll with
  | .error e => (m, .error (.system e))
  | .ok data => (m.insert name data, .ok data.size)

def pieceSizes (bytes chunk : Nat) : List Nat :=
  List.replicate (bytes / chunk) chunk ++ if bytes % chunk = 0 then [] else [bytes % chunk]

def download (m : MemoryStore) (name : String) : Except Fault Download :=
  match m.latest? name with
  | none => .error (.objectNotFound name)
  | some v => .ok ⟨v.declaredLength, (pieceSizes v.data.size chunkSize).sum⟩

end MemoryStore

end StorageTrials

import StorageTrials.FileSystem.Path
import StorageTrials.SystemError

namespace StorageTrials

abbrev NodeId := Nat

inductive Device
  | null
  | zero
  /-- Reads without end and takes nothing. -/
  | full
deriving DecidableEq, Repr

inductive Node
  | file (content : ByteArray)
  | directory (parent : NodeId)
  | link (target : String)
  | device (device : Device)
deriving DecidableEq

def Node.isDirectory : Node → Bool
  | directory _ => true
  | _ => false

structure Entry where
  dir : NodeId
  name : String
  node : NodeId
deriving DecidableEq, Repr

structure FileSystem where
  nodes : Array Node
  entries : List Entry
  workingDir : NodeId
deriving DecidableEq

namespace FileSystem

def root : NodeId := 0

def empty : FileSystem := ⟨#[.directory root], [], root⟩

def node? (fs : FileSystem) (id : NodeId) : Option Node := fs.nodes[id]?

def lookup? (fs : FileSystem) (dir : NodeId) (name : String) : Option NodeId :=
  (fs.entries.find? fun e => e.dir = dir && e.name = name).map (·.node)

def isDirectory (fs : FileSystem) (id : NodeId) : Bool :=
  ((fs.node? id).map Node.isDirectory).getD false

def parent (fs : FileSystem) (dir : NodeId) : NodeId :=
  match fs.node? dir with
  | some (.directory up) => up
  | _ => root

def add (fs : FileSystem) (dir : NodeId) (name : String) (n : Node) : FileSystem × NodeId :=
  ({ fs with nodes := fs.nodes.push n, entries := fs.entries ++ [⟨dir, name, fs.nodes.size⟩] },
    fs.nodes.size)

def drop (fs : FileSystem) (dir : NodeId) (name : String) : FileSystem :=
  { fs with entries := fs.entries.filter fun e => !(e.dir = dir && e.name = name) }

def set (fs : FileSystem) (id : NodeId) (n : Node) : FileSystem :=
  { fs with nodes := fs.nodes.setIfInBounds id n }

def content? (fs : FileSystem) (id : NodeId) : Option ByteArray :=
  match fs.node? id with
  | some (.file content) => some content
  | _ => none

def append (fs : FileSystem) (id : NodeId) (bytes : ByteArray) :
    FileSystem × Except SystemError Unit :=
  match fs.node? id with
  | some (.file content) => (fs.set id (.file (content ++ bytes)), .ok ())
  | some (.device .full) => (fs, .error .noSpace)
  | _ => (fs, .ok ())

end FileSystem

end StorageTrials

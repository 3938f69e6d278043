import StorageTrials.Fault
import StorageTrials.Text.Blank

namespace StorageTrials

open StorageTrials.Text

inductive Backend
  | mounted
  | direct
deriving DecidableEq, Repr

namespace Backend

def all : List Backend := [mounted, direct]

def name : Backend → String
  | mounted => "mounted"
  | direct => "direct"

def ofName? (name : String) : Option Backend := all.find? (·.name = name)

end Backend

inductive Mode
  | mounted
  | direct
  | both
deriving DecidableEq, Repr

namespace Mode

def all : List Mode := [mounted, direct, both]

def backends : Mode → List Backend
  | mounted => [.mounted]
  | direct => [.direct]
  | both => [.mounted, .direct]

def name : Mode → String
  | mounted => "mounted"
  | direct => "direct"
  | both => "both"

/-- Names by which a mode used to be known. -/
def oldNames : Mode → List String
  | mounted => ["mgridfs"]
  | direct => ["gridfs"]
  | both => []

def ofName? (name : String) : Option Mode := all.find? fun m => m.name = name || name ∈ m.oldNames

end Mode

structure Connection where
  server : String
  port : Nat
  db : String
  collection : String
deriving DecidableEq, Repr

def Connection.uri (c : Connection) : String := "mongodb://" ++ c.server ++ ":" ++ decimal c.port

structure ConnectionOptions where
  server : Option String
  port : Option Nat
  db : Option String
  collection : Option String
deriving DecidableEq, Repr

namespace ConnectionOptions

def empty : ConnectionOptions := ⟨none, none, none, none⟩

def substance (s : Option String) : Option String := (s.map trim).filter (· ≠ "")

def missing (o : ConnectionOptions) : List String :=
  (if (substance o.server).isNone then ["--server"] else []) ++
    (if o.port.isNone then ["--port"] else []) ++
    (if (substance o.db).isNone then ["--db"] else []) ++
    (if (substance o.collection).isNone then ["--collprefix"] else [])

/-- All four parameters have to be known. -/
def resolve (o : ConnectionOptions) : Except Fault Connection :=
  match substance o.server, o.port, substance o.db, substance o.collection with
  | some server, some port, some db, some collection => .ok ⟨server, port, db, collection⟩
  | _, _, _, _ => .error (.settings (.connectionIncomplete o.missing))

end ConnectionOptions

structure Settings where
  mode : Mode
  sourceDir : String
  destinationDir : Option String
  connection : ConnectionOptions
  files : List String
  loopCount : Nat
  outfile : Option String
  verbose : Bool
  timeout : Option Duration
  summaryPath : Option String
deriving DecidableEq, Repr

def defaultLoopCount : Nat := 100

def defaultSourceDir : String := "."

def Settings.default (mode : Mode) : Settings where
  mode := mode
  sourceDir := defaultSourceDir
  destinationDir := none
  connection := .empty
  files := []
  loopCount := defaultLoopCount
  outfile := none
  verbose := false
  timeout := none
  summaryPath := none

end StorageTrials

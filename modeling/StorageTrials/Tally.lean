import StorageTrials.Latency
import StorageTrials.Record

namespace StorageTrials

open StorageTrials.Number

structure GroupSummary where
  file : String
  operation : Operation
  trials : Nat
  bytes : Nat
  totalTime : Duration
  throughput : Binary64
  latency : Latency
deriving DecidableEq, Repr

structure RunnerSummary where
  runner : String
  completed : Bool
  groups : List GroupSummary
deriving DecidableEq, Repr

def RunnerSummary.totalTrials (s : RunnerSummary) : Nat := (s.groups.map (·.trials)).sum

structure Group where
  file : String
  operation : Operation
  bytes : Nat
  samples : List Duration
deriving DecidableEq, Repr

namespace Group

def holds (g : Group) (r : Record) : Bool := g.file = r.file && g.operation = r.operation

def vacant (r : Record) : Group := ⟨r.file, r.operation, 0, []⟩

def add? (g : Group) (r : Record) : Option Group :=
  if g.bytes + r.size < 2 ^ 64 then
    some { g with bytes := g.bytes + r.size, samples := g.samples ++ [r.elapsed] }
  else none

def summary? (g : Group) : Option GroupSummary :=
  (Duration.sum? g.samples).map fun total =>
    { file := g.file
      operation := g.operation
      trials := g.samples.length
      bytes := g.bytes
      totalTime := total
      throughput := Units.throughput g.bytes total
      latency := .ofSamples g.samples }

end Group

structure Tally where
  groups : List Group
deriving DecidableEq, Repr

namespace Tally

def empty : Tally := ⟨[]⟩

def isEmpty (t : Tally) : Bool := t.groups.isEmpty

/-- Add a record to the first group that holds records like it, or to a new one at the end. -/
def place (r : Record) : List Group → Option (List Group)
  | [] => (Group.vacant r).add? r |>.map ([·])
  | g :: gs => if g.holds r then (g.add? r).map (· :: gs) else (place r gs).map (g :: ·)

def add? (t : Tally) (r : Record) : Option Tally := (place r t.groups).map (⟨·⟩)

def addIf? (t : Tally) : Option Record → Option Tally
  | some r => t.add? r
  | none => some t

def ofRecords? (rs : List Record) : Option Tally := rs.foldlM add? empty

def summary? (t : Tally) (runner : String) (completed : Bool) : Option RunnerSummary :=
  (t.groups.mapM Group.summary?).map (⟨runner, completed, ·⟩)

end Tally

def RunnerSummary.ofRecords? (runner : String) (completed : Bool) (rs : List Record) :
    Option RunnerSummary :=
  (Tally.ofRecords? rs).bind (·.summary? runner completed)

end StorageTrials

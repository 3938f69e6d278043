import StorageTrials.Json.Names
import StorageTrials.Json.Written
import StorageTrials.Summary
import StorageTrials.Timestamp.Written

namespace StorageTrials

open StorageTrials.Json StorageTrials.Text

namespace Percentiles

def toJson (ps : Percentiles) : Value :=
  .object (ps.entries.map fun (p, d) => (digits p, .ofDuration d))

def key? (cs : List Char) : Option (Fin 256) := do
  let n ← readDigits? cs
  if digits n = cs then if h : n < 256 then some ⟨n, h⟩ else none else none

/-- Of several times for one percentile the last counts. -/
def ofJson? : Value → Option Percentiles
  | .object members => do
    let entries ← members.mapM fun (k, v) => do some (← key? k, ← v.duration?)
    some (.ofList entries)
  | _ => none

end Percentiles

namespace Latency

def toJson (l : Latency) : Value :=
  .ofMembers [("min", .ofDuration l.min), ("avg", .ofDuration l.avg), ("max", .ofDuration l.max),
    ("percentiles", l.percentiles.toJson)]

def ofJson? (v : Value) : Option Latency := do
  match ← v.structure? ["min", "avg", "max", "percentiles"] with
  | [min, avg, max, percentiles] =>
    some ⟨← min.duration?, ← avg.duration?, ← max.duration?, ← Percentiles.ofJson? percentiles⟩
  | _ => none

end Latency

namespace GroupSummary

def toJson (g : GroupSummary) : Value :=
  .ofMembers [("file", .ofText g.file), ("op", g.operation.toJson), ("trials", .ofNat g.trials),
    ("bytes", .ofNat g.bytes), ("total_time", .ofDuration g.totalTime),
    ("throughput_mbps", ofBinary64 g.throughput), ("latency", g.latency.toJson)]

def ofJson? (v : Value) : Option GroupSummary := do
  match ← v.structure?
      ["file", "op", "trials", "bytes", "total_time", "throughput_mbps", "latency"] with
  | [file, op, trials, bytes, total, throughput, latency] =>
    some ⟨← file.text?, ← Operation.ofJson? op, ← trials.nat? 64, ← bytes.nat? 64,
      ← total.duration?, ← throughput.binary64?, ← Latency.ofJson? latency⟩
  | _ => none

end GroupSummary

namespace RunnerSummary

def toJson (s : RunnerSummary) : Value :=
  .ofMembers [("runner", .ofText s.runner), ("completed", .boolean s.completed),
    ("entries", .array (s.groups.map (·.toJson)))]

def ofJson? (v : Value) : Option RunnerSummary := do
  match ← v.structure? ["runner", "completed", "entries"] with
  | [runner, completed, entries] =>
    some ⟨← runner.text?, ← completed.boolean?, ← (← entries.items?).mapM GroupSummary.ofJson?⟩
  | _ => none

end RunnerSummary

namespace Summary

def toJson (s : Summary) : Value :=
  .ofMembers [("timestamp", .ofText s.timestamp.written), ("loop_count", .ofNat s.loopCount),
    ("runners", .array (s.runners.map (·.toJson)))]

def ofJson? (v : Value) : Option Summary := do
  match ← v.structure? ["timestamp", "loop_count", "runners"] with
  | [timestamp, loopCount, runners] =>
    some ⟨← timestamp.text?.bind Timestamp.read?, ← loopCount.nat? 32,
      ← (← runners.items?).mapM RunnerSummary.ofJson?⟩
  | _ => none

def written (s : Summary) : String := s.toJson.text

def read? (s : String) : Option Summary := (Value.read? s).bind ofJson?

end Summary

end StorageTrials

import StorageTrials.Duration
import StorageTrials.Number.Fixed

namespace StorageTrials.Units

open StorageTrials.Number StorageTrials.Text

def climb (size : Binary64) (unit : String) : List String → Binary64 × String
  | [] => (size, unit)
  | next :: rest => if size.atLeast 1024 then climb (size / 1024) next rest else (size, unit)

def largerUnits : List String := ["KiB", "MiB", "GiB", "TiB", "PiB"]

/-- A size in the largest unit of which it holds at least one; single bytes are shown as such. -/
def formatBytes (bytes : Nat) : String :=
  match climb (Binary64.ofNat bytes) "B" largerUnits with
  | (_, "B") => decimal bytes ++ " B"
  | (size, unit) => size.fixed 1 ++ " " ++ unit

def inSeconds (d : Duration) : Binary64 :=
  Binary64.ofNat d.seconds + Binary64.ofNat d.subsecond / 1000000000

def throughput (bytes : Nat) (time : Duration) : Binary64 :=
  if time.isZero then Binary64.zero
  else Binary64.ofNat bytes / 1048576 / inSeconds time

def formatThroughput (rate : Binary64) : String :=
  if rate.atLeast 1024 then (rate / 1024).fixed 1 ++ " GiB/s"
  else if rate.atLeast 1 then rate.fixed 1 ++ " MiB/s"
  else (rate * 1024).fixed 1 ++ " KiB/s"

def formatLatency (d : Duration) : String :=
  if 1000 ≤ d.micros then (Binary64.ofNat d.micros / 1000).fixed 2 ++ "ms"
  else decimal d.micros ++ "μs"

end StorageTrials.Units

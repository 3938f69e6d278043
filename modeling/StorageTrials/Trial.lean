import StorageTrials.Fault

namespace StorageTrials

inductive Interruption
  | timedOut (limit : Duration)
  | cancelled
  | failed (cause : SystemError)
deriving DecidableEq, Repr

def Interruption.fault : Interruption → Fault
  | timedOut limit => .timeout limit
  | cancelled => .cancelled
  | failed cause => .system cause

structure Course where
  finish : Option Duration
  cancelled : Option Duration
deriving DecidableEq, Repr

namespace Course

def notAfter : Option Duration → Option Duration → Bool
  | some a, some b => a ≤ b
  | some _, none => true
  | none, _ => false

/-- How a trial of the given result ends. At equal times the work is over first, and cancelling
comes before the limit. A trial need not end. -/
def race (c : Course) (limit : Option Duration) (result : Except Fault Nat) :
    Option (Except Fault Nat) :=
  if notAfter c.finish c.cancelled && notAfter c.finish limit then some result
  else if notAfter c.cancelled limit then some (.error Interruption.cancelled.fault)
  else limit.map fun l => .error (Interruption.timedOut l).fault

end Course

def Course.trial (c : Course) (cancelledBefore : Bool) (limit : Option Duration)
    (result : Except Fault Nat) : Option (Except Fault Nat) :=
  if cancelledBefore then some (.error .cancelled) else c.race limit result

end StorageTrials

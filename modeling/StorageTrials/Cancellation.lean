namespace StorageTrials

structure CancelSource where
  cancelled : Bool
  held : Bool
deriving DecidableEq, Repr

inductive CancelToken
  | linked
  | never
deriving DecidableEq, Repr

namespace CancelSource

def fresh : CancelSource := ⟨false, true⟩

def cancel (s : CancelSource) : CancelSource :=
  if s.held then { s with cancelled := true } else s

def release (s : CancelSource) : CancelSource := { s with held := false }

def token? (s : CancelSource) : Option CancelToken := if s.held then some .linked else none

end CancelSource

/-- Whether a token is cancelled. Waiting for that ends exactly when it is. -/
def CancelToken.isCancelled (t : CancelToken) (s : CancelSource) : Bool :=
  t = linked && s.cancelled

end StorageTrials

import StorageTrials.ObjectStore

namespace StorageTrials

inductive StoreCall
  | delete
  | upload
  | download
deriving DecidableEq, Repr

inductive Disturbance
  | failure (cause : Fault)
  | hang
  | cancel
  | insert (name : String) (data : ByteArray)
  | drop (name : String)
  | short (bytes : Nat)

structure PlannedDisturbance where
  call : StoreCall
  number : Nat
  disturbance : Disturbance

structure DisturbedStore where
  store : MemoryStore
  plan : List PlannedDisturbance
  calls : List StoreCall

structure Reception where
  failure : Option Fault
  hangs : Bool
  cancels : Bool
  missing : Nat

namespace Reception

def calm : Reception := ⟨none, false, false, 0⟩

def isOpen (r : Reception) : Bool := r.failure.isNone && !r.hangs

end Reception

namespace DisturbedStore

def calm (m : MemoryStore) : DisturbedStore := ⟨m, [], []⟩

def disturb (m : MemoryStore) (r : Reception) : Disturbance → MemoryStore × Reception
  | .failure cause => (m, { r with failure := some cause })
  | .hang => (m, { r with hangs := true })
  | .cancel => (m, { r with cancels := true })
  | .insert name data => (m.insert name data, r)
  | .drop name => ((m.delete name).1, r)
  | .short bytes => (m, { r with missing := r.missing + bytes })

/-- Take a call: count it, and let what is planned for it happen in order. -/
def receive (d : DisturbedStore) (call : StoreCall) : DisturbedStore × Reception :=
  let calls := call :: d.calls
  let number := calls.count call
  let due := d.plan.filter fun p => p.call = call && p.number = number
  let (m, r) := due.foldl
    (fun (m, r) p => if r.isOpen then disturb m r p.disturbance else (m, r))
    (d.store, Reception.calm)
  ({ d with store := m, calls := calls }, r)

end DisturbedStore

end StorageTrials

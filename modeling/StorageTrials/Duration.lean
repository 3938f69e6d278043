import StorageTrials.Instances

namespace StorageTrials

structure Duration where
  nanos : Nat
  bounded : nanos < 2 ^ 64 * 1000000000
deriving DecidableEq, Repr

namespace Duration

@[ext]
theorem ext {a b : Duration} (h : a.nanos = b.nanos) : a = b := by
  cases a; cases b; cases h; rfl

def zero : Duration := ⟨0, by decide⟩

instance : Inhabited Duration := ⟨zero⟩

def ofNanos? (n : Nat) : Option Duration :=
  if h : n < 2 ^ 64 * 1000000000 then some ⟨n, h⟩ else none

def ofLow64 (n : Nat) : Duration :=
  ⟨n % 2 ^ 64, Nat.lt_of_lt_of_le (Nat.mod_lt n (by decide)) (by decide)⟩

def seconds (d : Duration) : Nat := d.nanos / 1000000000

def subsecond (d : Duration) : Nat := d.nanos % 1000000000

def micros (d : Duration) : Nat := d.nanos / 1000

def isZero (d : Duration) : Bool := d.nanos = 0

def add? (a b : Duration) : Option Duration := ofNanos? (a.nanos + b.nanos)

/-- The sum of all spans. As no span is negative, it exists only if every partial sum does. -/
def sum? (ds : List Duration) : Option Duration := ofNanos? (ds.map nanos).sum

instance : LE Duration := ⟨fun a b => a.nanos ≤ b.nanos⟩

instance (a b : Duration) : Decidable (a ≤ b) := inferInstanceAs (Decidable (a.nanos ≤ b.nanos))

end Duration

end StorageTrials

import StorageTrials.Duration

namespace StorageTrials

structure Percentiles where
  entries : List (Fin 256 × Duration)
  increasing : entries.Pairwise (·.1 < ·.1)
deriving DecidableEq, Repr

namespace Percentiles

@[ext]
theorem ext {a b : Percentiles} (h : a.entries = b.entries) : a = b := by
  cases a; cases b; cases h; rfl

def empty : Percentiles := ⟨[], .nil⟩

def place (p : Fin 256) (d : Duration) : List (Fin 256 × Duration) → List (Fin 256 × Duration)
  | [] => [(p, d)]
  | (q, e) :: rest =>
    if p < q then (p, d) :: (q, e) :: rest
    else if p = q then (p, d) :: rest
    else (q, e) :: place p d rest

theorem mem_place {p : Fin 256} {d : Duration} {es : List (Fin 256 × Duration)}
    {x : Fin 256 × Duration} (h : x ∈ place p d es) : x = (p, d) ∨ x ∈ es := by
  fun_induction place p d es with
  | case1 => simpa using h
  | case2 => simpa using h
  | case3 =>
    rcases List.mem_cons.mp h with h | h
    · exact .inl h
    · exact .inr (List.mem_cons_of_mem _ h)
  | case4 q e rest _ _ ih =>
    rcases List.mem_cons.mp h with h | h
    · exact .inr (h ▸ List.mem_cons_self)
    · exact (ih h).imp_right (List.mem_cons_of_mem _)

theorem increasing_place (p : Fin 256) (d : Duration) {es : List (Fin 256 × Duration)}
    (h : es.Pairwise (·.1 < ·.1)) : (place p d es).Pairwise (·.1 < ·.1) := by
  fun_induction place p d es with
  | case1 => simp
  | case2 q e rest hpq =>
    refine List.pairwise_cons.mpr ⟨fun x hx => ?_, h⟩
    rcases List.mem_cons.mp hx with rfl | hx
    · exact hpq
    · exact Fin.lt_trans hpq ((List.pairwise_cons.mp h).1 x hx)
  | case3 e rest _ =>
    exact List.pairwise_cons.mpr ⟨(List.pairwise_cons.mp h).1, (List.pairwise_cons.mp h).2⟩
  | case4 q e rest hlt hne ih =>
    have ⟨hq, hrest⟩ := List.pairwise_cons.mp h
    refine List.pairwise_cons.mpr ⟨fun x hx => ?_, ih hrest⟩
    rcases mem_place hx with rfl | hx
    · exact Nat.lt_of_le_of_ne (Nat.not_lt.mp hlt) fun he => hne (Fin.ext he.symm)
    · exact hq x hx

def insert (ps : Percentiles) (p : Fin 256) (d : Duration) : Percentiles :=
  ⟨place p d ps.entries, increasing_place p d ps.increasing⟩

def ofList (es : List (Fin 256 × Duration)) : Percentiles :=
  es.foldl (fun ps e => ps.insert e.1 e.2) empty

def get? (ps : Percentiles) (p : Fin 256) : Option Duration := ps.entries.lookup p

end Percentiles

structure Latency where
  min : Duration
  avg : Duration
  max : Duration
  percentiles : Percentiles
deriving DecidableEq, Repr

namespace Latency

def zero : Latency := ⟨.zero, .zero, .zero, .empty⟩

def ranked (samples : List Duration) : List Duration := samples.mergeSort fun a b => a ≤ b

def rank (n p : Nat) : Nat := n * p / 100

def reported : List (Fin 256) := [50, 95, 99]

/-- The statistics of the given times. The mean keeps the low 64 bits of its nanoseconds. -/
def ofSamples (samples : List Duration) : Latency :=
  if samples.isEmpty then zero
  else
    let sorted := ranked samples
    let at_ (i : Nat) : Duration := sorted[i]?.getD .zero
    { min := at_ 0
      avg := .ofLow64 ((samples.map (·.nanos)).sum / samples.length)
      max := at_ (samples.length - 1)
      percentiles := .ofList (reported.map fun p => (p, at_ (rank samples.length p))) }

def p50 (l : Latency) : Duration := (l.percentiles.get? 50).getD l.avg

def p95 (l : Latency) : Duration := (l.percentiles.get? 95).getD l.max

end Latency

end StorageTrials

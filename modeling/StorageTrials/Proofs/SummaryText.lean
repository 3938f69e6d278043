import Mathlib.Data.List.Induction
import StorageTrials.Proofs.Json.Structures
import StorageTrials.Summary.Written

namespace StorageTrials

open StorageTrials.Json StorageTrials.Number StorageTrials.Text

def Duration.low64 (d : Duration) : Duration := .ofLow64 d.nanos

theorem Duration.low64_eq_iff {d : Duration} : d.low64 = d ↔ d.nanos < 2 ^ 64 := by
  rw [Duration.ext_iff]
  exact Nat.mod_eq_iff_lt (by decide)

theorem map_eq_self {α : Type} {f : α → α} {xs : List α} :
    xs.map f = xs ↔ ∀ x ∈ xs, f x = x := by
  have hmap := List.map_inj_left (l := xs) (f := f) (g := id)
  rwa [List.map_id] at hmap

namespace Percentiles

variable {ps : Percentiles} {p : Fin 256} {d : Duration} {es : List (Fin 256 × Duration)}

theorem perm_place (h : ∀ e ∈ es, e.1 ≠ p) : (place p d es).Perm ((p, d) :: es) := by
  fun_induction place p d es with
  | case1 | case2 => rfl
  | case3 e rest _ => exact absurd rfl (h (p, e) List.mem_cons_self)
  | case4 q e rest _ _ ih =>
    exact ((ih fun e he => h e (List.mem_cons_of_mem _ he)).cons _).trans (.swap _ _ _)

theorem ofList_concat (es : List (Fin 256 × Duration)) (e : Fin 256 × Duration) :
    ofList (es ++ [e]) = (ofList es).insert e.1 e.2 := by
  rw [ofList, List.foldl_append]
  rfl

theorem perm_ofList (h : (es.map (·.1)).Nodup) : (ofList es).entries.Perm es := by
  induction es using List.reverseRecOn with
  | nil => rfl
  | append_singleton es e ih =>
    rw [List.map_append, List.map_singleton] at h
    obtain ⟨hes, -, hnew⟩ := List.nodup_append.mp h
    have hperm := ih hes
    rw [ofList_concat]
    refine (perm_place fun x hx he => ?_).trans
      ((hperm.cons _).trans (List.perm_append_singleton e es).symm)
    exact hnew x.1 (List.mem_map_of_mem (hperm.mem_iff.mp hx)) e.1 (List.mem_singleton_self _) he

theorem ofList_eq_of_perm (h : es.Perm ps.entries) : ofList es = ps := by
  have hkeys : (es.map (·.1)).Nodup :=
    (h.map _).nodup_iff.mpr ((List.pairwise_map.mpr ps.increasing).imp Fin.ne_of_lt)
  refine Percentiles.ext (((perm_ofList hkeys).trans h).eq_of_pairwise (fun a b _ _ hab hba => ?_)
    (ofList es).increasing ps.increasing)
  exact absurd hba (Nat.lt_asymm hab)

theorem mem_of_mem_ofList {e : Fin 256 × Duration} (h : e ∈ (ofList es).entries) : e ∈ es := by
  induction es using List.reverseRecOn with
  | nil => cases h
  | append_singleton es x ih =>
    rw [ofList_concat] at h
    rcases mem_place h with rfl | h
    · exact List.mem_append_right _ (List.mem_singleton_self _)
    · exact List.mem_append_left _ (ih h)

def low64 (ps : Percentiles) : Percentiles where
  entries := ps.entries.map fun e => (e.1, e.2.low64)
  increasing := List.pairwise_map.mpr ps.increasing

def durations (ps : Percentiles) : List Duration := ps.entries.map (·.2)

theorem low64_eq_iff : ps.low64 = ps ↔ ∀ d ∈ ps.durations, d.nanos < 2 ^ 64 := by
  rw [Percentiles.ext_iff, durations, List.forall_mem_map]
  simp only [low64, map_eq_self, Prod.ext_iff, true_and, Duration.low64_eq_iff]

/-- The percentiles are written in some order. -/
def Renders (ps : Percentiles) (v : Value) : Prop :=
  ∃ es : List (Fin 256 × Duration), es.Perm ps.entries ∧
    v = .object (es.map fun e => (digits e.1, .ofDuration e.2))

theorem renders_toJson (ps : Percentiles) : ps.Renders ps.toJson := ⟨ps.entries, .refl _, rfl⟩

theorem key?_digits (p : Fin 256) : key? (digits p) = some p := by
  simp [key?, readDigits?_digits]

theorem Renders.legible {v : Value} (h : ps.Renders v) : v.Legible := by
  obtain ⟨es, -, rfl⟩ := h
  exact .object (List.forall_mem_map.mpr fun e _ => Value.quotable_of_isDigit fun _ =>
      isDigit_of_mem_digits)
    (List.forall_mem_map.mpr fun e _ => Value.legible_ofDuration _)

theorem Renders.ofJson? {v : Value} (h : ps.Renders v) : ofJson? v = some ps.low64 := by
  obtain ⟨es, hperm, rfl⟩ := h
  have hread : (es.map fun e => (digits e.1, Value.ofDuration e.2)).mapM
      (fun m => do some (← key? m.1, ← m.2.duration?)) =
        some (es.map fun e => (e.1, e.2.low64)) := by
    rw [List.mapM_map]
    refine mapM_eq_some fun e _ => ?_
    simp [key?_digits, Duration.low64]
  have hsorted : ofList (es.map fun e => (e.1, e.2.low64)) = ps.low64 :=
    ofList_eq_of_perm (hperm.map _)
  exact (congrArg (Option.bind · fun es => some (ofList es)) hread).trans (congrArg some hsorted)

theorem nanos_of_ofJson? {v : Value} (h : Percentiles.ofJson? v = some ps) :
    ∀ d ∈ ps.durations, d.nanos < 2 ^ 64 := by
  cases v with
  | object members =>
    obtain ⟨es, hread, hps⟩ := Option.bind_eq_some_iff.mp h
    cases hps
    intro d hd
    obtain ⟨e, he, rfl⟩ := List.mem_map.mp hd
    obtain ⟨m, -, hm⟩ := exists_of_mem_mapM hread (mem_of_mem_ofList he)
    obtain ⟨p, -, hm⟩ := Option.bind_eq_some_iff.mp hm
    obtain ⟨d, hread, hm⟩ := Option.bind_eq_some_iff.mp hm
    cases hm
    exact Value.nanos_of_duration? hread
  | _ => cases h

end Percentiles

namespace Latency

variable {l : Latency} {v : Value}

def low64 (l : Latency) : Latency :=
  ⟨l.min.low64, l.avg.low64, l.max.low64, l.percentiles.low64⟩

def durations (l : Latency) : List Duration :=
  l.min :: l.avg :: l.max :: l.percentiles.durations

theorem low64_eq_iff : l.low64 = l ↔ ∀ d ∈ l.durations, d.nanos < 2 ^ 64 := by
  obtain ⟨min, avg, max, percentiles⟩ := l
  simp only [low64, durations, mk.injEq, List.forall_mem_cons, Duration.low64_eq_iff,
    Percentiles.low64_eq_iff]

def members (l : Latency) (percentiles : Value) : List (String × Value) :=
  [("min", .ofDuration l.min), ("avg", .ofDuration l.avg), ("max", .ofDuration l.max),
    ("percentiles", percentiles)]

def Renders (l : Latency) (v : Value) : Prop :=
  ∃ percentiles, l.percentiles.Renders percentiles ∧ v = .ofMembers (l.members percentiles)

theorem renders_toJson (l : Latency) : l.Renders l.toJson :=
  ⟨_, l.percentiles.renders_toJson, rfl⟩

theorem Renders.legible (h : l.Renders v) : v.Legible := by
  obtain ⟨w, hw, rfl⟩ := h
  refine Value.legible_ofMembers ?_
  simp [members, Value.legible_ofDuration, hw.legible]

theorem Renders.ofJson? (h : l.Renders v) : ofJson? v = some l.low64 := by
  obtain ⟨w, hw, rfl⟩ := h
  have hmembers : (Value.ofMembers (l.members w)).structure? ["min", "avg", "max", "percentiles"] =
      some ((l.members w).map (·.2)) :=
    Value.structure?_ofMembers (show ["min", "avg", "max", "percentiles"].Nodup by decide)
  rw [Latency.ofJson?, hmembers]
  simp [members, hw.ofJson?, low64, Duration.low64]

theorem nanos_of_ofJson? (h : Latency.ofJson? v = some l) :
    ∀ d ∈ l.durations, d.nanos < 2 ^ 64 := by
  obtain ⟨vs, -, h⟩ := Option.bind_eq_some_iff.mp h
  split at h
  · obtain ⟨min, hmin, h⟩ := Option.bind_eq_some_iff.mp h
    obtain ⟨avg, havg, h⟩ := Option.bind_eq_some_iff.mp h
    obtain ⟨max, hmax, h⟩ := Option.bind_eq_some_iff.mp h
    obtain ⟨ps, hps, h⟩ := Option.bind_eq_some_iff.mp h
    cases h
    simp only [durations, List.forall_mem_cons]
    exact ⟨Value.nanos_of_duration? hmin, Value.nanos_of_duration? havg,
      Value.nanos_of_duration? hmax, Percentiles.nanos_of_ofJson? hps⟩
  · cases h

end Latency

namespace GroupSummary

variable {g : GroupSummary} {v : Value}

def low64 (g : GroupSummary) : GroupSummary :=
  { g with totalTime := g.totalTime.low64, latency := g.latency.low64 }

def durations (g : GroupSummary) : List Duration := g.totalTime :: g.latency.durations

theorem low64_eq_iff : g.low64 = g ↔ ∀ d ∈ g.durations, d.nanos < 2 ^ 64 := by
  obtain ⟨file, op, trials, bytes, total, throughput, latency⟩ := g
  simp only [low64, durations, mk.injEq, List.forall_mem_cons, Duration.low64_eq_iff,
    Latency.low64_eq_iff, true_and]

/-- The counts are in the range of their types, and the text of the throughput is one that reads
back to it. -/
structure Keeps (g : GroupSummary) : Prop where
  trials : g.trials < 2 ^ 64
  bytes : g.bytes < 2 ^ 64
  throughput : (ofBinary64 g.throughput).binary64? = some g.throughput

def members (g : GroupSummary) (latency : Value) : List (String × Value) :=
  [("file", .ofText g.file), ("op", g.operation.toJson), ("trials", .ofNat g.trials),
    ("bytes", .ofNat g.bytes), ("total_time", .ofDuration g.totalTime),
    ("throughput_mbps", ofBinary64 g.throughput), ("latency", latency)]

def Renders (g : GroupSummary) (v : Value) : Prop :=
  ∃ latency, g.latency.Renders latency ∧ v = .ofMembers (g.members latency)

theorem renders_toJson (g : GroupSummary) : g.Renders g.toJson :=
  ⟨_, g.latency.renders_toJson, rfl⟩

theorem Renders.legible (h : g.Renders v) (hg : g.Keeps) : v.Legible := by
  obtain ⟨w, hw, rfl⟩ := h
  refine Value.legible_ofMembers ?_
  simp [members, Operation.toJson, Value.legible_ofText, Value.legible_ofNat,
    Value.legible_ofDuration, Value.legible_of_binary64? hg.throughput, hw.legible]

theorem Renders.ofJson? (h : g.Renders v) (hg : g.Keeps) : ofJson? v = some g.low64 := by
  obtain ⟨w, hw, rfl⟩ := h
  have hmembers : (Value.ofMembers (g.members w)).structure?
      ["file", "op", "trials", "bytes", "total_time", "throughput_mbps", "latency"] =
        some ((g.members w).map (·.2)) :=
    Value.structure?_ofMembers (show ["file", "op", "trials", "bytes", "total_time",
      "throughput_mbps", "latency"].Nodup by decide)
  rw [GroupSummary.ofJson?, hmembers]
  simp [members, Operation.ofJson?, Operation.toJson, Operation.ofName?_name,
    Value.nat?_ofNat hg.trials, Value.nat?_ofNat hg.bytes, hg.throughput, hw.ofJson?, low64,
    Duration.low64]

theorem nanos_of_ofJson? (h : GroupSummary.ofJson? v = some g) :
    ∀ d ∈ g.durations, d.nanos < 2 ^ 64 := by
  obtain ⟨vs, -, h⟩ := Option.bind_eq_some_iff.mp h
  split at h
  · obtain ⟨file, -, h⟩ := Option.bind_eq_some_iff.mp h
    obtain ⟨op, -, h⟩ := Option.bind_eq_some_iff.mp h
    obtain ⟨trials, -, h⟩ := Option.bind_eq_some_iff.mp h
    obtain ⟨bytes, -, h⟩ := Option.bind_eq_some_iff.mp h
    obtain ⟨total, htotal, h⟩ := Option.bind_eq_some_iff.mp h
    obtain ⟨throughput, -, h⟩ := Option.bind_eq_some_iff.mp h
    obtain ⟨latency, hlatency, h⟩ := Option.bind_eq_some_iff.mp h
    cases h
    exact List.forall_mem_cons.mpr
      ⟨Value.nanos_of_duration? htotal, Latency.nanos_of_ofJson? hlatency⟩
  · cases h

end GroupSummary

namespace RunnerSummary

variable {u : RunnerSummary} {v : Value}

def low64 (u : RunnerSummary) : RunnerSummary := { u with groups := u.groups.map (·.low64) }

def durations (u : RunnerSummary) : List Duration := u.groups.flatMap (·.durations)

theorem low64_eq_iff : u.low64 = u ↔ ∀ d ∈ u.durations, d.nanos < 2 ^ 64 := by
  obtain ⟨runner, completed, groups⟩ := u
  simp only [low64, durations, mk.injEq, true_and, map_eq_self, List.forall_mem_flatMap,
    GroupSummary.low64_eq_iff]

def members (u : RunnerSummary) (entries : List Value) : List (String × Value) :=
  [("runner", .ofText u.runner), ("completed", .boolean u.completed), ("entries", .array entries)]

def Renders (u : RunnerSummary) (v : Value) : Prop :=
  ∃ entries, List.Forall₂ GroupSummary.Renders u.groups entries ∧ v = .ofMembers (u.members entries)

theorem renders_toJson (u : RunnerSummary) : u.Renders u.toJson :=
  ⟨_, List.forall₂_map_right_iff.mpr (List.forall₂_same.mpr fun g _ => g.renders_toJson), rfl⟩

theorem Renders.legible (h : u.Renders v) (hu : ∀ g ∈ u.groups, g.Keeps) : v.Legible := by
  obtain ⟨vs, hvs, rfl⟩ := h
  have hentries : Value.Legible (.array vs) :=
    .array (forall_mem_of_forall₂ hvs fun g hg v hv => hv.legible (hu g hg))
  refine Value.legible_ofMembers ?_
  simp [members, Value.legible_ofText, Value.Legible.boolean, hentries]

theorem Renders.ofJson? (h : u.Renders v) (hu : ∀ g ∈ u.groups, g.Keeps) :
    ofJson? v = some u.low64 := by
  obtain ⟨vs, hvs, rfl⟩ := h
  have hentries : vs.mapM GroupSummary.ofJson? = some (u.groups.map (·.low64)) :=
    mapM_of_forall₂ hvs fun g hg v hv => hv.ofJson? (hu g hg)
  have hmembers : (Value.ofMembers (u.members vs)).structure? ["runner", "completed", "entries"] =
      some ((u.members vs).map (·.2)) :=
    Value.structure?_ofMembers (show ["runner", "completed", "entries"].Nodup by decide)
  rw [RunnerSummary.ofJson?, hmembers]
  simp [members, Value.boolean?, Value.items?, hentries, low64]

theorem nanos_of_ofJson? (h : RunnerSummary.ofJson? v = some u) :
    ∀ d ∈ u.durations, d.nanos < 2 ^ 64 := by
  obtain ⟨vs, -, h⟩ := Option.bind_eq_some_iff.mp h
  split at h
  · obtain ⟨runner, -, h⟩ := Option.bind_eq_some_iff.mp h
    obtain ⟨completed, -, h⟩ := Option.bind_eq_some_iff.mp h
    obtain ⟨items, -, h⟩ := Option.bind_eq_some_iff.mp h
    obtain ⟨groups, hgroups, h⟩ := Option.bind_eq_some_iff.mp h
    cases h
    refine List.forall_mem_flatMap.mpr fun g hg => ?_
    obtain ⟨w, -, hw⟩ := exists_of_mem_mapM hgroups hg
    exact GroupSummary.nanos_of_ofJson? hw
  · cases h

end RunnerSummary

namespace Summary

variable {s : Summary} {v : Value}

def low64 (s : Summary) : Summary := { s with runners := s.runners.map (·.low64) }

def durations (s : Summary) : List Duration := s.runners.flatMap (·.durations)

theorem low64_eq_iff : s.low64 = s ↔ ∀ d ∈ s.durations, d.nanos < 2 ^ 64 := by
  obtain ⟨timestamp, loopCount, runners⟩ := s
  simp only [low64, durations, mk.injEq, true_and, map_eq_self, List.forall_mem_flatMap,
    RunnerSummary.low64_eq_iff]

def groups (s : Summary) : List GroupSummary := s.runners.flatMap (·.groups)

def members (s : Summary) (runners : List Value) : List (String × Value) :=
  [("timestamp", .ofText s.timestamp.written), ("loop_count", .ofNat s.loopCount),
    ("runners", .array runners)]

def Renders (s : Summary) (v : Value) : Prop :=
  ∃ runners, List.Forall₂ RunnerSummary.Renders s.runners runners ∧
    v = .ofMembers (s.members runners)

theorem renders_toJson (s : Summary) : s.Renders s.toJson :=
  ⟨_, List.forall₂_map_right_iff.mpr (List.forall₂_same.mpr fun u _ => u.renders_toJson), rfl⟩

theorem Renders.legible (h : s.Renders v) (hs : ∀ u ∈ s.runners, ∀ g ∈ u.groups, g.Keeps) :
    v.Legible := by
  obtain ⟨vs, hvs, rfl⟩ := h
  have hrunners : Value.Legible (.array vs) :=
    .array (forall_mem_of_forall₂ hvs fun u hu v hv => hv.legible (hs u hu))
  refine Value.legible_ofMembers ?_
  simp [members, Value.legible_ofText, Value.legible_ofNat, hrunners]

theorem Renders.ofJson? (h : s.Renders v) (hs : ∀ u ∈ s.runners, ∀ g ∈ u.groups, g.Keeps)
    (hloops : s.loopCount < 2 ^ 32)
    (htime : Timestamp.read? s.timestamp.written = some s.timestamp) :
    ofJson? v = some s.low64 := by
  obtain ⟨vs, hvs, rfl⟩ := h
  have hrunners : vs.mapM RunnerSummary.ofJson? = some (s.runners.map (·.low64)) :=
    mapM_of_forall₂ hvs fun u hu v hv => hv.ofJson? (hs u hu)
  have hmembers : (Value.ofMembers (s.members vs)).structure?
      ["timestamp", "loop_count", "runners"] = some ((s.members vs).map (·.2)) :=
    Value.structure?_ofMembers (show ["timestamp", "loop_count", "runners"].Nodup by decide)
  rw [Summary.ofJson?, hmembers]
  simp [members, htime, Value.nat?_ofNat hloops, Value.items?, hrunners, low64]

theorem nanos_of_ofJson? (h : Summary.ofJson? v = some s) :
    ∀ d ∈ s.durations, d.nanos < 2 ^ 64 := by
  obtain ⟨vs, -, h⟩ := Option.bind_eq_some_iff.mp h
  split at h
  · obtain ⟨timestamp, -, h⟩ := Option.bind_eq_some_iff.mp h
    obtain ⟨loopCount, -, h⟩ := Option.bind_eq_some_iff.mp h
    obtain ⟨items, -, h⟩ := Option.bind_eq_some_iff.mp h
    obtain ⟨runners, hrunners, h⟩ := Option.bind_eq_some_iff.mp h
    cases h
    refine List.forall_mem_flatMap.mpr fun u hu => ?_
    obtain ⟨w, -, hw⟩ := exists_of_mem_mapM hrunners hu
    exact RunnerSummary.nanos_of_ofJson? hw
  · cases h

theorem Renders.read? (h : s.Renders v) (hs : ∀ u ∈ s.runners, ∀ g ∈ u.groups, g.Keeps)
    (hloops : s.loopCount < 2 ^ 32)
    (htime : Timestamp.read? s.timestamp.written = some s.timestamp) :
    read? v.text = some s.low64 := by
  rw [Summary.read?, read?_text (h.legible hs), Option.bind_some, h.ofJson? hs hloops htime]

/-- A summary that is saved is read back with the low 64 bits of its times: unchanged exactly if
these are all there is, as in a summary that has itself been read. It makes no difference in which
order percentiles are saved. -/
theorem saved_summary_read_back (s : Summary) (hloops : s.loopCount < 2 ^ 32)
    (hcounts : ∀ g ∈ s.groups, g.trials < 2 ^ 64 ∧ g.bytes < 2 ^ 64)
    (hfloats : ∀ g ∈ s.groups, (ofBinary64 g.throughput).binary64? = some g.throughput)
    (htime : Timestamp.read? s.timestamp.written = some s.timestamp) :
    read? s.written = some s.low64 ∧
    (read? s.written = some s ↔ ∀ d ∈ s.durations, d.nanos < 2 ^ 64) ∧
    (∀ text, read? text = some s → read? s.written = some s) ∧
    ∀ v, s.Renders v → read? v.text = read? s.written := by
  have hkeeps : ∀ u ∈ s.runners, ∀ g ∈ u.groups, g.Keeps := by
    intro u hu g hg
    have hmem : g ∈ s.groups := List.mem_flatMap.mpr ⟨u, hu, hg⟩
    exact ⟨(hcounts g hmem).1, (hcounts g hmem).2, hfloats g hmem⟩
  have hread : read? s.written = some s.low64 := s.renders_toJson.read? hkeeps hloops htime
  have hsame : read? s.written = some s ↔ ∀ d ∈ s.durations, d.nanos < 2 ^ 64 := by
    rw [hread, Option.some.injEq, low64_eq_iff]
  refine ⟨hread, hsame, fun text htext => hsame.mpr ?_, fun v hv => ?_⟩
  · obtain ⟨v, -, hv⟩ := Option.bind_eq_some_iff.mp htext
    exact nanos_of_ofJson? hv
  · rw [hread, hv.read? hkeeps hloops htime]

def sampleSummary : Summary where
  timestamp := ⟨1700000000, 5000000⟩
  loopCount := 3
  runners := [⟨"the \"direct\" one", false, [⟨"a\\b\x01\n", .write, 2, 10, ⟨2 ^ 64 + 7, by decide⟩,
    .finite false (3 * 2 ^ 51) (-52), ⟨.zero, ⟨4, by decide⟩, ⟨2 ^ 64 + 3, by decide⟩,
      .ofList (Latency.reported.zip [⟨4, by decide⟩, ⟨2 ^ 64 + 3, by decide⟩]).reverse⟩⟩]⟩]

theorem saved_summary_read_back_shortened :
    read? sampleSummary.written = some sampleSummary.low64 ∧
      read? sampleSummary.written ≠ some sampleSummary := by
  obtain ⟨hread, hsame, -⟩ := saved_summary_read_back sampleSummary (by decide +kernel)
    (by decide +kernel) (by decide +kernel) (by decide +kernel)
  refine ⟨hread, fun h => ?_⟩
  exact absurd (hsame.mp h) (by decide +kernel)

end Summary

end StorageTrials

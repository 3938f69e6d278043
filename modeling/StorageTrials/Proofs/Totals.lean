import StorageTrials.Proofs.Grouping
import StorageTrials.Proofs.OrderStatistics

namespace StorageTrials

variable {rs others : List Record} {k : GroupKey} {runner : String} {completed : Bool}
variable {u : RunnerSummary}

theorem perm_recordsOf (h : others.Perm rs) (k : GroupKey) :
    (recordsOf others k).Perm (recordsOf rs k) :=
  h.filter _

theorem perm_keysOf (h : others.Perm rs) : (keysOf others).Perm (keysOf rs) := by
  refine (List.perm_ext_iff_of_nodup (nodup_keysOf _) (nodup_keysOf _)).mpr fun k => ?_
  simp only [mem_keysOf, h.mem_iff]

theorem bytes_groupOf_of_perm (h : others.Perm rs) (k : GroupKey) :
    (groupOf others k).bytes = (groupOf rs k).bytes :=
  ((perm_recordsOf h k).map _).sum_nat

theorem perm_samples_groupOf (h : others.Perm rs) (k : GroupKey) :
    (groupOf others k).samples.Perm (groupOf rs k).samples :=
  (perm_recordsOf h k).map _

theorem Fits.of_perm (hfits : Fits rs) (h : others.Perm rs) : Fits others where
  bytes k := by
    rw [bytes_groupOf_of_perm h]
    exact hfits.bytes k
  times k := by
    rw [((perm_samples_groupOf h k).map _).sum_nat]
    exact hfits.times k

theorem summary?_groupOf_of_perm (h : others.Perm rs) (k : GroupKey) :
    (groupOf others k).summary? = (groupOf rs k).summary? := by
  have hsamples := perm_samples_groupOf h k
  have htotal : Duration.sum? (groupOf others k).samples =
      Duration.sum? (groupOf rs k).samples := by
    rw [Duration.sum?, (hsamples.map _).sum_nat, Duration.sum?]
  rw [Group.summary?, htotal, bytes_groupOf_of_perm h, hsamples.length_eq,
    Latency.ofSamples_of_perm hsamples]
  rfl

theorem perm_groups {u' : RunnerSummary} (h : others.Perm rs)
    (hu : RunnerSummary.ofRecords? runner completed rs = some u)
    (hu' : RunnerSummary.ofRecords? runner completed others = some u') :
    u'.groups.Perm u.groups := by
  have hgroups : (keysOf rs).map (fun k => (groupOf rs k).summary?) = u.groups.map some :=
    map_eq_of_forall₂ (groups_of_ofRecords? hu)
  have hgroups' : (keysOf others).map (fun k => (groupOf others k).summary?) =
      u'.groups.map some :=
    map_eq_of_forall₂ (groups_of_ofRecords? hu')
  refine (List.map_perm_map_iff fun _ _ => Option.some.inj).mp ?_
  rw [← hgroups, ← hgroups']
  simp only [summary?_groupOf_of_perm h]
  exact (perm_keysOf h).map _

theorem not_bytesFit_iff :
    ¬ BytesFit rs ↔ ∃ k, 2 ^ 64 ≤ ((recordsOf rs k).map (·.size)).sum := by
  simp only [BytesFit, not_forall, Nat.not_lt]
  rfl

theorem not_timesFit_iff :
    ¬ TimesFit rs ↔ ∃ k, 2 ^ 64 * 1000000000 ≤ ((recordsOf rs k).map (·.elapsed.nanos)).sum := by
  simp only [TimesFit, not_forall, Nat.not_lt, groupOf, List.map_map]
  rfl

theorem not_fits_iff :
    ¬ Fits rs ↔ ∃ k, 2 ^ 64 ≤ ((recordsOf rs k).map (·.size)).sum ∨
      2 ^ 64 * 1000000000 ≤ ((recordsOf rs k).map (·.elapsed.nanos)).sum := by
  rw [exists_or, ← not_bytesFit_iff, ← not_timesFit_iff, ← not_and_or]
  exact not_congr ⟨fun h => ⟨h.bytes, h.times⟩, fun h => ⟨h.1, h.2⟩⟩

theorem summary_eq_none_iff :
    RunnerSummary.ofRecords? runner completed rs = none ↔ ¬ Fits rs := by
  rw [← isSome_ofRecords? runner completed, Option.not_isSome_iff_eq_none]

structure GroupSummary.Covers (g : GroupSummary) (rs : List Record) : Prop where
  sums : Sums rs g
  totalTime : g.totalTime.nanos = ((recordsOf rs g.key).map (·.elapsed.nanos)).sum
  throughput : g.throughput = Units.throughput g.bytes g.totalTime
  latency : g.latency = .ofSamples ((recordsOf rs g.key).map (·.elapsed))

/-- A summary has a group for each file and operation that occur, and for no other. -/
structure RunnerSummary.Covers (u : RunnerSummary) (rs : List Record) : Prop where
  mem_keys : ∀ k, k ∈ u.groups.map (·.key) ↔ ∃ r ∈ rs, r.key = k
  nodup : (u.groups.map (·.key)).Nodup
  order : (u.groups.map (·.key)).Pairwise fun k k' =>
    (rs.map (·.key)).idxOf k < (rs.map (·.key)).idxOf k'
  groups : ∀ g ∈ u.groups, g.Covers rs
  totalTrials : u.totalTrials = rs.length

theorem nanos_of_sum? {ds : List Duration} {total : Duration} (h : Duration.sum? ds = some total) :
    total.nanos = (ds.map (·.nanos)).sum := by
  rw [Duration.sum?, Duration.ofNanos?] at h
  split at h
  · cases h
    rfl
  · cases h

theorem covers_of_mem (h : RunnerSummary.ofRecords? runner completed rs = some u)
    {g : GroupSummary} (hg : g ∈ u.groups) : g.Covers rs := by
  have hsums := sums_of_mem h hg
  obtain ⟨total, htotal, hsummary⟩ := Option.map_eq_some_iff.mp (summary?_of_mem h hg)
  have hnanos := nanos_of_sum? htotal
  rw [groupOf, List.map_map] at hnanos
  refine ⟨hsums, ?_, ?_, ?_⟩
  · rw [← congrArg GroupSummary.totalTime hsummary]
    exact hnanos
  · rw [← hsummary]
  · exact (congrArg GroupSummary.latency hsummary).symm

theorem covers_of_ofRecords? (h : RunnerSummary.ofRecords? runner completed rs = some u) :
    u.Covers rs := by
  have hkeys := keys_of_ofRecords? h
  refine ⟨fun k => ?_, ?_, ?_, fun g hg => covers_of_mem h hg, totalTrials_of_ofRecords? h⟩
  · rw [hkeys]
    exact mem_keysOf
  · rw [hkeys]
    exact nodup_keysOf rs
  · rw [hkeys]
    exact pairwise_idxOf_eraseDups _

/-- The records of a runner can be added up exactly if no group has `2 ^ 64` bytes or more, and
summed up exactly if besides none took `2 ^ 64` seconds or more. The summary has one group for each
file and operation, in the order in which they first occur, with all that its records come to.
Records in another order give the same groups in another order. -/
theorem summary_covers_records (runner : String) (completed : Bool) (rs : List Record) :
    (Tally.ofRecords? rs = none ↔ ∃ k, 2 ^ 64 ≤ ((recordsOf rs k).map (·.size)).sum) ∧
    (RunnerSummary.ofRecords? runner completed rs = none ↔
      ∃ k, 2 ^ 64 ≤ ((recordsOf rs k).map (·.size)).sum ∨
        2 ^ 64 * 1000000000 ≤ ((recordsOf rs k).map (·.elapsed.nanos)).sum) ∧
    ∀ u, RunnerSummary.ofRecords? runner completed rs = some u →
      u.runner = runner ∧ u.completed = completed ∧ u.Covers rs ∧
        ∀ others : List Record, others.Perm rs →
          ∃ u', RunnerSummary.ofRecords? runner completed others = some u' ∧
            u'.groups.Perm u.groups := by
  refine ⟨tally_eq_none_iff.trans not_bytesFit_iff, summary_eq_none_iff.trans not_fits_iff,
    fun u hu => ⟨runner_ofRecords? hu, completed_ofRecords? hu, covers_of_ofRecords? hu,
      fun others hperm => ?_⟩⟩
  have hfits : Fits rs := (isSome_ofRecords? runner completed rs).mp (hu ▸ rfl)
  obtain ⟨u', hu'⟩ := Option.isSome_iff_exists.mp
    ((isSome_ofRecords? runner completed others).mpr (hfits.of_perm hperm))
  exact ⟨u', hu', perm_groups hperm hu hu'⟩

def sampleHalf (file : String) : Record := ⟨file, .write, 2 ^ 63, .zero⟩

/-- Two halves are too much for one group, but not for two. -/
theorem summary_covers_records_halves :
    RunnerSummary.ofRecords? "direct" true [sampleHalf "a", sampleHalf "a"] = none ∧
      ∃ u, RunnerSummary.ofRecords? "direct" true [sampleHalf "a", sampleHalf "b"] = some u ∧
        u.Covers [sampleHalf "a", sampleHalf "b"] := by
  obtain ⟨-, hnone, -⟩ := summary_covers_records "direct" true [sampleHalf "a", sampleHalf "a"]
  obtain ⟨-, -, hsome⟩ := summary_covers_records "direct" true [sampleHalf "a", sampleHalf "b"]
  obtain ⟨u, hu⟩ := Option.isSome_iff_exists.mp (show (RunnerSummary.ofRecords? "direct" true
    [sampleHalf "a", sampleHalf "b"]).isSome = true by decide +kernel)
  exact ⟨hnone.mpr ⟨("a", .write), .inl (by decide)⟩, u, hu, (hsome u hu).2.2.1⟩

end StorageTrials

import Mathlib.Algebra.BigOperators.Group.List.Lemmas
import Mathlib.Algebra.Order.BigOperators.Group.List
import Mathlib.Algebra.Order.Group.Nat
import Mathlib.Data.List.Induction
import Mathlib.Data.List.Nodup
import StorageTrials.Proofs.Optional
import StorageTrials.Tally

namespace StorageTrials

variable {rs : List Record} {r : Record}

abbrev GroupKey := String × Operation

def Record.key (r : Record) : GroupKey := (r.file, r.operation)

def recordsOf (rs : List Record) (k : GroupKey) : List Record := rs.filter fun r => r.key = k

def groupOf (rs : List Record) (k : GroupKey) : Group where
  file := k.1
  operation := k.2
  bytes := ((recordsOf rs k).map (·.size)).sum
  samples := (recordsOf rs k).map (·.elapsed)

def keysOf (rs : List Record) : List GroupKey := (rs.map (·.key)).eraseDups

theorem mem_keysOf {k : GroupKey} : k ∈ keysOf rs ↔ ∃ r ∈ rs, r.key = k := by
  rw [keysOf, List.mem_eraseDups, List.mem_map]

theorem eraseDups_concat {α : Type} [BEq α] [LawfulBEq α] (xs : List α) (x : α) :
    (xs ++ [x]).eraseDups = if x ∈ xs then xs.eraseDups else xs.eraseDups ++ [x] := by
  rw [List.eraseDups_append, List.removeAll, List.filter_singleton]
  by_cases h : x ∈ xs
  · rw [if_pos h, List.elem_eq_true_of_mem h]
    exact List.append_nil _
  · have hmem : xs.elem x = false := Bool.eq_false_iff.mpr fun hm => h (List.mem_of_elem_eq_true hm)
    rw [if_neg h, hmem]
    rfl

theorem pairwise_idxOf_eraseDups {α : Type} [BEq α] [LawfulBEq α] (xs : List α) :
    xs.eraseDups.Pairwise fun a b => xs.idxOf a < xs.idxOf b := by
  induction xs using List.reverseRecOn with
  | nil => exact .nil
  | append_singleton xs x ih =>
    have hfirst {a : α} (ha : a ∈ xs.eraseDups) : (xs ++ [x]).idxOf a = xs.idxOf a :=
      List.idxOf_append_of_mem (List.mem_eraseDups.mp ha)
    have hold : xs.eraseDups.Pairwise fun a b => (xs ++ [x]).idxOf a < (xs ++ [x]).idxOf b :=
      ih.imp_of_mem fun ha hb hab => by rwa [hfirst ha, hfirst hb]
    rw [eraseDups_concat]
    split
    · exact hold
    · rename_i hnew
      refine List.pairwise_append.mpr ⟨hold, List.pairwise_singleton _ x, fun a ha b hb => ?_⟩
      rw [List.mem_singleton.mp hb, hfirst ha, List.idxOf_append_of_notMem hnew]
      exact Nat.lt_add_right _ (List.idxOf_lt_length_of_mem (List.mem_eraseDups.mp ha))

theorem nodup_eraseDups {α : Type} [BEq α] [LawfulBEq α] (xs : List α) : xs.eraseDups.Nodup :=
  (pairwise_idxOf_eraseDups xs).imp fun hlt he => Nat.ne_of_lt hlt (congrArg (xs.idxOf ·) he)

theorem eraseDups_map {α β : Type} [BEq α] [LawfulBEq α] [BEq β] [LawfulBEq β] {f : α → β}
    (hf : Function.Injective f) (xs : List α) : (xs.map f).eraseDups = xs.eraseDups.map f := by
  induction xs using List.reverseRecOn with
  | nil => rfl
  | append_singleton xs x ih =>
    rw [List.map_append, List.map_singleton, eraseDups_concat, eraseDups_concat, ih]
    simp only [List.mem_map_of_injective hf]
    split
    · rfl
    · rw [List.map_append, List.map_singleton]

theorem keysOf_append (rs : List Record) (r : Record) :
    keysOf (rs ++ [r]) = if r.key ∈ keysOf rs then keysOf rs else keysOf rs ++ [r.key] := by
  rw [keysOf, List.map_append, List.map_singleton, eraseDups_concat]
  exact if_congr List.mem_eraseDups.symm rfl rfl

theorem nodup_keysOf (rs : List Record) : (keysOf rs).Nodup := nodup_eraseDups _

theorem recordsOf_append_self (rs : List Record) (r : Record) :
    recordsOf (rs ++ [r]) r.key = recordsOf rs r.key ++ [r] := by
  simp [recordsOf]

theorem recordsOf_append_of_ne {k : GroupKey} (h : k ≠ r.key) :
    recordsOf (rs ++ [r]) k = recordsOf rs k := by
  simp [recordsOf, Ne.symm h]

theorem recordsOf_eq_nil {k : GroupKey} (h : k ∉ keysOf rs) : recordsOf rs k = [] := by
  refine List.filter_eq_nil_iff.mpr fun r hr hk => h ?_
  exact mem_keysOf.mpr ⟨r, hr, of_decide_eq_true hk⟩

theorem groupOf_append_of_ne {k : GroupKey} (h : k ≠ r.key) :
    groupOf (rs ++ [r]) k = groupOf rs k := by
  rw [groupOf, recordsOf_append_of_ne h, groupOf]

theorem holds_groupOf (rs : List Record) (k : GroupKey) (r : Record) :
    (groupOf rs k).holds r = decide (k = r.key) := by
  rw [Group.holds, ← Bool.decide_and]
  exact decide_eq_decide.mpr (Prod.ext_iff (x := k) (y := r.key)).symm

def HasRoom (rs : List Record) (r : Record) : Prop := (groupOf rs r.key).bytes + r.size < 2 ^ 64

theorem add?_groupOf (rs : List Record) (r : Record) [Decidable (HasRoom rs r)] :
    (groupOf rs r.key).add? r =
      if HasRoom rs r then some (groupOf (rs ++ [r]) r.key) else none := by
  refine if_congr Iff.rfl (congrArg some ?_) rfl
  simp [groupOf, recordsOf_append_self]

instance (rs : List Record) (r : Record) : Decidable (HasRoom rs r) :=
  inferInstanceAs (Decidable (_ < _))

theorem place_groups {ks : List GroupKey} (hks : ks.Nodup)
    (hnew : r.key ∉ ks → recordsOf rs r.key = []) :
    Tally.place r (ks.map (groupOf rs)) =
      if HasRoom rs r then
        some ((if r.key ∈ ks then ks else ks ++ [r.key]).map (groupOf (rs ++ [r])))
      else none := by
  induction ks with
  | nil =>
    have hvacant : Group.vacant r = groupOf rs r.key := by
      rw [groupOf, hnew List.not_mem_nil]
      rfl
    rw [List.map_nil, Tally.place, hvacant, add?_groupOf]
    split <;> rfl
  | cons k ks ih =>
    obtain ⟨hk, hks⟩ := List.nodup_cons.mp hks
    rw [List.map_cons, Tally.place, holds_groupOf]
    by_cases he : k = r.key
    · subst he
      have hrest : ks.map (groupOf (rs ++ [r])) = ks.map (groupOf rs) :=
        List.map_congr_left fun k' hk' => groupOf_append_of_ne fun heq => hk (heq ▸ hk')
      rw [if_pos (decide_eq_true rfl), add?_groupOf, if_pos List.mem_cons_self, List.map_cons,
        hrest]
      split <;> rfl
    · have hmem : (r.key ∈ k :: ks) ↔ r.key ∈ ks := by simp [Ne.symm he]
      rw [decide_eq_false he, if_neg Bool.false_ne_true,
        ih hks fun h => hnew fun hm => h (hmem.mp hm)]
      simp only [hmem]
      split
      · split <;> simp [groupOf_append_of_ne he]
      · rfl

/-- The bytes of every group are in their range. -/
def BytesFit (rs : List Record) : Prop := ∀ k, (groupOf rs k).bytes < 2 ^ 64

theorem bytesFit_append : BytesFit (rs ++ [r]) ↔ BytesFit rs ∧ HasRoom rs r := by
  have hself : (groupOf (rs ++ [r]) r.key).bytes = (groupOf rs r.key).bytes + r.size := by
    simp [groupOf, recordsOf_append_self]
  constructor
  · intro h
    have hroom : HasRoom rs r := by
      rw [HasRoom, ← hself]
      exact h r.key
    refine ⟨fun k => ?_, hroom⟩
    by_cases hk : k = r.key
    · rw [hk]
      exact Nat.lt_of_le_of_lt (Nat.le_add_right _ _) hroom
    · rw [← groupOf_append_of_ne hk]
      exact h k
  · rintro ⟨h, hroom⟩ k
    by_cases hk : k = r.key
    · rw [hk, hself]
      exact hroom
    · rw [groupOf_append_of_ne hk]
      exact h k

theorem BytesFit.sublist {rs' : List Record} (h : BytesFit rs) (hs : rs'.Sublist rs) :
    BytesFit rs' := fun k =>
  Nat.lt_of_le_of_lt (((hs.filter _).map _).sum_le_sum fun _ _ => Nat.zero_le _) (h k)

open scoped Classical in
/-- The tally of some records has one group for each key. -/
theorem ofRecords?_eq (rs : List Record) :
    Tally.ofRecords? rs =
      if BytesFit rs then some ⟨(keysOf rs).map (groupOf rs)⟩ else none := by
  induction rs using List.reverseRecOn with
  | nil =>
    have hfit : BytesFit [] := fun k => Nat.two_pow_pos 64
    rw [if_pos hfit]
    rfl
  | append_singleton rs r ih =>
    have hsplit : Tally.ofRecords? (rs ++ [r]) = (Tally.ofRecords? rs).bind (·.add? r) := by
      rw [Tally.ofRecords?, List.foldlM_append]
      refine congrArg _ (funext fun t => ?_)
      simp
    rw [hsplit, ih]
    by_cases hfit : BytesFit rs
    · rw [if_pos hfit, Option.bind_some, Tally.add?,
        place_groups (nodup_keysOf rs) recordsOf_eq_nil, ← keysOf_append]
      by_cases hroom : HasRoom rs r
      · rw [if_pos hroom, if_pos (bytesFit_append.mpr ⟨hfit, hroom⟩)]
        rfl
      · rw [if_neg hroom, if_neg fun h => hroom (bytesFit_append.mp h).2]
        rfl
    · rw [if_neg hfit, if_neg fun h => hfit (bytesFit_append.mp h).1]
      rfl

theorem tally_eq_none_iff : Tally.ofRecords? rs = none ↔ ¬ BytesFit rs := by
  rw [ofRecords?_eq]
  split <;> simp_all

instance (rs : List Record) : Decidable (BytesFit rs) :=
  decidable_of_iff ((Tally.ofRecords? rs).isSome = true) (by rw [ofRecords?_eq]; split <;> simp_all)

theorem bytesFit_of_ofRecords? {t : Tally} (h : Tally.ofRecords? rs = some t) : BytesFit rs := by
  by_contra hnot
  cases (tally_eq_none_iff.mpr hnot).symm.trans h

/-- The times of every group are in their range. -/
def TimesFit (rs : List Record) : Prop :=
  ∀ k, ((groupOf rs k).samples.map (·.nanos)).sum < 2 ^ 64 * 1000000000

structure Fits (rs : List Record) : Prop where
  bytes : BytesFit rs
  times : TimesFit rs

theorem isSome_summary? (g : Group) :
    g.summary?.isSome ↔ (g.samples.map (·.nanos)).sum < 2 ^ 64 * 1000000000 := by
  rw [Group.summary?, Option.isSome_map, Duration.sum?, Duration.ofNanos?]
  split
  · rename_i h
    exact iff_of_true rfl h
  · rename_i h
    exact iff_of_false Bool.false_ne_true h

/-- There is a summary exactly if all totals are in their range. -/
theorem isSome_ofRecords? (runner : String) (completed : Bool) (rs : List Record) :
    (RunnerSummary.ofRecords? runner completed rs).isSome ↔ Fits rs := by
  rw [RunnerSummary.ofRecords?, ofRecords?_eq]
  by_cases hfit : BytesFit rs
  · rw [if_pos hfit, Option.bind_some, Tally.summary?, Option.isSome_map, isSome_mapM]
    simp only [List.forall_mem_map, isSome_summary?]
    constructor
    · intro h
      refine ⟨hfit, fun k => ?_⟩
      by_cases hk : k ∈ keysOf rs
      · exact h k hk
      · have hnone : (groupOf rs k).samples = [] := by rw [groupOf, recordsOf_eq_nil hk]; rfl
        rw [hnone]
        decide
    · exact fun h k _ => h.times k
  · rw [if_neg hfit]
    simp only [Option.bind_none, Option.isSome_none, Bool.false_eq_true, false_iff]
    exact fun h => hfit h.bytes

theorem Tally.isSome_summary? {t : Tally} (ht : Tally.ofRecords? rs = some t) (runner : String)
    (completed : Bool) : (t.summary? runner completed).isSome ↔ Fits rs := by
  rw [← isSome_ofRecords? runner completed, RunnerSummary.ofRecords?, ht, Option.bind_some]

theorem Tally.completed_of_summary? {t : Tally} {runner : String} {completed : Bool}
    {u : RunnerSummary} (h : t.summary? runner completed = some u) : u.completed = completed := by
  obtain ⟨gs, -, rfl⟩ := Option.map_eq_some_iff.mp h
  rfl

def GroupSummary.key (g : GroupSummary) : GroupKey := (g.file, g.operation)

section groups

variable {u : RunnerSummary} {name : String} {completed : Bool}

theorem sum_length_recordsOf (rs : List Record) :
    ((keysOf rs).map fun k => (recordsOf rs k).length).sum = rs.length := by
  have hkeys : (keysOf rs).Perm (rs.map (·.key)).dedup :=
    (List.perm_ext_iff_of_nodup (nodup_keysOf rs) (List.nodup_dedup _)).mpr fun k =>
      List.mem_eraseDups.trans List.mem_dedup.symm
  -- the equality test with which the library counts
  let _ : BEq GroupKey := instBEqOfDecidableEq
  have hcount (k : GroupKey) : (recordsOf rs k).length = (rs.map (·.key)).count k := by
    rw [recordsOf, ← List.countP_eq_length_filter, List.count, List.countP_map]
    exact List.countP_congr fun r _ => by simp
  simp only [hcount]
  rw [(hkeys.map _).sum_eq, List.sum_map_count_dedup_eq_length, List.length_map]

theorem key_of_summary? {k : GroupKey} {g : GroupSummary}
    (h : (groupOf rs k).summary? = some g) : g.key = k := by
  obtain ⟨total, -, rfl⟩ := Option.map_eq_some_iff.mp h
  rfl

theorem groups_of_ofRecords? (h : RunnerSummary.ofRecords? name completed rs = some u) :
    List.Forall₂ (fun k g => (groupOf rs k).summary? = some g) (keysOf rs) u.groups := by
  obtain ⟨t, ht, hu⟩ := Option.bind_eq_some_iff.mp h
  obtain ⟨gs, hgs, rfl⟩ := Option.map_eq_some_iff.mp hu
  rw [ofRecords?_eq] at ht
  split at ht
  · cases ht
    exact List.forall₂_map_left_iff.mp (forall₂_of_mapM hgs)
  · cases ht

theorem keys_of_ofRecords? (h : RunnerSummary.ofRecords? name completed rs = some u) :
    u.groups.map (·.key) = keysOf rs := by
  have hkeys := map_eq_of_forall₂ ((groups_of_ofRecords? h).imp fun k g hg =>
    show id k = g.key from (key_of_summary? hg).symm)
  rw [← hkeys, List.map_id]

theorem summary?_of_mem (h : RunnerSummary.ofRecords? name completed rs = some u)
    {g : GroupSummary} (hg : g ∈ u.groups) : (groupOf rs g.key).summary? = some g := by
  have hall : ∀ g ∈ u.groups, (groupOf rs g.key).summary? = some g :=
    forall_mem_of_forall₂ (groups_of_ofRecords? h) fun k _ g hk => by rwa [key_of_summary? hk]
  exact hall g hg

/-- What a summary says of a group: how many records there are, and their sizes together. -/
def Sums (rs : List Record) (g : GroupSummary) : Prop :=
  g.trials = (recordsOf rs g.key).length ∧ g.bytes = ((recordsOf rs g.key).map (·.size)).sum

theorem sums_of_mem (h : RunnerSummary.ofRecords? name completed rs = some u)
    {g : GroupSummary} (hg : g ∈ u.groups) : Sums rs g := by
  obtain ⟨total, -, htotal⟩ := Option.map_eq_some_iff.mp (summary?_of_mem h hg)
  rw [Sums, ← htotal]
  exact ⟨List.length_map _, rfl⟩

theorem totalTrials_of_ofRecords? (h : RunnerSummary.ofRecords? name completed rs = some u) :
    u.totalTrials = rs.length := by
  have htrials : u.groups.map (·.trials) =
      (keysOf rs).map fun k => (recordsOf rs k).length := by
    rw [← keys_of_ofRecords? h, List.map_map]
    exact List.map_congr_left fun g hg => (sums_of_mem h hg).1
  rw [RunnerSummary.totalTrials, htrials, sum_length_recordsOf]

end groups

theorem completed_ofRecords? {runner : String} {completed : Bool} {s : RunnerSummary}
    (h : RunnerSummary.ofRecords? runner completed rs = some s) : s.completed = completed := by
  obtain ⟨t, -, ht⟩ := Option.bind_eq_some_iff.mp h
  exact t.completed_of_summary? ht

theorem runner_ofRecords? {runner : String} {completed : Bool} {s : RunnerSummary}
    (h : RunnerSummary.ofRecords? runner completed rs = some s) : s.runner = runner := by
  obtain ⟨t, -, ht⟩ := Option.bind_eq_some_iff.mp h
  obtain ⟨gs, -, rfl⟩ := Option.map_eq_some_iff.mp ht
  rfl

end StorageTrials

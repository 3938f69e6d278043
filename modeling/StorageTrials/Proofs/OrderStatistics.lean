import Mathlib.Algebra.Order.BigOperators.Group.List
import Mathlib.Algebra.Order.Group.Nat
import StorageTrials.Latency
import StorageTrials.Proofs.Optional

namespace StorageTrials.Latency

variable {samples others : List Duration} {d : Duration} {i j n p q r : Nat}

theorem perm_ranked (samples : List Duration) : (ranked samples).Perm samples :=
  List.mergeSort_perm _ _

theorem length_ranked (samples : List Duration) : (ranked samples).length = samples.length :=
  (perm_ranked samples).length_eq

theorem pairwise_ranked (samples : List Duration) : (ranked samples).Pairwise (· ≤ ·) := by
  have hsorted : (ranked samples).Pairwise fun a b => decide (a ≤ b) = true := by
    refine List.pairwise_mergeSort (fun a b c hab hbc => ?_) (fun a b => ?_) samples
    · exact decide_eq_true (Nat.le_trans (of_decide_eq_true hab) (of_decide_eq_true hbc))
    · rw [Bool.or_eq_true, decide_eq_true_eq, decide_eq_true_eq]
      exact Nat.le_total a.nanos b.nanos
  exact hsorted.imp of_decide_eq_true

theorem ranked_eq_of_perm (h : others.Perm samples) : ranked others = ranked samples := by
  have hperm := (perm_ranked others).trans (h.trans (perm_ranked samples).symm)
  refine hperm.eq_of_pairwise (fun a b _ _ hab hba => ?_) (pairwise_ranked _) (pairwise_ranked _)
  exact Duration.ext (Nat.le_antisymm hab hba)

def nth (samples : List Duration) (i : Nat) : Duration := (ranked samples)[i]?.getD .zero

theorem nth_eq_getElem (h : i < (ranked samples).length) :
    nth samples i = (ranked samples)[i] := by
  rw [nth, List.getElem?_eq_getElem h]
  rfl

theorem getElem?_ranked (h : i < samples.length) :
    (ranked samples)[i]? = some (nth samples i) := by
  have hi : i < (ranked samples).length := by rwa [length_ranked]
  rw [nth_eq_getElem hi, List.getElem?_eq_getElem hi]

theorem nth_mem (h : i < samples.length) : nth samples i ∈ samples :=
  (perm_ranked samples).mem_iff.mp (List.mem_of_getElem? (getElem?_ranked h))

theorem exists_nth (h : d ∈ samples) : ∃ i < samples.length, nth samples i = d := by
  obtain ⟨i, hi, rfl⟩ := List.getElem_of_mem ((perm_ranked samples).mem_iff.mpr h)
  exact ⟨i, length_ranked samples ▸ hi, nth_eq_getElem hi⟩

theorem nth_mono (hij : i ≤ j) (hj : j < samples.length) : nth samples i ≤ nth samples j := by
  rcases Nat.lt_or_eq_of_le hij with hlt | rfl
  · rw [← length_ranked samples] at hj
    rw [nth_eq_getElem (Nat.lt_trans hlt hj), nth_eq_getElem hj]
    exact List.pairwise_iff_getElem.mp (pairwise_ranked samples) i j _ hj hlt
  · exact Nat.le_refl _

theorem nth_zero_le (h : d ∈ samples) : nth samples 0 ≤ d := by
  obtain ⟨i, hi, rfl⟩ := exists_nth h
  exact nth_mono (Nat.zero_le i) hi

theorem le_nth_last (h : d ∈ samples) : d ≤ nth samples (samples.length - 1) := by
  obtain ⟨i, hi, rfl⟩ := exists_nth h
  exact nth_mono (Nat.le_sub_one_of_lt hi) (by omega)

/-- No more than `r` times are less than `d`, and more than `r` are no greater. -/
def AtRank (samples : List Duration) (r : Nat) (d : Duration) : Prop :=
  samples.countP (·.nanos < d.nanos) ≤ r ∧ r < samples.countP (·.nanos ≤ d.nanos)

theorem lt_countP_iff {α : Type} {P : α → Bool} {xs : List α} {x : α}
    (h : xs.Pairwise fun a b => P b = true → P a = true) (hx : xs[i]? = some x) :
    i < xs.countP P ↔ P x = true := by
  induction xs generalizing i with
  | nil => cases hx
  | cons a xs ih =>
    obtain ⟨ha, hxs⟩ := List.pairwise_cons.mp h
    cases hP : P a with
    | true =>
      rw [List.countP_cons_of_pos hP]
      cases i with
      | zero =>
        cases hx
        exact iff_of_true (Nat.succ_pos _) hP
      | succ i => rw [Nat.succ_lt_succ_iff, ih hxs hx]
    | false =>
      -- what stands first lacks the property, so all do
      have hfirst : ¬ P a = true := Bool.eq_false_iff.mp hP
      have hnone : ∀ b ∈ a :: xs, ¬ P b = true :=
        List.forall_mem_cons.mpr ⟨hfirst, fun b hb hPb => hfirst (ha b hb hPb)⟩
      rw [List.countP_eq_zero.mpr hnone]
      exact iff_of_false (Nat.not_lt_zero i) (hnone x (List.mem_of_getElem? hx))

theorem lt_countP_nanos_iff {P : Nat → Prop} [DecidablePred P] (hP : ∀ a b, a ≤ b → P b → P a)
    (h : i < samples.length) :
    i < samples.countP (fun d => P d.nanos) ↔ P (nth samples i).nanos := by
  have hdown : (ranked samples).Pairwise fun a b =>
      decide (P b.nanos) = true → decide (P a.nanos) = true :=
    (pairwise_ranked samples).imp fun hab hb => decide_eq_true (hP _ _ hab (of_decide_eq_true hb))
  rw [← (perm_ranked samples).countP_eq, lt_countP_iff hdown (getElem?_ranked h),
    decide_eq_true_eq]

theorem atRank_iff (h : r < samples.length) : AtRank samples r d ↔ d = nth samples r := by
  have hless := lt_countP_nanos_iff (P := (· < d.nanos)) (fun _ _ => Nat.lt_of_le_of_lt) h
  have hupto := lt_countP_nanos_iff (P := (· ≤ d.nanos)) (fun _ _ => Nat.le_trans) h
  rw [AtRank, ← Nat.not_lt, hless, hupto, Nat.not_lt]
  constructor
  · rintro ⟨hle, hge⟩
    exact Duration.ext (Nat.le_antisymm hle hge)
  · rintro rfl
    exact ⟨Nat.le_refl _, Nat.le_refl _⟩

theorem rank_lt (hn : 0 < n) (hp : p < 100) : rank n p < n := by
  rw [rank, Nat.div_lt_iff_lt_mul (by decide)]
  exact Nat.mul_lt_mul_of_pos_left hp hn

theorem rank_mono (n : Nat) (h : p ≤ q) : rank n p ≤ rank n q :=
  Nat.div_le_div_right (Nat.mul_le_mul_left n h)

theorem mem_reported {p : Fin 256} : p ∈ reported ↔ p = 50 ∨ p = 95 ∨ p = 99 := by
  simp [reported]

theorem lt_of_mem_reported {p : Fin 256} (h : p ∈ reported) : p.val < 100 := by
  rcases mem_reported.mp h with rfl | rfl | rfl <;> decide

theorem entries_ofList_reported (f : Fin 256 → Duration) :
    (Percentiles.ofList (reported.map fun p => (p, f p))).entries =
      reported.map fun p => (p, f p) := rfl

theorem get?_ofList_reported {p : Fin 256} (h : p ∈ reported) (f : Fin 256 → Duration) :
    (Percentiles.ofList (reported.map fun p => (p, f p))).get? p = some (f p) := by
  rw [Percentiles.get?, entries_ofList_reported]
  rcases mem_reported.mp h with rfl | rfl | rfl <;> rfl

def mean (samples : List Duration) : Nat := (samples.map (·.nanos)).sum / samples.length

theorem mean_of_perm (h : others.Perm samples) : mean others = mean samples := by
  rw [mean, (h.map _).sum_eq, h.length_eq, mean]

theorem nth_zero_le_mean (h : 0 < samples.length) : (nth samples 0).nanos ≤ mean samples := by
  have hall : ∀ n ∈ samples.map (·.nanos), (nth samples 0).nanos ≤ n :=
    List.forall_mem_map.mpr fun d hd => nth_zero_le hd
  have hsum := List.card_nsmul_le_sum _ _ hall
  rw [List.length_map, Nat.nsmul_eq_mul, Nat.mul_comm] at hsum
  exact (Nat.le_div_iff_mul_le h).mpr hsum

theorem mean_le_nth_last (samples : List Duration) :
    mean samples ≤ (nth samples (samples.length - 1)).nanos := by
  have hall : ∀ n ∈ samples.map (·.nanos), n ≤ (nth samples (samples.length - 1)).nanos :=
    List.forall_mem_map.mpr fun d hd => le_nth_last hd
  have hsum := List.sum_le_card_nsmul _ _ hall
  rw [List.length_map, Nat.nsmul_eq_mul] at hsum
  exact Nat.div_le_of_le_mul hsum

theorem ofSamples_of_pos (h : 0 < samples.length) :
    ofSamples samples =
      { min := nth samples 0
        avg := .ofLow64 (mean samples)
        max := nth samples (samples.length - 1)
        percentiles :=
          .ofList (reported.map fun p => (p, nth samples (rank samples.length p))) } := by
  have hne : ¬ samples.isEmpty = true := by
    rw [List.isEmpty_iff, ← List.length_eq_zero_iff]
    exact Nat.ne_of_gt h
  exact if_neg hne

theorem ofSamples_of_perm (h : others.Perm samples) : ofSamples others = ofSamples samples := by
  rcases Nat.eq_zero_or_pos samples.length with hnone | hsome
  · have hnil := List.length_eq_zero_iff.mp hnone
    subst hnil
    rw [h.eq_nil]
  · have hnth : nth others = nth samples := by
      funext i
      rw [nth, ranked_eq_of_perm h, nth]
    rw [ofSamples_of_pos hsome, ofSamples_of_pos (h.length_eq ▸ hsome), mean_of_perm h, hnth,
      h.length_eq]

def ofSamples? (samples : List Duration) : Option Latency :=
  if samples.isEmpty then some zero
  else do
    let least ← (ranked samples)[0]?
    let greatest ← (ranked samples)[samples.length - 1]?
    let percentiles ← reported.mapM fun p : Fin 256 =>
      ((ranked samples)[rank samples.length p]?).map (p, ·)
    return ⟨least, .ofLow64 (mean samples), greatest, .ofList percentiles⟩

theorem ofSamples?_eq (samples : List Duration) :
    ofSamples? samples = some (ofSamples samples) := by
  rcases Nat.eq_zero_or_pos samples.length with hnone | hsome
  · rw [List.length_eq_zero_iff.mp hnone]
    rfl
  · have hne : ¬ samples.isEmpty = true := by
      rw [List.isEmpty_iff_length_eq_zero]
      exact Nat.ne_of_gt hsome
    have hpercentiles : (reported.mapM fun p : Fin 256 =>
        ((ranked samples)[rank samples.length p]?).map (p, ·)) =
          some (reported.map fun p : Fin 256 => (p, nth samples (rank samples.length p))) := by
      refine mapM_eq_some fun p hp => ?_
      rw [getElem?_ranked (rank_lt hsome (lt_of_mem_reported hp)), Option.map_some]
    rw [ofSamples?, if_neg hne, ofSamples_of_pos hsome, getElem?_ranked hsome,
      getElem?_ranked (Nat.sub_one_lt_of_lt hsome), hpercentiles]
    rfl

/-- What statistics say of the times that they are made from. -/
structure Describes (l : Latency) (samples : List Duration) : Prop where
  min_mem : l.min ∈ samples
  min_le : ∀ d ∈ samples, l.min ≤ d
  max_mem : l.max ∈ samples
  le_max : ∀ d ∈ samples, d ≤ l.max
  percentile : ∀ p ∈ reported, ∃ v ∈ samples, l.percentiles.get? p = some v ∧
    ∀ d, AtRank samples (samples.length * p / 100) d ↔ d = v
  ordered : ∃ p99, l.percentiles.entries = [(50, l.p50), (95, l.p95), (99, p99)] ∧
    l.min ≤ l.p50 ∧ l.p50 ≤ l.p95 ∧ l.p95 ≤ p99 ∧ p99 ≤ l.max
  avg : l.avg.nanos = mean samples % 2 ^ 64
  between : mean samples < 2 ^ 64 → l.min ≤ l.avg ∧ l.avg ≤ l.max

theorem describes_ofSamples (h : 0 < samples.length) : (ofSamples samples).Describes samples := by
  have hlast : samples.length - 1 < samples.length := Nat.sub_one_lt_of_lt h
  have hrank {p : Nat} (hp : p < 100) : rank samples.length p < samples.length := rank_lt h hp
  rw [ofSamples_of_pos h]
  refine ⟨nth_mem h, fun d => nth_zero_le, nth_mem hlast, fun d => le_nth_last, fun p hp => ?_, ?_,
    rfl, fun hmean => ?_⟩
  · have hr := hrank (lt_of_mem_reported hp)
    exact ⟨_, nth_mem hr, get?_ofList_reported hp fun p => nth samples (rank samples.length p),
      fun d => atRank_iff hr⟩
  · refine ⟨_, rfl, nth_zero_le (nth_mem (hrank (by decide))), ?_, ?_,
      le_nth_last (nth_mem (hrank (by decide)))⟩
    · exact nth_mono (rank_mono _ (by decide)) (hrank (by decide))
    · exact nth_mono (rank_mono _ (by decide)) (hrank (by decide))
  · have havg : (Duration.ofLow64 (mean samples)).nanos = mean samples := Nat.mod_eq_of_lt hmean
    constructor
    · exact Nat.le_trans (nth_zero_le_mean h) (Nat.le_of_eq havg.symm)
    · exact Nat.le_trans (Nat.le_of_eq havg) (mean_le_nth_last samples)

/-- The statistics of some times can always be worked out, and say where the times stand: the least
and the greatest, the percentiles at their ranks, and the low 64 bits of the mean. The order of the
times makes no difference. -/
theorem statistics_describe_samples (h : samples ≠ []) :
    ofSamples? samples = some (ofSamples samples) ∧ (ofSamples samples).Describes samples ∧
      ∀ others : List Duration, others.Perm samples → ofSamples others = ofSamples samples :=
  ⟨ofSamples?_eq samples, describes_ofSamples (List.length_pos_iff.mpr h),
    fun _ => ofSamples_of_perm⟩

def sampleTimes : List Duration :=
  [⟨7, by decide⟩, ⟨2 ^ 66, by decide⟩, ⟨7, by decide⟩, ⟨7, by decide⟩]

/-- The mean that is shown is less than every time. -/
theorem statistics_describe_samples_overlong :
    sampleTimes ≠ [] ∧ (ofSamples sampleTimes).Describes sampleTimes ∧
      ofSamples sampleTimes.reverse = ofSamples sampleTimes ∧
      (ofSamples sampleTimes).avg.nanos < (ofSamples sampleTimes).min.nanos := by
  have hne : sampleTimes ≠ [] := by decide
  have hleast : ∀ d ∈ sampleTimes, mean sampleTimes % 2 ^ 64 < d.nanos := by decide
  obtain ⟨-, hdescribes, hperm⟩ := statistics_describe_samples hne
  refine ⟨hne, hdescribes, hperm _ (List.reverse_perm _), ?_⟩
  rw [hdescribes.avg]
  exact hleast _ hdescribes.min_mem

end StorageTrials.Latency

import StorageTrials.Proofs.Turns

namespace StorageTrials

open Invocation Runner Text

namespace Line

def isRecord (l : Line) : Bool := l.record?.isSome

def column (l : Line) (n : Nat) : String := l.texts.getD n ""

def shownKey (l : Line) : String × String := (l.column 0, l.column 1)

def shownSize (l : Line) : Nat := digitsValue 0 (l.column 2).toList

theorem filter_isRecord (ls : List Line) :
    ls.filter isRecord = (ls.filterMap record?).map record := by
  induction ls with
  | nil => rfl
  | cons l ls ih =>
    cases l with
    | columns texts => exact ih
    | record r => exact congrArg (record r :: ·) ih

end Line

def shown (k : GroupKey) : String × String := (k.1, k.2.name)

theorem shown_injective : Function.Injective shown := by
  rintro ⟨f, op⟩ ⟨f', op'⟩ h
  obtain ⟨hf, hop⟩ := Prod.mk.inj h
  have hsome := congrArg Operation.ofName? hop
  rw [Operation.ofName?_name, Operation.ofName?_name] at hsome
  exact Prod.ext hf (Option.some.inj hsome)

theorem shownSize_record (r : Record) : (Line.record r).shownSize = r.size := by
  change digitsValue 0 (decimal r.size).toList = r.size
  rw [decimal, String.toList_ofList, digitsValue_digits]

/-- A summary lists what the rows show. -/
structure RunnerSummary.Lists (u : RunnerSummary) (rows : List Line) : Prop where
  keys : u.groups.map (fun g => shown g.key) = (rows.map Line.shownKey).eraseDups
  nodup : (u.groups.map fun g => shown g.key).Nodup
  trials : ∀ g ∈ u.groups, g.trials = (rows.filter (·.shownKey = shown g.key)).length
  bytes : ∀ g ∈ u.groups,
    g.bytes = ((rows.filter (·.shownKey = shown g.key)).map Line.shownSize).sum
  total : u.totalTrials = rows.length

section groups

variable {rs : List Record} {u : RunnerSummary} {name : String} {completed : Bool}

theorem filter_shownKey (rs : List Record) (k : GroupKey) :
    (rs.map Line.record).filter (·.shownKey = shown k) = (recordsOf rs k).map Line.record := by
  rw [List.filter_map, recordsOf]
  refine congrArg _ (List.filter_congr fun r _ => ?_)
  exact decide_eq_decide.mpr (shown_injective.eq_iff (a := r.key))

theorem lists_of_ofRecords? (h : RunnerSummary.ofRecords? name completed rs = some u) :
    u.Lists (rs.map Line.record) := by
  have hshown : u.groups.map (fun g => shown g.key) = (keysOf rs).map shown := by
    rw [← keys_of_ofRecords? h, List.map_map]
    rfl
  refine ⟨?_, ?_, fun g hg => ?_, fun g hg => ?_, ?_⟩
  · rw [hshown, keysOf, ← eraseDups_map shown_injective, List.map_map, List.map_map]
    rfl
  · rw [hshown]
    exact (nodup_keysOf rs).map shown_injective
  · rw [filter_shownKey, List.length_map, (sums_of_mem h hg).1]
  · have hsize : Line.shownSize ∘ Line.record = Record.size := funext shownSize_record
    rw [filter_shownKey, List.map_map, hsize, (sums_of_mem h hg).2]
  · rw [totalTrials_of_ofRecords? h, List.length_map]

end groups

section printed

variable {σ : Type} {answer : (r : Request) → StateM σ r.Answer} {w : σ}
variable {ms ns : List (Moment σ)} {started : List (Stage σ)} {rest : List Runner} {s : Settings}

theorem quiet_of_isReport {r : Request} (h : r.IsReport) : Quiet r := by
  cases r with
  | report event => trivial
  | _ => cases h

theorem Reports.linesOf (h : Reports ms) : linesOf ms = [] :=
  linesOf_quiet fun m hm => quiet_of_isReport (h m hm)

theorem Turns.linesOf (h : Turns answer started rest ms) :
    linesOf ms = started.flatMap fun g => StorageTrials.linesOf (g.moments answer) := by
  induction h with
  | «over» => rfl
  | started w w₁ hgap h ih =>
    rw [linesOf_append, linesOf_append, linesOf_cons, hgap.linesOf, ih, List.append_nil]
    rfl
  | passed w w₁ hgap h ih =>
    rw [linesOf_append, linesOf_cons, hgap.linesOf, ih]
    rfl

theorem Turns.mem {g : Stage σ} {m : Moment σ} (h : Turns answer started rest ms)
    (hg : g ∈ started) (hm : m ∈ g.moments answer) : m ∈ ms := by
  induction h with
  | «over» => cases hg
  | started w w₁ hgap h ih =>
    rcases List.mem_cons.mp hg with rfl | hg
    · simp [hm]
    · exact List.mem_append_right _ (ih hg)
  | passed w w₁ hgap h ih => cases hg

theorem Closes.linesOf (h : Closes answer s started ms) : linesOf ms = [] := by
  refine linesOf_quiet fun m hm => ?_
  cases hsaved : m.saved? with
  | none => exact quiet_of_isReport (h.others m hm hsaved)
  | some p =>
    obtain ⟨u, r, a, u'⟩ := m
    cases r with
    | saveText path text => trivial
    | _ => cases hsaved

variable (answer) in
/-- A summary tells of a runner, and lists the rows that it printed. -/
structure Tells (g : Stage σ) (u : RunnerSummary) : Prop where
  runner : u.runner = g.runner.backend.name
  completed : u.completed = g.completed answer
  lists : u.Lists ((linesOf (g.moments answer)).filter Line.isRecord)

theorem tells_of_summary? {g : Stage σ} {u : RunnerSummary}
    (hsink : ∀ m ∈ g.moments answer, m.Printed) (h : g.summary? answer = some u) :
    Tells answer g u where
  runner := Stage.runner_of_summary? h
  completed := Stage.completed_of_summary? h
  lists := by
    rw [Line.filter_isRecord, ← rowsOf, ← recordsIn_of_printed hsink]
    exact lists_of_ofRecords? ((g.summary?_eq_ofRecords? answer).symm.trans h)

theorem tells_of_summaries {us : List RunnerSummary}
    (hsink : ∀ g ∈ started, ∀ m ∈ g.moments answer, m.Printed)
    (h : started.map (Stage.summary? answer) = us.map some) :
    List.Forall₂ (Tells answer) started us := by
  induction started generalizing us with
  | nil =>
    cases us with
    | nil => exact .nil
    | cons u us => cases h
  | cons g started ih =>
    cases us with
    | nil => cases h
    | cons u us =>
      obtain ⟨hu, hus⟩ := List.cons.inj h
      obtain ⟨hg, hrest⟩ := List.forall_mem_cons.mp hsink
      exact .cons (tells_of_summary? hg hu) (ih hrest hus)

theorem countP_completed {us : List RunnerSummary} (h : List.Forall₂ (Tells answer) started us) :
    us.countP (·.completed) = started.countP (Stage.completed answer) := by
  induction h with
  | nil => rfl
  | cons hg _ ih => rw [List.countP_cons, List.countP_cons, ih, hg.completed]

theorem misses_add_length {us : List RunnerSummary} {runners : List Runner}
    (hrunners : runners = started.map (·.runner) ++ rest)
    (h : List.Forall₂ (Tells answer) started us) :
    ((misses answer started + rest.length : Nat) : Int) =
      (runners.length : Int) - (us.countP (·.completed) : Int) := by
  have hlength : started.length =
      started.countP (Stage.completed answer) + misses answer started := by
    rw [List.length_eq_countP_add_countP (Stage.completed answer), misses]
    simp only [Bool.not_eq_true, Bool.decide_eq_false]
  rw [hrunners, List.length_append, List.length_map, hlength, countP_completed h]
  omega

/-- Unless an invocation may not run, what is printed after the statistics have been opened is what
the runners print that are started, and the summary lists for each of them what its rows show. The
code is the number of runners less those that completed according to the summary. -/
theorem summaries_match_stream (hlasting : Lasting answer) {i : Invocation}
    (hs : i.settings = some s) (runners : List Runner) (w : σ)
    (hsink : ∀ m ∈ (i.runWith runners).run.moments answer w, m.Printed) :
    (Refused answer s runners w ∧
      (i.runWith runners).run.result answer w = some (notRunnable, ⟨some s, .done⟩)) ∨
    ∃ started rest turns closing, runners = started.map (·.runner) ++ rest ∧
      (i.runWith runners).run.moments answer w =
        opening answer s runners w ++ turns ++ closing ∧
      linesOf (turns ++ closing) = started.flatMap (fun g => linesOf (g.moments answer)) ∧
      (((∃ g ∈ started, ¬ Fits (recordsIn (g.moments answer))) ∧
          (i.runWith runners).run.result answer w = none) ∨
        ∃ t summaries, List.Forall₂ (Tells answer) started summaries ∧
          closing.filterMap Moment.saved? =
            (s.summaryPath.map fun path =>
              (path, Summary.written ⟨t, s.loopCount, summaries⟩)).toList ∧
          (i.runWith runners).run.result answer w =
            some ((runners.length : Int) - (summaries.countP (·.completed) : Int),
              ⟨some s, .done⟩)) := by
  by_cases hrefused : Refused answer s runners w
  · obtain ⟨tail, w', -, hpasses⟩ := passes_refused hrefused
    exact .inl ⟨hrefused, (passes_runWith hs hpasses).result⟩
  · obtain ⟨started, rest, hserves⟩ := exists_serves hlasting hs hrefused
    refine .inr ⟨started, rest, ?_⟩
    by_cases hfits : ∀ g ∈ started, Fits (recordsIn (g.moments answer))
    · obtain ⟨hresult, turns, closing, hturns, hcloses, hmoments⟩ := hserves.completes hfits
      obtain ⟨t, summaries, hsummaries, -, hsaved⟩ := hcloses.saved
      have htells : List.Forall₂ (Tells answer) started summaries := by
        refine tells_of_summaries (fun g hg m hm => hsink m ?_) hsummaries
        rw [hmoments]
        exact List.mem_append_left _ (List.mem_append_right _ (hturns.mem hg hm))
      refine ⟨turns, closing, hserves.order, hmoments, ?_,
        .inr ⟨t, summaries, htells, hsaved, ?_⟩⟩
      · rw [linesOf_append, hturns.linesOf, hcloses.linesOf, List.append_nil]
      · rw [hresult, misses_add_length hserves.order htells]
    · have hover : ∃ g ∈ started, ¬ Fits (recordsIn (g.moments answer)) := by simpa using hfits
      obtain ⟨hresult, turns, hturns, hmoments⟩ := hserves.overflows hover
      refine ⟨turns, [], hserves.order, ?_, ?_, .inl ⟨hover, hresult⟩⟩
      · rw [hmoments, List.append_nil]
      · rw [List.append_nil, hturns.linesOf]

end printed

theorem summaries_match_stream_cancelled :
    (∀ m ∈ ((idle.configure sampleSettings).runWith sampleRunners).run.moments Surroundings.answer
        (.calm sampleFiles), m.Printed) ∧
      ((idle.configure sampleSettings).runWith sampleRunners).run.result Surroundings.answer
        (.calm sampleFiles) = some (2, ⟨some sampleSettings, .done⟩) ∧
      ∃ started summaries, List.Forall₂ (Tells Surroundings.answer) started summaries ∧
        summaries.countP (·.completed) = 1 := by
  have hsink : ∀ m ∈ ((idle.configure sampleSettings).runWith sampleRunners).run.moments
      Surroundings.answer (.calm sampleFiles), m.Printed := by decide +kernel
  have hresult : ((idle.configure sampleSettings).runWith sampleRunners).run.result
      Surroundings.answer (.calm sampleFiles) = some (2, ⟨some sampleSettings, .done⟩) := by
    decide +kernel
  refine ⟨hsink, hresult, ?_⟩
  obtain ⟨-, hrefused⟩ | ⟨started, rest, turns, closing, -, -, -, ⟨-, hnone⟩ |
      ⟨t, summaries, htells, -, hcode⟩⟩ := summaries_match_stream Surroundings.lasting_answer
    (i := idle.configure sampleSettings) rfl sampleRunners (.calm sampleFiles) hsink
  · cases hresult.symm.trans hrefused
  · cases hresult.symm.trans hnone
  · have heq : (2 : Int) = (sampleRunners.length : Int) - (summaries.countP (·.completed) : Int) :=
      congrArg Prod.fst (Option.some.inj (hresult.symm.trans hcode))
    have hlength : sampleRunners.length = 3 := rfl
    exact ⟨started, summaries, htells, by omega⟩

end StorageTrials

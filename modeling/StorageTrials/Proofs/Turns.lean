import StorageTrials.Invocation
import StorageTrials.Proofs.Answers
import StorageTrials.Proofs.RowAccounting
import StorageTrials.Proofs.Stream
import StorageTrials.Runner.Scripted

namespace StorageTrials

open Invocation Runner

variable {σ α : Type} {answer : (r : Request) → StateM σ r.Answer}
variable {w w₁ : σ} {ms ns : List (Moment σ)} {s : Settings}

/-- A runner with the state in which it is asked to act. -/
structure Stage (σ : Type) where
  runner : Runner
  state : σ

namespace Stage

variable (answer) (g : Stage σ)

def Refuses : Prop := g.runner.check.dialogue.result answer g.state ≠ .ok ()

def moments : List (Moment σ) := (g.runner.run .empty).moments answer g.state

def result : Option (Tally × Except Fault Bool) := (g.runner.run .empty).result answer g.state

def completed : Bool := decide ((g.result answer).map (·.2) = some (.ok true))

def summary? : Option RunnerSummary :=
  (g.result answer).bind fun r => r.1.summary? g.runner.backend.name (g.completed answer)

theorem summary?_eq_ofRecords? :
    g.summary? answer = RunnerSummary.ofRecords? g.runner.backend.name (g.completed answer)
      (recordsIn (g.moments answer)) := by
  have htally : (g.result answer).map (·.1) = Tally.ofRecords? (recordsIn (g.moments answer)) :=
    g.runner.session.dialogue.map_result_tallied .empty g.state
  rw [RunnerSummary.ofRecords?, ← htally, summary?]
  cases g.result answer <;> rfl

variable {answer g} {u : RunnerSummary}

theorem completed_of_summary? (h : g.summary? answer = some u) :
    u.completed = g.completed answer :=
  completed_ofRecords? ((g.summary?_eq_ofRecords? answer).symm.trans h)

theorem runner_of_summary? (h : g.summary? answer = some u) : u.runner = g.runner.backend.name :=
  runner_ofRecords? ((g.summary?_eq_ofRecords? answer).symm.trans h)

end Stage

def Reports (ms : List (Moment σ)) : Prop := ∀ m ∈ ms, m.request.IsReport

theorem Reports.nil : Reports ([] : List (Moment σ)) := List.forall_mem_nil _

theorem Reports.append (h : Reports ms) (h' : Reports ns) : Reports (ms ++ ns) :=
  List.forall_mem_append.mpr ⟨h, h'⟩

variable (answer) in
theorem Dialogue.Asks.passes {d : Dialogue α} (hd : d.Asks Request.IsReport) (w : σ) :
    ∃ gap w', Reports gap ∧ d.Passes answer w gap (d.result answer w) w' :=
  ⟨_, _, kind_of_mem_moments answer hd w, .whole answer d w⟩

variable (answer) in
theorem passes_report (event : Event) (w : σ) :
    ∃ gap w', Reports gap ∧ (Ask.report event).Passes answer w gap () w' :=
  Dialogue.Asks.passes answer (d := Ask.report event) ⟨trivial, fun _ => trivial⟩ w

theorem asks_reportGroups (runner : String) (gs : List GroupSummary) :
    (reportGroups runner gs).Asks Request.IsReport := by
  induction gs with
  | nil => trivial
  | cons g gs ih => exact ⟨trivial, fun _ => ih⟩

theorem asks_judge (backend : Backend) (result : Except Fault Bool) :
    (judge backend result).Asks Request.IsReport := by
  rcases result with f | (_ | _) <;> exact ⟨trivial, fun _ => trivial⟩

theorem result_judge (backend : Backend) (result : Except Fault Bool) (w : σ) :
    (judge backend result).result answer w = decide (result = .ok true) := by
  rcases result with f | (_ | _) <;> rfl

variable (answer) in
theorem passes_runOne (r : Runner) (w : σ) :
    ∃ gap w', Reports gap ∧
      (runOne r).run.Passes answer w (Stage.moments answer ⟨r, w⟩ ++ gap)
        (Stage.summary? answer ⟨r, w⟩) w' := by
  have hrun := Dialogue.Passes.whole answer (r.run .empty) w
  change (r.run .empty).Passes answer w _ (Stage.result answer ⟨r, w⟩) _ at hrun
  cases hresult : Stage.result answer ⟨r, w⟩ with
  | none =>
    rw [hresult] at hrun
    refine ⟨[], (r.run .empty).final answer w, .nil, ?_⟩
    rw [List.append_nil, Stage.summary?, hresult]
    exact .option_stop hrun
  | some ended =>
    obtain ⟨t, result⟩ := ended
    rw [hresult] at hrun
    obtain ⟨gap, w₁, hgap, hjudge⟩ := (asks_judge r.backend result).passes answer
      ((r.run .empty).final answer w)
    have hcompleted : Stage.completed answer ⟨r, w⟩ = decide (result = .ok true) := by
      rw [Stage.completed, hresult]
      exact decide_eq_decide.mpr Option.some_inj
    rw [result_judge, ← hcompleted] at hjudge
    have hsummary : Stage.summary? answer ⟨r, w⟩ =
        t.summary? r.backend.name (Stage.completed answer ⟨r, w⟩) := by
      rw [Stage.summary?, hresult]
      rfl
    rw [hsummary]
    cases hs : t.summary? r.backend.name (Stage.completed answer ⟨r, w⟩) with
    | none =>
      refine ⟨gap ++ [], w₁, hgap.append .nil, ?_⟩
      exact .option_bind hrun (hjudge.option_lift (.option_stop ⟨rfl, hs, rfl⟩))
    | some summary =>
      obtain ⟨gap', w₂, hgap', hreport⟩ :=
        (asks_reportGroups summary.runner summary.groups).passes answer w₁
      refine ⟨gap ++ ([] ++ (gap' ++ [])), w₂, hgap.append (hgap'.append .nil), ?_⟩
      have hsummed : (OptionT.mk (.done (t.summary? r.backend.name
          (Stage.completed answer ⟨r, w⟩))) : OptionT Dialogue RunnerSummary).run.Passes answer w₁
            [] (some summary) w₁ :=
        ⟨rfl, hs, rfl⟩
      exact .option_bind hrun
        (hjudge.option_lift (hsummed.option_bind (hreport.option_lift .done)))

variable (answer) in
/-- A run that is cancelled stays cancelled. -/
def Lasting : Prop :=
  ∀ (r : Request) (w : σ), ((answer .isCancelled).run w).1 = true →
    ((answer .isCancelled).run ((answer r).run w).2).1 = true

variable (answer) in
/-- Some runners are started one after the other, each when the run is not cancelled and the one
before has ended; when the turn of the others comes, the run is cancelled. -/
inductive Turns : List (Stage σ) → List Runner → List (Moment σ) → Prop
  | over : Turns [] [] []
  | started (w w₁ : σ) {r : Runner} {gap ms : List (Moment σ)} {started : List (Stage σ)}
      {rest : List Runner} (hgap : Reports gap) (h : Turns started rest ms) :
      Turns (⟨r, w₁⟩ :: started) rest
        (⟨w, .isCancelled, false, w₁⟩ :: Stage.moments answer ⟨r, w₁⟩ ++ gap ++ ms)
  | passed (w w₁ : σ) {r : Runner} {gap ms : List (Moment σ)} {rest : List Runner}
      (hgap : Reports gap) (h : Turns [] rest ms) :
      Turns [] (r :: rest) (⟨w, .isCancelled, true, w₁⟩ :: gap ++ ms)

theorem of_isCancelled {b : Bool} (hw : ((answer .isCancelled).run w).1 = b) :
    Moment.of answer .isCancelled w =
      ⟨w, .isCancelled, b, ((answer .isCancelled).run w).2⟩ := by
  rw [Moment.of, hw]

theorem passes_cancelled (hlasting : Lasting answer) (rs : List Runner) (failed : Nat)
    (summaries : List RunnerSummary) (hw : ((answer .isCancelled).run w).1 = true) :
    ∃ ms w', Turns answer [] rs ms ∧
      (runEach rs failed summaries).run.Passes answer w ms
        (some (failed + rs.length, summaries)) w' := by
  induction rs generalizing failed w with
  | nil => exact ⟨[], w, .over, .done⟩
  | cons r rs ih =>
    have hasked := hlasting .isCancelled w hw
    have hreported := hlasting (.report (.cancelledBeforeStart r.backend)) _ hasked
    obtain ⟨ms, w', hturns, hrest⟩ := ih (failed + 1) hreported
    have hgap : Reports [Moment.of answer (.report (.cancelledBeforeStart r.backend))
        ((answer .isCancelled).run w).2] := List.forall_mem_singleton.mpr trivial
    refine ⟨_, w', .passed w ((answer .isCancelled).run w).2 hgap hturns, ?_⟩
    rw [← of_isCancelled hw, runEach, List.length_cons, Nat.add_comm rs.length, ← Nat.add_assoc]
    refine .option_ask ?_
    rw [hw]
    exact .option_ask hrest

section turn

variable {r : Runner} {rs : List Runner} {failed : Nat} {summaries : List RunnerSummary}

/-- A runner whose totals leave their range is the last one. -/
theorem passes_stop (hw : ((answer .isCancelled).run w).1 = false)
    (hnone : Stage.summary? answer ⟨r, ((answer .isCancelled).run w).2⟩ = none) :
    ∃ ms w', Turns answer [⟨r, ((answer .isCancelled).run w).2⟩] [] ms ∧
      (runEach (r :: rs) failed summaries).run.Passes answer w ms none w' := by
  obtain ⟨gap, w₁, hgap, hone⟩ := passes_runOne answer r ((answer .isCancelled).run w).2
  rw [hnone] at hone
  refine ⟨_, w₁, .started w _ hgap .over, ?_⟩
  rw [List.append_nil, ← of_isCancelled hw, runEach]
  refine .option_ask ?_
  rw [hw]
  exact hone.option_stop

theorem passes_next {summary : RunnerSummary} (hw : ((answer .isCancelled).run w).1 = false)
    (hsome : Stage.summary? answer ⟨r, ((answer .isCancelled).run w).2⟩ = some summary) :
    ∃ turn w₁,
      (∀ started rest ms, Turns answer started rest ms →
        Turns answer (⟨r, ((answer .isCancelled).run w).2⟩ :: started) rest (turn ++ ms)) ∧
      ∀ ms result w',
        (runEach rs (if summary.completed then failed else failed + 1)
          (summaries ++ [summary])).run.Passes answer w₁ ms result w' →
        (runEach (r :: rs) failed summaries).run.Passes answer w (turn ++ ms) result w' := by
  obtain ⟨gap, w₁, hgap, hone⟩ := passes_runOne answer r ((answer .isCancelled).run w).2
  rw [hsome] at hone
  refine ⟨_, w₁, fun started rest ms h => .started w _ hgap h, fun ms result w' hrest => ?_⟩
  rw [← of_isCancelled hw, runEach]
  refine .option_ask ?_
  rw [hw]
  exact hone.option_bind hrest

variable (answer) in
def misses (started : List (Stage σ)) : Nat := started.countP fun g => !g.completed answer

theorem add_misses_cons (failed : Nat) (g : Stage σ) (started : List (Stage σ)) :
    failed + misses answer (g :: started) =
      (if g.completed answer then failed else failed + 1) + misses answer started := by
  rw [misses, List.countP_cons, misses]
  cases g.completed answer with
  | true => simp
  | false =>
    simp
    omega

theorem passes_runEach (hlasting : Lasting answer) (rs : List Runner) (failed : Nat)
    (summaries : List RunnerSummary) (w : σ) :
    ∃ started rest ms w', rs = started.map (·.runner) ++ rest ∧
      ((∃ new, started.map (Stage.summary? answer) = new.map some ∧ Turns answer started rest ms ∧
        (runEach rs failed summaries).run.Passes answer w ms
          (some (failed + misses answer started + rest.length, summaries ++ new)) w') ∨
      ((∃ g ∈ started, g.summary? answer = none) ∧ Turns answer started [] ms ∧
        (runEach rs failed summaries).run.Passes answer w ms none w')) := by
  induction rs generalizing failed summaries w with
  | nil =>
    refine ⟨[], [], [], w, rfl, .inl ⟨[], rfl, .over, ?_⟩⟩
    rw [List.append_nil]
    exact .done
  | cons r rs ih =>
    cases hw : ((answer .isCancelled).run w).1 with
    | true =>
      obtain ⟨ms, w', hturns, hpasses⟩ := passes_cancelled hlasting (r :: rs) failed summaries hw
      refine ⟨[], r :: rs, ms, w', rfl, .inl ⟨[], rfl, hturns, ?_⟩⟩
      rw [List.append_nil]
      exact hpasses
    | false =>
      let g : Stage σ := ⟨r, ((answer .isCancelled).run w).2⟩
      cases hsummary : g.summary? answer with
      | none =>
        obtain ⟨ms, w', hturns, hpasses⟩ := passes_stop hw hsummary
        exact ⟨[g], rs, ms, w', rfl,
          .inr ⟨⟨g, List.mem_singleton_self g, hsummary⟩, hturns, hpasses⟩⟩
      | some summary =>
        obtain ⟨turn, w₁, hturn, hnext⟩ := passes_next hw hsummary
        obtain ⟨started, rest, ms, w', hrs, hrest⟩ :=
          ih (if summary.completed then failed else failed + 1) (summaries ++ [summary]) w₁
        refine ⟨g :: started, rest, turn ++ ms, w', congrArg (r :: ·) hrs, ?_⟩
        rcases hrest with ⟨new, hnew, hturns, hpasses⟩ | ⟨⟨g', hg', hnone⟩, hturns, hpasses⟩
        · refine .inl ⟨summary :: new, ?_, hturn started _ ms hturns, ?_⟩
          · rw [List.map_cons, List.map_cons, hsummary, hnew]
          · have hcompleted : summary.completed = g.completed answer :=
              Stage.completed_of_summary? hsummary
            rw [add_misses_cons, ← hcompleted, List.append_cons]
            exact hnext ms _ w' hpasses
        · refine .inr ⟨⟨g', List.mem_cons_of_mem g hg', hnone⟩, hturn started _ ms hturns, ?_⟩
          exact hnext ms _ w' hpasses

end turn

variable (answer) in
/-- The runners with the states in which they are checked, as long as those before may start. -/
def checks : List Runner → σ → List (Stage σ)
  | [], _ => []
  | r :: rs, w => ⟨r, w⟩ :: checks rs (r.isRunnable.final answer w)

theorem result_isRunnable (r : Runner) (w : σ) :
    r.isRunnable.result answer w = true ↔ ¬ Stage.Refuses answer ⟨r, w⟩ := by
  rw [Stage.Refuses, not_not, Runner.isRunnable]
  change (r.check.dialogue.bind _).result answer w = true ↔ _
  rw [Dialogue.result_bind]
  cases r.check.dialogue.result answer w with
  | ok _ => exact iff_of_true rfl rfl
  | error e => exact iff_of_false Bool.false_ne_true nofun

theorem result_areRunnable (rs : List Runner) (w : σ) :
    (areRunnable rs).result answer w = true ↔ ∀ g ∈ checks answer rs w, ¬ g.Refuses answer := by
  induction rs generalizing w with
  | nil => exact iff_of_true rfl (List.forall_mem_nil _)
  | cons r rs ih =>
    rw [checks, List.forall_mem_cons, ← result_isRunnable, ← ih]
    change (r.isRunnable.bind _).result answer w = true ↔ _
    rw [Dialogue.result_bind]
    cases r.isRunnable.result answer w with
    | true => exact (and_iff_right rfl).symm
    | false => exact iff_of_false Bool.false_ne_true fun h => Bool.false_ne_true h.1

variable (answer) in
/-- No runner is started: there is none, one of them may not start, or the statistics cannot be
opened. -/
def Refused (s : Settings) (runners : List Runner) (w : σ) : Prop :=
  runners = [] ∨ (∃ g ∈ checks answer runners w, g.Refuses answer) ∨
    ∃ e, ((answer (.openOutput s.outfile)).run ((areRunnable runners).final answer w)).1 = .error e

def Request.Opens : Request → Prop
  | .openOutput _ | .report _ => True
  | _ => False

theorem opens_of_isReport {r : Request} (h : r.IsReport) : r.Opens := by
  cases r <;> trivial

theorem passes_refused {rs : List Runner} (h : Refused answer s rs w) :
    ∃ tail w', (∀ m ∈ tail, m.request.Opens) ∧
      (execute s rs).run.Passes answer w ((areRunnable rs).moments answer w ++ tail)
        (some notRunnable) w' := by
  cases rs with
  | nil =>
    have hpasses : (execute s []).run.Passes answer w [.of answer (.report .noRunner) w]
        (some notRunnable) ((answer (.report .noRunner)).run w).2 := .option_ask .done
    exact ⟨[.of answer (.report .noRunner) w], _, List.forall_mem_singleton.mpr trivial, hpasses⟩
  | cons r rs =>
    have hchecked := Dialogue.Passes.whole answer (areRunnable (r :: rs)) w
    cases hrunnable : (areRunnable (r :: rs)).result answer w with
    | false =>
      rw [hrunnable] at hchecked
      exact ⟨[], _, List.forall_mem_nil _, hchecked.option_lift .done⟩
    | true =>
      rw [hrunnable] at hchecked
      rcases h with hnil | ⟨g, hg, hrefuses⟩ | ⟨e, he⟩
      · exact absurd hnil (List.cons_ne_nil r rs)
      · exact absurd hrefuses ((result_areRunnable _ w).mp hrunnable g hg)
      · obtain ⟨gap, w', hgap, hreport⟩ := passes_report answer
          (.cannotOpenOutput (.system e)) ((answer (.openOutput s.outfile)).run
            ((areRunnable (r :: rs)).final answer w)).2
        refine ⟨.of answer (.openOutput s.outfile) _ :: (gap ++ []), w', ?_,
          hchecked.option_lift (.option_ask ?_)⟩
        · rw [List.append_nil]
          exact List.forall_mem_cons.mpr ⟨trivial, fun m hm => opens_of_isReport (hgap m hm)⟩
        · rw [he]
          exact hreport.option_lift .done

def Moment.saved? (m : Moment σ) : Option (String × String) :=
  match m.request with
  | .saveText path text => some (path, text)
  | _ => none

variable (answer) in
/-- Nothing is saved but the summary of the runners that were started, if it has a path. -/
structure Closes (s : Settings) (started : List (Stage σ)) (ms : List (Moment σ)) : Prop where
  saved : ∃ t summaries, started.map (Stage.summary? answer) = summaries.map some ∧
    summaries.map (fun u => (u.runner, u.completed)) =
      started.map (fun g => (g.runner.backend.name, g.completed answer)) ∧
    ms.filterMap Moment.saved? =
      (s.summaryPath.map fun path => (path, Summary.written ⟨t, s.loopCount, summaries⟩)).toList
  others : ∀ m ∈ ms, m.saved? = none → m.request.IsReport

theorem listed_of_summaries {started : List (Stage σ)} {summaries : List RunnerSummary}
    (h : started.map (Stage.summary? answer) = summaries.map some) :
    summaries.map (fun u => (u.runner, u.completed)) =
      started.map fun g => (g.runner.backend.name, g.completed answer) := by
  induction started generalizing summaries with
  | nil =>
    cases summaries with
    | nil => rfl
    | cons u us => cases h
  | cons g started ih =>
    cases summaries with
    | nil => cases h
    | cons u us =>
      obtain ⟨hu, hus⟩ := List.cons.inj h
      rw [List.map_cons, List.map_cons, ih hus, Stage.completed_of_summary? hu,
        Stage.runner_of_summary? hu]

theorem passes_save (t : Timestamp) {started : List (Stage σ)} {summaries : List RunnerSummary}
    (h : started.map (Stage.summary? answer) = summaries.map some) (w : σ) :
    ∃ closing w', Closes answer s started closing ∧
      (save ⟨t, s.loopCount, summaries⟩ s.summaryPath).Passes answer w closing () w' := by
  cases hpath : s.summaryPath with
  | none =>
    refine ⟨[], w, ⟨⟨t, summaries, h, listed_of_summaries h, ?_⟩, List.forall_mem_nil _⟩, .done⟩
    rw [hpath]
    rfl
  | some path =>
    let summary : Summary := ⟨t, s.loopCount, summaries⟩
    let saving := Request.saveText path summary.written
    have hreports : ∃ event, (save summary (some path)).Passes answer w
        [.of answer saving w, .of answer (.report event) ((answer saving).run w).2] ()
        ((answer (.report event)).run ((answer saving).run w).2).2 := by
      cases hsaved : ((answer saving).run w).1 with
      | ok _ =>
        refine ⟨.summaryWritten path, (Dialogue.Passes.ask answer saving w).bind ?_⟩
        rw [hsaved]
        exact .ask answer _ _
      | error e =>
        refine ⟨.summaryNotWritten path (.system e), (Dialogue.Passes.ask answer saving w).bind ?_⟩
        rw [hsaved]
        exact .ask answer _ _
    obtain ⟨event, hpasses⟩ := hreports
    refine ⟨_, _, ⟨⟨t, summaries, h, listed_of_summaries h, ?_⟩, ?_⟩, hpasses⟩
    · rw [hpath]
      rfl
    · have hreport :
          (Moment.of answer (.report event) ((answer saving).run w).2).request.IsReport := trivial
      exact List.forall_mem_cons.mpr
        ⟨fun hnone => (nomatch hnone), List.forall_mem_singleton.mpr fun _ => hreport⟩

variable (answer) in
def opening (s : Settings) (runners : List Runner) (w : σ) : List (Moment σ) :=
  let checked := (areRunnable runners).final answer w
  (areRunnable runners).moments answer w ++
    [.of answer (.openOutput s.outfile) checked,
      .of answer .now ((answer (.openOutput s.outfile)).run checked).2]

def serve (s : Settings) (runners : List Runner) (t : Timestamp) : OptionT Dialogue Int := do
  let (failed, summaries) ← runEach runners 0 []
  save ⟨t, s.loopCount, summaries⟩ s.summaryPath
  return failed

theorem passes_opening {runners : List Runner} (h : ¬ Refused answer s runners w) :
    ∃ t w₁, ∀ ms result w', (serve s runners t).run.Passes answer w₁ ms result w' →
      (execute s runners).run.Passes answer w (opening answer s runners w ++ ms) result w' := by
  obtain ⟨hne, hrest⟩ := not_or.mp h
  obtain ⟨hrefuses, hopen⟩ := not_or.mp hrest
  have hchecked := Dialogue.Passes.whole answer (areRunnable runners) w
  have hall : ∀ g ∈ checks answer runners w, ¬ g.Refuses answer := fun g hg hr =>
    hrefuses ⟨g, hg, hr⟩
  rw [(result_areRunnable runners w).mpr hall] at hchecked
  let opened := ((answer (.openOutput s.outfile)).run ((areRunnable runners).final answer w)).2
  refine ⟨((answer .now).run opened).1, ((answer .now).run opened).2, fun ms result w' h => ?_⟩
  rw [execute, List.isEmpty_eq_false_iff.mpr hne, opening, List.append_assoc]
  refine hchecked.option_lift (.option_ask ?_)
  cases ho : ((answer (.openOutput s.outfile)).run ((areRunnable runners).final answer w)).1 with
  | error e => exact absurd ⟨e, ho⟩ hopen
  | ok _ => exact .option_ask h

theorem passes_serve (hlasting : Lasting answer) (runners : List Runner) (t : Timestamp) (w : σ) :
    ∃ started rest turns, runners = started.map (·.runner) ++ rest ∧
      ((∃ closing w', (∀ g ∈ started, (g.summary? answer).isSome) ∧
          Turns answer started rest turns ∧ Closes answer s started closing ∧
          (serve s runners t).run.Passes answer w (turns ++ closing)
            (some (misses answer started + rest.length : Nat)) w') ∨
        ∃ w', (∃ g ∈ started, g.summary? answer = none) ∧ Turns answer started [] turns ∧
          (serve s runners t).run.Passes answer w turns none w') := by
  obtain ⟨started, rest, turns, w₁, hrunners, heach⟩ := passes_runEach hlasting runners 0 [] w
  refine ⟨started, rest, turns, hrunners, ?_⟩
  rcases heach with ⟨new, hnew, hturns, hpasses⟩ | ⟨hnone, hturns, hpasses⟩
  · obtain ⟨closing, w₂, hcloses, hsave⟩ := passes_save (s := s) t hnew w₁
    refine .inl ⟨closing ++ [], w₂, fun g hg => ?_, hturns, ?_, ?_⟩
    · have hmem : g.summary? answer ∈ new.map some := hnew ▸ List.mem_map_of_mem hg
      obtain ⟨summary, -, hsummary⟩ := List.mem_map.mp hmem
      rw [← hsummary]
      rfl
    · rwa [List.append_nil]
    · rw [Nat.zero_add, List.nil_append] at hpasses
      exact hpasses.option_bind (hsave.option_lift .done)
  · exact .inr ⟨w₁, hnone, hturns, hpasses.option_stop⟩

namespace Surroundings

variable {u : Surroundings}

theorem isCancelled_cancelIf (h : u.isCancelled = true) (b : Bool) :
    (u.cancelIf b).isCancelled = true := by
  cases b with
  | false => exact h
  | true =>
    have hlinked : u.token = .linked ∧ u.source.cancelled = true := by
      simpa [Surroundings.isCancelled, CancelToken.isCancelled] using h
    change u.token.isCancelled u.source.cancel = true
    rw [CancelToken.isCancelled, hlinked.1, CancelSource.cancel]
    split
    · rfl
    · exact hlinked.2

theorem isCancelled_receive (h : u.isCancelled = true) (id : StoreId) (call : StoreCall) :
    (u.receive id call).1.isCancelled = true := by
  unfold receive
  cases u.stores[id]? with
  | none => exact h
  | some d =>
    let u' : Surroundings := { u with stores := u.stores.setIfInBounds id (d.receive call).1 }
    have hkept : u'.isCancelled = true := h
    exact isCancelled_cancelIf hkept _

theorem isCancelled_pass (h : u.isCancelled = true) (t : Turn) : (u.pass t).isCancelled = true := by
  let u' : Surroundings := { u with files := t.change u.files, clock := u.clock + 1 }
  have hkept : u'.isCancelled = true := h
  exact isCancelled_cancelIf hkept _

theorem deleteVersions_keeps {β : Type} (field : Surroundings → β) {store : StoreId}
    (name : String) (hreceive : field (u.receive store .delete).1 = field u)
    (hset : ∀ v m, field (setMemory v store m) = field v) :
    field (u.deleteVersions store name).1 = field u := by
  rw [deleteVersions]
  generalize u.receive store .delete = received at hreceive ⊢
  obtain ⟨v, reception⟩ := received
  dsimp only
  split
  · exact hreceive
  · exact (hset _ _).trans hreceive

theorem isCancelled_answerIn (h : u.isCancelled = true) (t : Turn) (r : Request) :
    (u.answerIn t r).1.isCancelled = true := by
  cases r with
  | remove path => exact (removeFile_keeps (·.isCancelled) (fun _ _ => rfl) u path t).trans h
  | trial work limit =>
    -- a trial of a run that is cancelled is not begun
    rw [answerIn, Surroundings.trial, if_pos h]
    exact h
  | deleteVersions store name =>
    have hreceived := (isCancelled_receive h store .delete).trans h.symm
    exact (deleteVersions_keeps (·.isCancelled) name hreceived fun _ _ => rfl).trans h
  | cancel => exact isCancelled_cancelIf h true
  | openOutput path =>
    cases path with
    | none => exact h
    | some path =>
      rw [answerIn, openOutput]
      split <;> exact h
  | print line =>
    rw [answerIn, print]
    cases u.output with
    | standard => exact h
    | file id => exact h
    | kept stream =>
      let u' : Surroundings :=
        { u with
          written := u.written ++ line.text
          output := .kept { stream with lines := stream.lines + 1 } }
      have hkept : u'.isCancelled = true := h
      exact isCancelled_cancelIf hkept _
  | _ => exact h

theorem lasting_answer : Lasting Surroundings.answer := by
  intro r u h
  have hturned : (u.pass (u.schedule u.clock)).isCancelled = true := h
  exact isCancelled_pass (isCancelled_answerIn hturned _ r) _

end Surroundings

theorem passes_runWith {i : Invocation} (hs : i.settings = some s) {runners : List Runner} {w' : σ}
    {code : Option Int} (h : (execute s runners).run.Passes answer w ms code w') :
    (i.runWith runners).run.Passes answer w ms (code.map (·, ⟨some s, .done⟩)) w' := by
  have hfinished : i.finished = ⟨some s, .done⟩ := by rw [finished, hs]
  rw [runWith, withSettings, hs, ← hfinished]
  cases code with
  | none => exact h.option_stop
  | some code =>
    have hpasses : (execute s runners >>= fun code => pure (code, i.finished)).run.Passes answer w
        (ms ++ []) (some (code, i.finished)) w' := h.option_bind .done
    rwa [List.append_nil] at hpasses

variable (answer) in
/-- The runners in order: those that are started and, as the run is cancelled, the others. The code
counts those that did not complete. -/
structure Serves (i : Invocation) (s : Settings) (runners : List Runner) (w : σ)
    (started : List (Stage σ)) (rest : List Runner) : Prop where
  order : runners = started.map (·.runner) ++ rest
  bounded : misses answer started + rest.length ≤ runners.length
  completes : (∀ g ∈ started, Fits (recordsIn (g.moments answer))) →
    (i.runWith runners).run.result answer w =
        some (((misses answer started + rest.length : Nat) : Int), ⟨some s, .done⟩) ∧
      ∃ turns closing, Turns answer started rest turns ∧ Closes answer s started closing ∧
        (i.runWith runners).run.moments answer w = opening answer s runners w ++ turns ++ closing
  overflows : (∃ g ∈ started, ¬ Fits (recordsIn (g.moments answer))) →
    (i.runWith runners).run.result answer w = none ∧
      ∃ turns, Turns answer started [] turns ∧
        (i.runWith runners).run.moments answer w = opening answer s runners w ++ turns

theorem isSome_summary?_iff (g : Stage σ) :
    (g.summary? answer).isSome ↔ Fits (recordsIn (g.moments answer)) := by
  rw [g.summary?_eq_ofRecords?, isSome_ofRecords?]

theorem exists_serves (hlasting : Lasting answer) {i : Invocation} (hs : i.settings = some s)
    {runners : List Runner} (h : ¬ Refused answer s runners w) :
    ∃ started rest, Serves answer i s runners w started rest := by
  obtain ⟨t, w₁, hopening⟩ := passes_opening h
  obtain ⟨started, rest, turns, hrunners, hserve⟩ := passes_serve hlasting runners t w₁
  have hbounded : misses answer started + rest.length ≤ runners.length := by
    rw [hrunners, List.length_append, List.length_map]
    exact Nat.add_le_add_right List.countP_le_length _
  refine ⟨started, rest, hrunners, hbounded, fun hfits => ?_, fun hover => ?_⟩
  · rcases hserve with ⟨closing, w₂, -, hturns, hcloses, hpasses⟩ | ⟨w₂, ⟨g, hg, hnone⟩, -⟩
    · have hrun := passes_runWith hs (hopening _ _ _ hpasses)
      rw [← List.append_assoc] at hrun
      exact ⟨hrun.result, turns, closing, hturns, hcloses, hrun.moments⟩
    · have hsome := (isSome_summary?_iff g).mpr (hfits g hg)
      rw [hnone] at hsome
      cases hsome
  · obtain ⟨g, hg, hnot⟩ := hover
    rcases hserve with ⟨closing, w₂, hsome, -⟩ | ⟨w₂, -, hturns, hpasses⟩
    · exact absurd ((isSome_summary?_iff g).mp (hsome g hg)) hnot
    · have hrun := passes_runWith hs (hopening _ _ _ hpasses)
      exact ⟨hrun.result, turns, hturns, hrun.moments⟩

/-- A configured invocation may not run exactly if it has no runner, one of them may not start, or
the statistics cannot be opened, and then it runs none. Otherwise the runners have their turns. -/
theorem runners_take_turns (hlasting : Lasting answer) {i : Invocation} (hs : i.settings = some s)
    (runners : List Runner) (w : σ) :
    ((∃ j, (i.runWith runners).run.result answer w = some (notRunnable, j)) ↔
      Refused answer s runners w) ∧
    (Refused answer s runners w →
      (i.runWith runners).run.result answer w = some (notRunnable, ⟨some s, .done⟩) ∧
      ∃ tail, (∀ m ∈ tail, m.request.Opens) ∧
        (i.runWith runners).run.moments answer w =
          (areRunnable runners).moments answer w ++ tail) ∧
    (¬ Refused answer s runners w →
      ∃ started rest, Serves answer i s runners w started rest) := by
  have hrefused (h : Refused answer s runners w) :
      (i.runWith runners).run.result answer w = some (notRunnable, ⟨some s, .done⟩) ∧
        ∃ tail, (∀ m ∈ tail, m.request.Opens) ∧
          (i.runWith runners).run.moments answer w =
            (areRunnable runners).moments answer w ++ tail := by
    obtain ⟨tail, w', htail, hpasses⟩ := passes_refused h
    have hrun := passes_runWith hs hpasses
    exact ⟨hrun.result, tail, htail, hrun.moments⟩
  refine ⟨⟨fun hcode => by_contra fun hnot => ?_, fun h => ⟨_, (hrefused h).1⟩⟩, hrefused,
    exists_serves hlasting hs⟩
  obtain ⟨j, hj⟩ := hcode
  obtain ⟨started, rest, hserves⟩ := exists_serves hlasting hs hnot
  by_cases hfits : ∀ g ∈ started, Fits (recordsIn (g.moments answer))
  · cases (hserves.completes hfits).1.symm.trans hj
  · have hover : ∃ g ∈ started, ¬ Fits (recordsIn (g.moments answer)) := by simpa using hfits
    cases (hserves.overflows hover).1.symm.trans hj

def sampleRunners : List Runner :=
  [.scripted .mounted sampleSettings [], .scripted .mounted sampleSettings
    [("a", ⟨[.ok (.write, ⟨5, .zero⟩)], true, .error (.store "gone")⟩)], .mounted sampleSettings]

theorem runners_take_turns_cancelled :
    ((idle.configure sampleSettings).runWith sampleRunners).run.result Surroundings.answer
        (.calm sampleFiles) = some (2, ⟨some sampleSettings, .done⟩) ∧
      ∃ started rest, Serves Surroundings.answer (idle.configure sampleSettings) sampleSettings
        sampleRunners (.calm sampleFiles) started rest := by
  obtain ⟨hcode, -, hserves⟩ := runners_take_turns Surroundings.lasting_answer
    (i := idle.configure sampleSettings) rfl sampleRunners (.calm sampleFiles)
  have hresult : ((idle.configure sampleSettings).runWith sampleRunners).run.result
      Surroundings.answer (.calm sampleFiles) = some (2, ⟨some sampleSettings, .done⟩) := by
    decide +kernel
  refine ⟨hresult, hserves fun hrefused => ?_⟩
  obtain ⟨j, hj⟩ := hcode.mpr hrefused
  cases hresult.symm.trans hj

def sampleOverflowing : Runner :=
  .scripted .mounted { sampleSettings with files := ["a"] }
    [("a", ⟨[.ok (.write, ⟨1, ⟨2 ^ 64 * 1000000000 - 1, by decide⟩⟩),
      .ok (.write, ⟨1, ⟨1, by decide⟩⟩)], false, .ok true⟩)]

/-- If the totals of a runner leave their range, there is no code, though the runner may start and
the statistics can be opened. -/
theorem runners_take_turns_overflowing :
    ¬ Refused Surroundings.answer sampleSettings [sampleOverflowing] (.calm sampleFiles) ∧
      ((idle.configure sampleSettings).runWith [sampleOverflowing]).run.result Surroundings.answer
        (.calm sampleFiles) = none := by
  refine ⟨?_, by decide +kernel⟩
  rintro (hnil | ⟨g, hg, hrefuses⟩ | ⟨e, he⟩)
  · cases hnil
  · rw [List.mem_singleton.mp hg] at hrefuses
    exact hrefuses (by decide +kernel)
  · cases he

end StorageTrials

import StorageTrials.Invocation
import StorageTrials.Proofs.Answers
import StorageTrials.Proofs.RowAccounting
import StorageTrials.Proofs.Stream

namespace StorageTrials

open Invocation Runner

variable {w w' : Surroundings} {s : Settings} {α : Type}

namespace Surroundings

def Alone (w : Surroundings) : Prop := ∀ k, (w.schedule k).change = id

theorem Alone.files_turned (h : w.Alone) : w.turned.files = w.files := by
  rw [Surroundings.files_turned, h]
  rfl

/-- The files and stores are what they were, and so is what happens from outside. -/
structure Stays (w w' : Surroundings) : Prop where
  files : w'.files = w.files
  stores : w'.stores = w.stores
  schedule : w'.schedule = w.schedule
  server : w'.server = w.server

theorem Stays.refl (w : Surroundings) : w.Stays w := ⟨rfl, rfl, rfl, rfl⟩

theorem Stays.trans {u v w : Surroundings} (h : u.Stays v) (h' : v.Stays w) : u.Stays w where
  files := h'.files.trans h.files
  stores := h'.stores.trans h.stores
  schedule := h'.schedule.trans h.schedule
  server := h'.server.trans h.server

theorem Stays.alone (h : w.Stays w') (ha : w.Alone) : w'.Alone := by
  intro k
  rw [h.schedule]
  exact ha k

def Observes : Request → Prop
  | .inspect _ | .probe _ | .connect .. | .isCancelled | .now | .report _ => True
  | _ => False

theorem observes_of_looks {r : Request} (h : Looks r) : Observes r := by
  cases r <;> simp_all [Looks, Observes]

theorem Stays.cancelIf (h : w.Stays w') (b : Bool) : w.Stays (w'.cancelIf b) := by
  cases b with
  | true => exact h.trans ⟨rfl, rfl, rfl, rfl⟩
  | false => exact h

theorem Alone.turned (h : w.Alone) : w.Stays w.turned := by
  have hstays : w.Stays
      { w with files := (w.schedule w.clock).change w.files, clock := w.clock + 1 } :=
    ⟨congrFun (h w.clock) w.files, rfl, rfl, rfl⟩
  exact hstays.cancelIf _

theorem Alone.observe (h : w.Alone) {r : Request} (hr : Observes r) :
    w.Stays ((answer r).run w).2 := by
  have ht := h.turned
  rw [run_answer]
  cases r with
  | inspect path | probe path | connect c limit | isCancelled | now => exact ht
  | report event => exact ht.trans ⟨rfl, rfl, rfl, rfl⟩
  | _ => exact hr.elim

theorem Alone.meets (h : w.Alone) {d : Dialogue α} (hd : d.Asks Observes) :
    d.Meets answer (fun _ => True) w fun a w' => a = d.result answer w ∧ w.Stays w' := by
  have hasks : d.Asks (Request.Preserves answer (fun _ => True) w.Stays) :=
    Dialogue.asks_mono (fun r hr u hu => ⟨trivial, hu.trans ((hu.alone h).observe hr)⟩) hd
  exact (hasks.meets (.refl w)).with_result

/-- Who only looks at the same files finds the same. -/
theorem Alone.result_eq (h : w.Alone) (h' : w'.Alone) (hf : w'.files = w.files) {d : Dialogue α}
    (hd : d.Asks Looks) : d.result answer w' = d.result answer w := by
  induction d generalizing w w' with
  | done a => rfl
  | ask r next ih =>
    obtain ⟨hr, hnext⟩ := hd
    have hs := h.observe (observes_of_looks hr)
    have hs' := h'.observe (observes_of_looks hr)
    have ha : ((answer r).run w').1 = ((answer r).run w).1 := by
      have hturned : w'.turned.files = w.turned.files := by
        rw [h.files_turned, h'.files_turned, hf]
      cases r with
      | inspect path | probe path =>
        rw [run_answer, run_answer, answerIn, answerIn, hturned]
      | _ => exact hr.elim
    rw [Dialogue.result_ask, Dialogue.result_ask, ha]
    refine ih _ (hs.alone h) (hs'.alone h') ?_ (hnext _)
    rw [hs.files, hs'.files, hf]

end Surroundings

open Surroundings

theorem asks_checkSourceDir (dir : String) : (checkSourceDir dir).dialogue.Asks Looks := by
  refine ⟨trivial, fun x => ?_⟩
  rcases x with e | (size | _ | _) <;> trivial

theorem asks_checkDestinationDir (dir : String) :
    (checkDestinationDir dir).dialogue.Asks Looks := by
  refine ⟨trivial, fun x => ?_⟩
  rcases x with e | (size | _ | _) <;> trivial

theorem asks_checkFor (s : Settings) (b : Backend) : (s.checkFor b).dialogue.Asks Looks := by
  unfold Settings.checkFor
  split
  · trivial
  · split
    · trivial
    · refine Attempt.asks_bind (asks_checkSourceDir _) fun _ => ?_
      cases b with
      | mounted =>
        cases s.destinationDir with
        | none => trivial
        | some dir => exact asks_checkDestinationDir dir
      | direct => exact Attempt.asks_bind trivial fun _ => trivial

def Accepted (s : Settings) (w : Surroundings) (b : Backend) : Prop :=
  (s.checkFor b).dialogue.result answer w = .ok ()

theorem Surroundings.Stays.accepted (h : w.Stays w') (ha : w.Alone) (b : Backend) :
    Accepted s w' b ↔ Accepted s w b := by
  rw [Accepted, Accepted, ha.result_eq (h.alone ha) h.files (asks_checkFor s b)]

theorem Accepted.resolve (h : Accepted s w .direct) : ∃ c, s.connection.resolve = .ok c :=
  (passed_of_check h).2.2.2

theorem Surroundings.Alone.meets_gate (h : w.Alone) (s : Settings) (bs : List Backend) :
    (gate s bs).dialogue.Meets answer (fun _ => True) w fun r w' =>
      (r = .ok () ↔ ∀ b ∈ bs, Accepted s w b) ∧ w.Stays w' := by
  induction bs generalizing w with
  | nil => exact .done ⟨iff_of_true rfl (List.forall_mem_nil _), .refl w⟩
  | cons b bs ih =>
    have hcheck := h.meets (Dialogue.asks_mono (fun _ => observes_of_looks) (asks_checkFor s b))
    refine .lift_bind (hcheck.weaken fun r w₁ hpost => ?_)
    obtain ⟨hr, h₁⟩ := hpost
    rw [List.forall_mem_cons]
    cases r with
    | ok _ =>
      refine (ih (h₁.alone h)).weaken fun r w₂ hpost => ?_
      obtain ⟨hrest, h₂⟩ := hpost
      simp only [h₁.accepted h] at hrest
      exact ⟨hrest.trans (and_iff_right hr.symm).symm, h₁.trans h₂⟩
    | error e =>
      have h₂ := (h₁.alone h).observe (r := .report (.notRunnable b e)) trivial
      refine .ask trivial (.done ⟨iff_of_false nofun fun ha => ?_, h₁.trans h₂⟩)
      cases hr.trans ha.1

structure BuiltFor (s : Settings) (bs : List Backend) (rs : List Runner) : Prop where
  backends : rs.map (·.backend) = bs
  checks : ∀ r ∈ rs, r.check = s.checkFor r.backend

theorem BuiltFor.cons {b : Backend} {bs : List Backend} {r : Runner} {rs : List Runner}
    (hr : BuiltFor s [b] [r]) (hrs : BuiltFor s bs rs) : BuiltFor s (b :: bs) (r :: rs) where
  backends := List.cons_eq_cons.mpr ⟨List.head_eq_of_cons_eq hr.backends, hrs.backends⟩
  checks := List.forall_mem_cons.mpr ⟨hr.checks r List.mem_cons_self, hrs.checks⟩

theorem BuiltFor.accepted {bs : List Backend} {rs : List Runner} (h : BuiltFor s bs rs)
    (ha : ∀ b ∈ bs, Accepted s w b) :
    ∀ r ∈ rs, r.check.dialogue.Asks Looks ∧ r.check.dialogue.result answer w = .ok () := by
  intro r hr
  have hb : r.backend ∈ bs := h.backends ▸ List.mem_map_of_mem hr
  rw [h.checks r hr]
  exact ⟨asks_checkFor s r.backend, ha r.backend hb⟩

theorem Surroundings.Alone.meets_runnerFor (h : w.Alone) {b : Backend} (hb : Accepted s w b) :
    (runnerFor s b).dialogue.Meets answer (fun _ => True) w fun r w' => w.Stays w' ∧
      match r with
      | .ok r => (b = .direct → w.server ≠ none) ∧ BuiltFor s [b] [r]
      | .error _ => b = .direct ∧ w.server = none := by
  have hbuilt (r : Runner) (hr : r.check = s.checkFor r.backend) : BuiltFor s [r.backend] [r] :=
    ⟨rfl, List.forall_mem_singleton.mpr hr⟩
  cases b with
  | mounted => exact .done ⟨.refl w, fun hb => Backend.noConfusion hb, hbuilt (.mounted s) rfl⟩
  | direct =>
    obtain ⟨c, hc⟩ := hb.resolve
    have hturned := h.turned
    rw [runnerFor, hc]
    refine .attempt_bind (.done (.attempt_bind (.ask trivial (.done ?_))))
    rw [run_answer, answerIn, hturned.server]
    cases hserver : w.server with
    | none => exact ⟨hturned, rfl, rfl⟩
    | some id => exact .done ⟨hturned, fun _ => Option.some_ne_none id, hbuilt (.direct s id) rfl⟩

theorem Surroundings.Alone.meets_runnersFor (h : w.Alone) {bs : List Backend}
    (hbs : ∀ b ∈ bs, Accepted s w b) :
    (runnersFor s bs).dialogue.Meets answer (fun _ => True) w fun r w' => w.Stays w' ∧
      match r with
      | .ok rs => (.direct ∈ bs → w.server ≠ none) ∧ BuiltFor s bs rs
      | .error _ => .direct ∈ bs ∧ w.server = none := by
  induction bs generalizing w with
  | nil => exact .done ⟨.refl w, nofun, rfl, nofun⟩
  | cons b bs ih =>
    obtain ⟨hb, hbs⟩ := List.forall_mem_cons.mp hbs
    refine .attempt_bind ((h.meets_runnerFor hb).weaken fun r w₁ hpost => ?_)
    obtain ⟨h₁, hpost⟩ := hpost
    cases r with
    | error e =>
      obtain ⟨rfl, hserver⟩ := hpost
      exact ⟨h₁, List.mem_cons_self, hserver⟩
    | ok r =>
      obtain ⟨hserver, hr⟩ := hpost
      have hrest := ih (h₁.alone h) fun b hb => (h₁.accepted h b).mpr (hbs b hb)
      refine .attempt_bind (hrest.weaken fun rs w₂ hpost => ?_)
      obtain ⟨h₂, hpost⟩ := hpost
      rw [h₁.server] at hpost
      cases rs with
      | error e =>
        obtain ⟨hmem, hnone⟩ := hpost
        exact ⟨h₁.trans h₂, List.mem_cons_of_mem b hmem, hnone⟩
      | ok rs =>
        obtain ⟨hservers, hrs⟩ := hpost
        refine .done ⟨h₁.trans h₂, fun hmem => ?_, hr.cons hrs⟩
        rcases List.mem_cons.mp hmem with hmem | hmem
        · exact hserver hmem.symm
        · exact hservers hmem

theorem Surroundings.Alone.meets_areRunnable (h : w.Alone) {rs : List Runner}
    (hrs : ∀ r ∈ rs, r.check.dialogue.Asks Looks ∧ r.check.dialogue.result answer w = .ok ()) :
    (areRunnable rs).Meets answer (fun _ => True) w fun b w' => b = true ∧ w.Stays w' := by
  induction rs generalizing w with
  | nil => exact .done ⟨rfl, .refl w⟩
  | cons r rs ih =>
    obtain ⟨⟨hasks, hok⟩, hrs⟩ := List.forall_mem_cons.mp hrs
    have hcheck := h.meets (Dialogue.asks_mono (fun _ => observes_of_looks) hasks)
    refine .bind (.bind (hcheck.weaken fun x w₁ hpost => ?_))
    obtain ⟨rfl, h₁⟩ := hpost
    rw [hok]
    refine .done ((ih (h₁.alone h) fun r' hr' => ?_).weaken fun b w₂ hpost => ?_)
    · obtain ⟨hasks', hok'⟩ := hrs r' hr'
      exact ⟨hasks', (h.result_eq (h₁.alone h) h₁.files hasks').trans hok'⟩
    · exact ⟨hpost.1, h₁.trans hpost.2⟩

/-- The file of the statistics cannot be made or emptied. -/
def CannotOpen (w : Surroundings) (outfile : Option String) : Prop :=
  ∃ path e, outfile = some path ∧ w.files.create path = .error e

theorem Surroundings.Stays.run_openOutput (h : w.Stays w') (ha : w.Alone)
    (outfile : Option String) :
    (CannotOpen w outfile ∧ ∃ e, (answer (.openOutput outfile)).run w' = (.error e, w'.turned)) ∨
      (¬ CannotOpen w outfile ∧ ∃ u, (answer (.openOutput outfile)).run w' = (.ok (), u)) := by
  have hfiles : w'.turned.files = w.files := (h.alone ha).files_turned.trans h.files
  rw [run_answer]
  cases outfile with
  | none =>
    refine .inr ⟨?_, _, rfl⟩
    rintro ⟨path, e, hpath, -⟩
    cases hpath
  | some path =>
    rw [answerIn, openOutput, hfiles]
    cases hopened : w.files.create path with
    | error e => exact .inl ⟨⟨path, e, rfl, hopened⟩, e, rfl⟩
    | ok opened =>
      refine .inr ⟨?_, _, rfl⟩
      rintro ⟨path', e, hpath, hcreate⟩
      cases hpath
      cases hopened.symm.trans hcreate

theorem Surroundings.Alone.meets_execute (h : w.Alone) {rs : List Runner} (hne : rs ≠ [])
    (hrs : ∀ r ∈ rs, r.check.dialogue.Asks Looks ∧ r.check.dialogue.result answer w = .ok ()) :
    (execute s rs).run.Meets answer (fun _ => True) w fun r w' =>
      (r = some notRunnable ↔ CannotOpen w s.outfile) ∧ (r = some notRunnable → w.Stays w') := by
  have hempty : rs.isEmpty = false := List.isEmpty_eq_false_iff.mpr hne
  rw [execute, hempty]
  refine .option_lift ((h.meets_areRunnable hrs).weaken fun b w₁ hpost => ?_)
  obtain ⟨rfl, h₁⟩ := hpost
  refine .option_ask trivial ?_
  rcases h₁.run_openOutput h s.outfile with ⟨hcannot, e, hrun⟩ | ⟨hcan, w₂, hrun⟩
  · rw [hrun]
    have h₂ := h₁.trans (h₁.alone h).turned
    have h₃ := (h₂.alone h).observe (r := .report (.cannotOpenOutput (.system e))) trivial
    exact .option_ask trivial (.done ⟨iff_of_true rfl hcannot, fun _ => h₂.trans h₃⟩)
  · rw [hrun]
    refine .option_ask trivial (.option_bind ((Dialogue.Meets.any _ _).weaken fun r w₃ _ => ?_))
    cases r with
    | none => exact ⟨iff_of_false nofun hcan, nofun⟩
    | some p =>
      -- a number of runners is never the code of an invocation that may not run
      have hcount : some (p.1 : Int) ≠ some notRunnable := nofun
      refine .option_lift ((Dialogue.Meets.any _ _).weaken fun _ w₄ _ => .done ?_)
      exact ⟨iff_of_false hcount hcan, fun hcode => absurd hcode hcount⟩

theorem ne_nil_backends (m : Mode) : m.backends ≠ [] := by
  cases m <;> exact List.cons_ne_nil _ _

/-- Why settings do not lead to a run. -/
inductive Hinders (w : Surroundings) (s : Settings) : Prop
  | unfit {b : Backend} (hb : b ∈ s.mode.backends) (h : ¬ Accepted s w b)
  | unreachable (hb : .direct ∈ s.mode.backends) (h : w.server = none)
  | unwritable (h : CannotOpen w s.outfile)

theorem Hinders.iff_of_built {w : Surroundings} (ha : ∀ b ∈ s.mode.backends, Accepted s w b)
    (hserver : .direct ∈ s.mode.backends → w.server ≠ none) :
    Hinders w s ↔ CannotOpen w s.outfile := by
  constructor
  · rintro (⟨hb, h⟩ | ⟨hb, h⟩ | h)
    · exact absurd (ha _ hb) h
    · exact absurd h (hserver hb)
    · exact h
  · exact .unwritable

theorem Surroundings.Alone.meets_buildRunners (h : w.Alone) :
    (buildRunners s).dialogue.Meets answer (fun _ => True) w fun r w' => w.Stays w' ∧
      match r with
      | .ok rs => BuiltFor s s.mode.backends rs ∧ (∀ b ∈ s.mode.backends, Accepted s w b) ∧
          (.direct ∈ s.mode.backends → w.server ≠ none)
      | .error _ => Hinders w s := by
  refine .attempt_bind ((h.meets_gate s s.mode.backends).weaken fun r w₁ hpost => ?_)
  obtain ⟨hgate, h₁⟩ := hpost
  cases r with
  | error e =>
    refine ⟨h₁, ?_⟩
    by_contra hno
    cases hgate.mpr fun b hb => by_contra fun hb' => hno (.unfit hb hb')
  | ok _ =>
    have haccepted := hgate.mp rfl
    have hbuilt := (h₁.alone h).meets_runnersFor fun b hb =>
      (h₁.accepted h b).mpr (haccepted b hb)
    refine hbuilt.weaken fun r w₂ hpost => ?_
    obtain ⟨h₂, hpost⟩ := hpost
    rw [h₁.server] at hpost
    refine ⟨h₁.trans h₂, ?_⟩
    cases r with
    | error e => exact .unreachable hpost.1 hpost.2
    | ok rs => exact ⟨hpost.2, haccepted, hpost.1⟩

theorem Surroundings.Alone.meets_start (h : w.Alone) :
    (start s).run.Meets answer (fun _ => True) w fun r w' =>
      (r = some notRunnable ↔ Hinders w s) ∧ (r = some notRunnable → w.Stays w') := by
  refine .option_lift (h.meets_buildRunners.weaken fun r w₁ hpost => ?_)
  obtain ⟨h₁, hpost⟩ := hpost
  have ha₁ := h₁.alone h
  cases r with
  | error e =>
    have h₂ := h₁.trans (ha₁.observe (r := .report (.cannotStart e)) trivial)
    exact .option_ask trivial (.done ⟨iff_of_true rfl hpost, fun _ => h₂⟩)
  | ok rs =>
    obtain ⟨hbuilt, haccepted, hserver⟩ := hpost
    have hne : rs ≠ [] := by
      rintro rfl
      exact ne_nil_backends _ hbuilt.backends.symm
    have hrs := hbuilt.accepted fun b hb => (h₁.accepted h b).mpr (haccepted b hb)
    refine (ha₁.meets_execute hne hrs).weaken fun r w₂ hpost => ?_
    obtain ⟨hcode, h₂⟩ := hpost
    have hopen : CannotOpen w₁ s.outfile ↔ CannotOpen w s.outfile := by
      rw [CannotOpen, h₁.files, CannotOpen]
    rw [Hinders.iff_of_built haccepted hserver]
    exact ⟨hcode.trans hopen, fun hr => h₁.trans (h₂ hr)⟩

theorem Surroundings.Alone.meets_run (h : w.Alone) (i : Invocation) :
    i.run.run.Meets answer (fun _ => True) w fun r w' =>
      ((∃ j, r = some (notRunnable, j)) ↔
        i.settings = none ∨ ∃ s, i.settings = some s ∧ Hinders w s) ∧
      ((∃ j, r = some (notRunnable, j)) → w.Stays w') := by
  rw [Invocation.run, withSettings]
  cases i.settings with
  | none =>
    have hstays := h.observe (r := .report .unconfigured) trivial
    exact .option_ask trivial (.done ⟨iff_of_true ⟨_, rfl⟩ (.inl rfl), fun _ => hstays⟩)
  | some s =>
    have hhinders : (some s = none ∨ ∃ s', some s = some s' ∧ Hinders w s') ↔ Hinders w s := by
      simp
    rw [hhinders]
    refine .option_bind (h.meets_start.weaken fun r w₁ hpost => ?_)
    obtain ⟨hcode, hstays⟩ := hpost
    cases r with
    | none =>
      have hnone : ¬ ∃ j, (none : Option (Int × Invocation)) = some (notRunnable, j) := by simp
      have hnot : ¬ Hinders w s := fun hh => nomatch hcode.mpr hh
      exact ⟨iff_of_false hnone hnot, fun hr => absurd hr hnone⟩
    | some code =>
      have hpair : (∃ j, some (code, i.finished) = some (notRunnable, j)) ↔
          some code = some notRunnable := by simp
      exact .done ⟨hpair.trans hcode, fun hr => hstays (hpair.mp hr)⟩

/-- Checks that have been passed are passed again. -/
theorem Surroundings.Alone.areRunnable_of_gate (h : w.Alone)
    (hgate : (gate s s.mode.backends).dialogue.result answer w = .ok ()) (hw : w'.Alone)
    (hfiles : w'.files = w.files) {rs : List Runner}
    (hrs : (runnersFor s s.mode.backends).dialogue.result answer w' = .ok rs) {u : Surroundings}
    (hu : u.Alone) (hfiles' : u.files = w.files) : (areRunnable rs).result answer u = true := by
  have haccepted := (h.meets_gate s s.mode.backends).ends.1.mp hgate
  have hagain {v : Surroundings} (hv : v.Alone) (hf : v.files = w.files) :
      ∀ b ∈ s.mode.backends, Accepted s v b := fun b hb =>
    (h.result_eq hv hf (asks_checkFor s b)).trans (haccepted b hb)
  have hbuilt := (hw.meets_runnersFor (hagain hw hfiles)).ends.2
  rw [hrs] at hbuilt
  exact (hu.meets_areRunnable (hbuilt.2.accepted (hagain hu hfiles'))).ends.1

/-- Whatever the mode, an invocation may not run exactly if it has no settings or these do not lead
to a run, and then neither files nor stores are touched. What has passed the gate also passes the
checks that follow on the same files. -/
theorem refused_invocation_touches_nothing (h : w.Alone) (i : Invocation) :
    ((∃ j, i.run.run.result answer w = some (notRunnable, j)) ↔
      i.settings = none ∨ ∃ s, i.settings = some s ∧ Hinders w s) ∧
    ((∃ j, i.run.run.result answer w = some (notRunnable, j)) →
      (i.run.run.final answer w).files = w.files ∧
        (i.run.run.final answer w).stores = w.stores) ∧
    ∀ s, (gate s s.mode.backends).dialogue.result answer w = .ok () →
      (.direct ∈ s.mode.backends → ∃ c, s.connection.resolve = .ok c) ∧
      ∀ w' rs, w'.Alone → w'.files = w.files →
        (runnersFor s s.mode.backends).dialogue.result answer w' = .ok rs →
          ∀ u : Surroundings, u.Alone → u.files = w.files →
            (areRunnable rs).result answer u = true := by
  obtain ⟨hcode, hstays⟩ := (h.meets_run i).ends
  refine ⟨hcode, fun hr => ⟨(hstays hr).files, (hstays hr).stores⟩, fun s hgate => ⟨fun hb => ?_,
    fun w' rs hw hfiles hrs u hu hfiles' => ?_⟩⟩
  · have haccepted := (h.meets_gate s s.mode.backends).ends.1.mp hgate
    exact (haccepted .direct hb).resolve
  · exact h.areRunnable_of_gate hgate hw hfiles hrs hu hfiles'

def sampleBoth : Settings :=
  { sampleSettings with
    mode := .both, connection := ⟨some "host", some 27017, some "db", some "fs"⟩,
    outfile := some "dst/rows", summaryPath := some "dst/summary" }

/-- A run that is cancelled at once, and a server that cannot be reached. -/
def sampleUnreachable : Surroundings :=
  { Surroundings.calm sampleFiles with schedule := fun _ => { Turn.calm with cancels := true } }

theorem refused_invocation_touches_nothing_unreachable :
    sampleUnreachable.Alone ∧ (∀ b, Accepted sampleBoth sampleUnreachable b) ∧
      (∃ j, (idle.configure sampleBoth).run.run.result answer sampleUnreachable =
        some (notRunnable, j)) ∧
      ((idle.configure sampleBoth).run.run.final answer sampleUnreachable).files = sampleFiles := by
  have halone : sampleUnreachable.Alone := fun _ => rfl
  have haccepted : ∀ b, Accepted sampleBoth sampleUnreachable b := by
    intro b
    unfold Accepted
    cases b <;> decide +kernel
  obtain ⟨hcode, hfiles, -⟩ :=
    refused_invocation_touches_nothing halone (idle.configure sampleBoth)
  have hrefused := hcode.mpr (.inr ⟨sampleBoth, rfl, .unreachable (by decide) rfl⟩)
  exact ⟨halone, haccepted, hrefused, (hfiles hrefused).1⟩

end StorageTrials

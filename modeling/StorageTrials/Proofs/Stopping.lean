import StorageTrials.Proofs.Completion
import StorageTrials.Proofs.DirectRun
import StorageTrials.Proofs.FreshInserts
import StorageTrials.Proofs.Refusal
import StorageTrials.Proofs.Turns

namespace StorageTrials

open FileSystem Runner

variable {σ α β : Type} {answer : (r : Request) → StateM σ r.Answer} {w : σ} {m : Moment σ}
variable {pre post : List (Moment σ)} {s : Settings} {store : StoreId} {r : Request}

/-- What an iteration does apart from telling of it: it cleans up, and carries out a trial. -/
def Request.Acts : Request → Prop
  | .remove _ | .deleteVersions .. | .trial .. => True
  | _ => False

inductive Request.For (s : Settings) (f : SourceFile) : Request → Prop
  | remove {dir : String} (h : s.destinationDir = some dir) :
      For s f (.remove (Path.join dir f.name))
  | deleteVersions (store : StoreId) : For s f (.deleteVersions store f.name)
  | trial (work : Work) (limit : Option Duration) : For s f (.trial work limit)

/-- What may follow a request of a run that is cancelled. A deletion is tried again if it fails. -/
def Request.Trails (r : Request) : Request → Prop
  | .report _ | .trial .. => True
  | .deleteVersions store name => r = .deleteVersions store name
  | _ => False

variable (answer) in
def Over (w : σ) : Prop := ((answer .isCancelled).run w).1 = true

variable (answer) in
def Declines : Prop :=
  ∀ work limit w, Over answer w → ((answer (.trial work limit)).run w).1 = .error .cancelled

variable (answer) in
/-- What is left of a run after a request, if it is cancelled. -/
def Quits (r : Request) (a : Attempt α) : Prop :=
  ∀ w, Over answer w → (∀ m ∈ a.dialogue.moments answer w, r.Trails m.request) ∧
    a.dialogue.result answer w = .error .cancelled

variable (answer) in
/-- Whenever a run is cancelled when it is to act, not much follows. -/
def Halts (a : Attempt α) (w : σ) : Prop :=
  ∀ pre m post, a.dialogue.moments answer w = pre ++ m :: post → m.request.Acts →
    Over answer m.before → (∀ m' ∈ post, m.request.Trails m'.request) ∧
      a.dialogue.result answer w = .error .cancelled

theorem line?_of_acts (h : m.request.Acts) : m.line? = none := by
  obtain ⟨before, r, a, after⟩ := m
  cases r <;> simp_all [Request.Acts, Moment.line?]

theorem line?_of_trails (h : r.Trails m.request) : m.line? = none := by
  obtain ⟨before, r', a, after⟩ := m
  cases r' <;> simp_all [Request.Trails, Moment.line?]

theorem Quits.ask (hlasting : Lasting answer) {d : Request}
    {next : d.Answer → Dialogue (Except Fault α)} (hr : r.Trails d)
    (h : ∀ x, Quits answer r ⟨next x⟩) : Quits answer r ⟨.ask d next⟩ := by
  intro w hw
  obtain ⟨hmoments, hresult⟩ := h _ _ (hlasting d w hw)
  exact ⟨List.forall_mem_cons.mpr ⟨hr, hmoments⟩, hresult⟩

theorem Quits.trial (hdeclines : Declines answer) {work : Work} {limit : Option Duration}
    {next : (Request.trial work limit).Answer → Dialogue (Except Fault α)}
    (h : next (.error .cancelled) = .done (.error .cancelled)) :
    Quits answer r ⟨.ask (.trial work limit) next⟩ := by
  intro w hw
  have hx := hdeclines work limit w hw
  have hnext : (next ((answer (.trial work limit)).run w).1) = .done (.error .cancelled) := by
    rw [hx, h]
  refine ⟨List.forall_mem_cons.mpr ⟨trivial, ?_⟩, ?_⟩
  · rw [hnext]
    exact List.forall_mem_nil _
  · change (next ((answer (.trial work limit)).run w).1).result answer _ = _
    rw [hnext]
    rfl

theorem Quits.bind {a : Attempt α} (h : Quits answer r a) (f : α → Attempt β) :
    Quits answer r (a >>= f) := by
  intro w hw
  obtain ⟨hmoments, hresult⟩ := h w hw
  rw [Attempt.moments_bind_error answer hresult, Attempt.result_bind_error answer hresult]
  exact ⟨hmoments, rfl⟩

theorem Halts.of_asks {a : Attempt α} (h : a.dialogue.Asks (¬ ·.Acts)) (w : σ) :
    Halts answer a w := by
  intro pre m post hm hacts
  refine absurd hacts (Dialogue.kind_of_mem_moments answer h w m ?_)
  rw [hm]
  simp

theorem Halts.ask {next : r.Answer → Dialogue (Except Fault α)}
    (hquits : r.Acts → Over answer w →
      (∀ m ∈ (next ((answer r).run w).1).moments answer ((answer r).run w).2,
        r.Trails m.request) ∧
      (next ((answer r).run w).1).result answer ((answer r).run w).2 = .error .cancelled)
    (h : Halts answer ⟨next ((answer r).run w).1⟩ ((answer r).run w).2) :
    Halts answer ⟨.ask r next⟩ w := by
  intro pre m post hm hacts hover
  rw [Dialogue.moments_ask] at hm
  cases pre with
  | nil =>
    obtain ⟨rfl, rfl⟩ := List.cons_eq_cons.mp hm
    exact hquits hacts hover
  | cons m' pre => exact h pre m post (List.cons_eq_cons.mp hm).2 hacts hover

theorem cut_append {ms ns : List (Moment σ)} (h : ms ++ ns = pre ++ m :: post) :
    (∃ ms', ms = pre ++ m :: ms' ∧ post = ms' ++ ns) ∨ ∃ ns', ns = ns' ++ m :: post := by
  obtain ⟨ns', -, hns⟩ | ⟨ms', hms, hns⟩ := List.append_eq_append_iff.mp h
  · exact Or.inr ⟨ns', hns⟩
  · cases ms' with
    | nil => exact Or.inr ⟨[], hns.symm⟩
    | cons m' ms' =>
      obtain ⟨rfl, rfl⟩ := List.cons_eq_cons.mp hns
      exact Or.inl ⟨ms', hms, rfl⟩

theorem Halts.bind {a : Attempt α} {f : α → Attempt β} (h : Halts answer a w)
    (hf : ∀ x, Halts answer (f x) (a.dialogue.final answer w)) : Halts answer (a >>= f) w := by
  intro pre m post hm hacts hover
  cases hr : a.dialogue.result answer w with
  | error e =>
    rw [Attempt.moments_bind_error answer hr] at hm
    rw [Attempt.result_bind_error answer hr]
    obtain ⟨htrails, hcancelled⟩ := h pre m post hm hacts hover
    cases hr.symm.trans hcancelled
    exact ⟨htrails, rfl⟩
  | ok x =>
    rw [Attempt.moments_bind_ok answer hr] at hm
    rw [Attempt.result_bind_ok answer hr]
    cases cut_append hm with
    | inl hcut =>
      -- what a next part follows has not been cut
      obtain ⟨ms, hms, -⟩ := hcut
      cases hr.symm.trans (h pre m ms hms hacts hover).2
    | inr hcut =>
      obtain ⟨ns, hns⟩ := hcut
      exact hf x ns m post hns hacts hover

theorem Halts.lift_bind {a : Attempt α} {f : Except Fault α → Attempt β} (h : Halts answer a w)
    (hf : ∀ x, Halts answer (f x) (a.dialogue.final answer w))
    (hcancelled : f (.error .cancelled) = .fail .cancelled) :
    Halts answer (liftM a.dialogue >>= f) w := by
  intro pre m post hm hacts hover
  rw [Attempt.dialogue_lift_bind] at hm ⊢
  rw [Dialogue.moments_bind] at hm
  rw [Dialogue.result_bind]
  cases cut_append hm with
  | inl hcut =>
    obtain ⟨ms, hms, hpost⟩ := hcut
    obtain ⟨htrails, hr⟩ := h pre m ms hms hacts hover
    rw [hr, hcancelled] at hpost
    rw [hr, hcancelled]
    refine ⟨?_, rfl⟩
    rw [hpost]
    exact List.forall_mem_append.mpr ⟨htrails, List.forall_mem_nil _⟩
  | inr hcut =>
    obtain ⟨ns, hns⟩ := hcut
    exact hf _ ns m post hns hacts hover

theorem not_acts_of_tells {r : Request} (h : r.Tells) : ¬ r.Acts := by
  cases r <;> simp_all [Request.Tells, Request.Acts]

theorem not_acts_of_isReport {r : Request} (h : r.IsReport) : ¬ r.Acts := by
  cases r <;> simp_all [Request.IsReport, Request.Acts]

theorem not_acts_of_looks {r : Request} (h : Looks r) : ¬ r.Acts := by
  cases r <;> simp_all [Looks, Request.Acts]

theorem quits_trial (hdeclines : Declines answer) (work : Work) (limit : Option Duration)
    (place : TrialPlace) (op : Operation) :
    Quits answer r ((liftM (Ask.trial work limit) : Attempt _) >>= settle place op) :=
  .trial hdeclines rfl

theorem halts_trial (hdeclines : Declines answer) (work : Work) (limit : Option Duration)
    (place : TrialPlace) (op : Operation) (w : σ) :
    Halts answer ((liftM (Ask.trial work limit) : Attempt _) >>= settle place op) w := by
  apply Halts.ask
  · intro _ hover
    obtain ⟨hmoments, hresult⟩ := quits_trial (r := .trial work limit) hdeclines work limit place
      op w hover
    exact ⟨fun m hm => hmoments m (List.mem_cons_of_mem _ hm), hresult⟩
  · apply Halts.of_asks
    exact Dialogue.asks_mono (fun _ => not_acts_of_tells) (asks_settle place op _)

theorem halts_trials {trial : Nat → Attempt Bool} (h : ∀ i w, Halts answer (trial i) w)
    (count i : Nat) (completed : Bool) (w : σ) :
    Halts answer (trials trial count i completed) w := by
  induction count generalizing i completed w with
  | zero => exact Halts.of_asks (a := pure completed) trivial w
  | succ n ih => exact (h i w).bind fun b => ih _ _ _

theorem Halts.ask_quits (hlasting : Lasting answer)
    {next : r.Answer → Dialogue (Except Fault α)} (hquits : ∀ x, Quits answer r ⟨next x⟩)
    (h : ∀ x w, Halts answer ⟨next x⟩ w) (w : σ) : Halts answer ⟨.ask r next⟩ w :=
  .ask (fun _ hover => hquits _ _ (hlasting r w hover)) (h _ _)

theorem Halts.ask_idle {next : r.Answer → Dialogue (Except Fault α)} (hr : ¬ r.Acts)
    (h : ∀ x w, Halts answer ⟨next x⟩ w) (w : σ) : Halts answer ⟨.ask r next⟩ w :=
  .ask (fun hacts => absurd hacts hr) (h _ _)

def mountedCopy (s : Settings) (f : SourceFile) (dest : String) (i : Nat) : Attempt Bool :=
  (liftM (Ask.trial (.copy f.path dest) s.timeout) : Attempt _) >>=
    settle ⟨.mounted, f.name, i⟩ .write

theorem halts_mountedWrite (hlasting : Lasting answer) (hdeclines : Declines answer) (s : Settings)
    (f : SourceFile) (dest : String) (i : Nat) (w : σ) :
    Halts answer (mountedWrite s f dest i) w := by
  have hcopy (w : σ) : Halts answer (mountedCopy s f dest i) w := halts_trial hdeclines _ _ _ _ w
  have hquits : Quits answer (.remove dest) (mountedCopy s f dest i) :=
    quits_trial hdeclines _ _ _ _
  apply Halts.ask_quits (r := .remove dest) hlasting
  · intro x
    cases x with
    | ok _ => exact hquits
    | error e =>
      change Quits answer _ ⟨(if e.kind = .notFound then _ else _ : Dialogue Unit).bind _ |>.bind _⟩
      split
      · exact hquits
      · exact Quits.ask hlasting trivial fun _ => hquits
  · intro x w
    cases x with
    | ok _ => exact hcopy w
    | error e =>
      change Halts answer ⟨(if e.kind = .notFound then _ else _ : Dialogue Unit).bind _ |>.bind _⟩ w
      split
      · exact hcopy w
      · exact Halts.ask_idle (r := .report _) not_false (fun _ => hcopy) w

theorem halts_mountedFile (hlasting : Lasting answer) (hdeclines : Declines answer) (s : Settings)
    (f : SourceFile) (w : σ) : Halts answer (mountedFile s f) w := by
  unfold mountedFile
  cases s.destinationDir with
  | none => exact Halts.of_asks (a := .fail _) trivial w
  | some dir =>
    have hcopied : (isCopied f (Path.join dir f.name)).Asks (¬ ·.Acts) :=
      asks_isCopied_of (fun _ => not_false) (fun _ => not_false) f _
    apply Halts.bind (halts_trials (halts_mountedWrite hlasting hdeclines s f _) _ 0 true w)
    intro written
    apply Halts.bind (Halts.of_asks (a := liftM (isCopied f (Path.join dir f.name))) _ _)
    · intro b
      cases b with
      | false => exact Halts.of_asks (a := pure false) trivial _
      | true =>
        exact halts_trials (fun i w => halts_trial hdeclines _ _ _ _ w) _ 0 written _
    · exact Dialogue.asks_bind hcopied fun _ => trivial

/-- The trials of a file from some iteration of its writes on. -/
def directFrom (s : Settings) (store : StoreId) (f : SourceFile) (count i : Nat)
    (completed : Bool) : Attempt Bool :=
  trials (directWrite s store f) count i completed >>=
    trials (directRead s store f) s.loopCount 0

theorem directFrom_succ (s : Settings) (store : StoreId) (f : SourceFile) (n i : Nat)
    (completed : Bool) :
    directFrom s store f (n + 1) i completed =
      directWrite s store f i >>= fun b => directFrom s store f n (i + 1) (completed && b) :=
  Attempt.bind_assoc _ _ _

theorem quits_directFrom (hlasting : Lasting answer) (hdeclines : Declines answer)
    (hloops : s.loopCount ≠ 0) (f : SourceFile) (count i : Nat) (completed : Bool) :
    Quits answer (.deleteVersions store f.name) (directFrom s store f count i completed) := by
  induction count generalizing i completed with
  | zero =>
    obtain ⟨n, hn⟩ := Nat.exists_eq_succ_of_ne_zero hloops
    change Quits answer _ (trials (directRead s store f) s.loopCount 0 completed)
    rw [hn]
    exact (quits_trial hdeclines _ _ _ _).bind _
  | succ n ih =>
    rw [directFrom_succ]
    apply Quits.ask (d := .deleteVersions store f.name) hlasting rfl
    intro x
    cases x with
    | error e => exact Quits.ask hlasting trivial fun _ => ih (i + 1) (completed && false)
    | ok count =>
      exact Quits.ask hlasting trivial fun _ => (quits_trial hdeclines _ _ _ _).bind _

theorem halts_directFrom (hlasting : Lasting answer) (hdeclines : Declines answer)
    (hloops : s.loopCount ≠ 0) (f : SourceFile) (count i : Nat) (completed : Bool) (w : σ) :
    Halts answer (directFrom s store f count i completed) w := by
  induction count generalizing i completed w with
  | zero => exact halts_trials (fun i w => halts_trial hdeclines _ _ _ _ w) _ 0 completed w
  | succ n ih =>
    have hquits : Quits answer (.deleteVersions store f.name)
        (directFrom s store f (n + 1) i completed) :=
      quits_directFrom hlasting hdeclines hloops f (n + 1) i completed
    rw [directFrom_succ] at hquits ⊢
    apply Halts.ask (r := .deleteVersions store f.name)
    · intro _ hover
      obtain ⟨hmoments, hresult⟩ := hquits w hover
      exact ⟨fun m hm => hmoments m (List.mem_cons_of_mem _ hm), hresult⟩
    · cases ((answer (.deleteVersions store f.name)).run w).1 with
      | error e => exact Halts.ask_idle (r := .report _) not_false (fun _ => ih _ _) _
      | ok count =>
        apply Halts.ask_idle (r := .report _) not_false
        intro _ w
        exact (halts_trial hdeclines _ _ _ _ w).bind fun b => ih _ _ _

theorem halts_directFile (hlasting : Lasting answer) (hdeclines : Declines answer) (s : Settings)
    (f : SourceFile) (w : σ) : Halts answer (directFile s store f) w := by
  by_cases hloops : s.loopCount = 0
  · have hnothing : directFile s store f = pure true := by
      rw [directFile, hloops]
      rfl
    rw [hnothing]
    exact Halts.of_asks (a := pure true) trivial w
  · exact halts_directFrom hlasting hdeclines hloops f s.loopCount 0 true w

theorem halts_runFiles {backend : Backend} {runFile : SourceFile → Attempt Bool}
    (h : ∀ f w, Halts answer (runFile f) w) (files : List SourceFile) (completed : Bool) (w : σ) :
    Halts answer (runFiles backend runFile files completed) w := by
  induction files generalizing completed w with
  | nil => exact Halts.of_asks (a := pure completed) trivial w
  | cons f fs ih =>
    rw [runFiles]
    cases f.fault? with
    | some cause => exact Halts.ask_idle (r := .report _) not_false (fun _ => ih completed) w
    | none =>
      refine (h f w).lift_bind (fun r => ?_) rfl
      apply Halts.bind
      · apply Halts.of_asks
        exact Dialogue.asks_mono (fun _ => not_acts_of_isReport) (asks_conclude backend f.name r)
      · exact fun ok => ih _ _

theorem halts_print (line : Line) (w : σ) :
    Halts answer (Attempt.system (Ask.print line)) w := by
  apply Halts.of_asks
  refine ⟨not_false, fun x => ?_⟩
  cases x <;> trivial

theorem halts_runAll {backend : Backend} {runFile : SourceFile → Attempt Bool}
    (h : ∀ f w, Halts answer (runFile f) w) (s : Settings) (w : σ) :
    Halts answer (runAll backend s runFile) w := by
  have hresolve : (resolveSources s.sourceDir s.files).dialogue.Asks (¬ ·.Acts) :=
    Dialogue.asks_mono (fun _ => not_acts_of_looks) (asks_resolveSources _ _)
  refine (Halts.of_asks hresolve w).bind fun files => ?_
  refine Halts.ask_idle (r := .report _) not_false (fun _ w => ?_) _
  refine (halts_print .header w).bind fun _ => ?_
  refine (halts_runFiles h files true _).bind fun completed => ?_
  exact (halts_print .footer _).bind fun _ => .of_asks (a := pure completed) trivial _

def Measures (r : Runner) (s : Settings) : Prop := r = mounted s ∨ ∃ store, r = direct s store

theorem halts_run (hlasting : Lasting answer) (hdeclines : Declines answer) {r : Runner}
    (hr : Measures r s) (w : σ) : Halts answer r.session w := by
  obtain rfl | ⟨store, rfl⟩ := hr
  · exact halts_runAll (halts_mountedFile hlasting hdeclines s) s w
  · exact halts_runAll (halts_directFile hlasting hdeclines s) s w

/-- Nothing is counted any more when a run is cancelled, so no total ends it. -/
theorem Halts.tallied {a : Attempt α} (h : Halts answer a w) {t : Tally}
    (hm : (a.dialogue.tallied t).moments answer w = pre ++ m :: post) (hacts : m.request.Acts)
    (hover : Over answer m.before) :
    (∀ m' ∈ post, m.request.Trails m'.request) ∧
      ∃ t', (a.dialogue.tallied t).result answer w = some (t', .error .cancelled) := by
  cases a.dialogue.tallies answer t w with
  | ends t' kept passes =>
    obtain ⟨htrails, hresult⟩ := h pre m post (passes.moments.symm.trans hm) hacts hover
    exact ⟨htrails, t', by rw [passes.result, hresult]⟩
  | breaks front last back r t' cut row kept full passes =>
    have hrun : pre ++ m :: post = front ++ [last] := hm.symm.trans passes.moments
    have hsession : a.dialogue.moments answer w = pre ++ m :: (post ++ back) := by
      rw [cut, ← List.cons_append, ← List.append_assoc, hrun, List.append_assoc]
      rfl
    have htrails := (h pre m _ hsession hacts hover).1
    have hlast : last ∈ m :: post := by
      have hmem : last ∈ (m :: post).getLast? := by
        rw [← List.getLast?_append_of_ne_nil pre (List.cons_ne_nil m post), hrun]
        simp
      exact List.mem_of_getLast? hmem
    have hline := line?_of_printed? row
    cases List.mem_cons.mp hlast with
    | inl hfirst =>
      cases (line?_of_acts (hfirst ▸ hacts)).symm.trans hline
    | inr hlater =>
      have := htrails last (List.mem_append_left back hlater)
      cases (line?_of_trails this).symm.trans hline

def Minds (s : Settings) (f : SourceFile) (r : Request) : Prop := r.Acts → r.For s f

theorem minds_trial (f : SourceFile) (work : Work) (limit : Option Duration) (place : TrialPlace)
    (op : Operation) :
    ((liftM (Ask.trial work limit) : Attempt _) >>= settle place op).dialogue.Asks (Minds s f) := by
  refine ⟨fun _ => .trial work limit, fun x => ?_⟩
  exact Dialogue.asks_mono (fun _ h hacts => absurd hacts (not_acts_of_tells h))
    (Runner.asks_settle place op x)

theorem asks_mountedFile_minds (s : Settings) (f : SourceFile) :
    (mountedFile s f).dialogue.Asks (Minds s f) := by
  unfold mountedFile
  cases hdir : s.destinationDir with
  | none => trivial
  | some dir =>
    have hcopied : (isCopied f (Path.join dir f.name)).Asks (Minds s f) :=
      asks_isCopied_of (fun _ => False.elim) (fun _ => False.elim) f _
    refine Attempt.asks_bind (asks_trials (fun i => ?_) _ 0 true) fun written => ?_
    · refine ⟨fun _ => .remove hdir, fun x => ?_⟩
      cases x with
      | ok _ => exact minds_trial f _ _ _ _
      | error e =>
        change ((if e.kind = .notFound then _ else _ : Dialogue Unit).bind _ |>.bind _).Asks _
        split
        · exact minds_trial f _ _ _ _
        · exact ⟨False.elim, fun _ => minds_trial f _ _ _ _⟩
    · refine Attempt.asks_bind (Dialogue.asks_bind hcopied fun _ => trivial) fun b => ?_
      cases b with
      | false => trivial
      | true => exact asks_trials (fun i => minds_trial f _ _ _ _) _ 0 written

theorem asks_directFile_minds (s : Settings) (store : StoreId) (f : SourceFile) :
    (directFile s store f).dialogue.Asks (Minds s f) := by
  refine Attempt.asks_bind (asks_trials (fun i => ?_) _ 0 true) fun written => ?_
  · refine ⟨fun _ => .deleteVersions store, fun x => ?_⟩
    cases x with
    | ok _ => exact ⟨False.elim, fun _ => minds_trial f _ _ _ _⟩
    | error e => exact ⟨False.elim, fun _ => trivial⟩
  · exact asks_trials (fun i => minds_trial f _ _ _ _) _ 0 written

def Attends (s : Settings) (w : Surroundings) (m : Moment Surroundings) : Prop :=
  m.request.Acts → ∃ f, FoundReady s w f ∧ m.request.For s f

theorem attends_of_not_acts {w : Surroundings} {d : Request} (hd : ¬ d.Acts) :
    Request.Preserves Surroundings.answer (Attends s w) (fun _ => True) d :=
  fun _ _ => ⟨fun hacts => absurd hacts hd, trivial⟩

theorem narrates_attends (s : Settings) (w : Surroundings) :
    Narrates Surroundings.answer (Attends s w) fun _ => True where
  report event := attends_of_not_acts (d := .report event) not_false
  header := attends_of_not_acts (d := .print .header) not_false
  footer := attends_of_not_acts (d := .print .footer) not_false

theorem meets_run_attends {r : Runner} (hr : Measures r s) (w : Surroundings) :
    r.session.dialogue.Meets Surroundings.answer (Attends s w) w fun _ _ => True := by
  have hfile {d : Dialogue (Except Fault Bool)} {f : SourceFile} (hf : FoundReady s w f)
      (hd : d.Asks (Minds s f)) (u : Surroundings) :
      d.Meets Surroundings.answer (Attends s w) u fun _ _ => True := by
    refine Dialogue.Asks.meets (Dialogue.asks_mono (fun r hr v _ => ?_) hd) trivial
    exact ⟨fun hacts => ⟨f, hf, hr hacts⟩, trivial⟩
  have hlooks (d : Request) (hd : Looks d) :
      Request.Preserves Surroundings.answer (Attends s w) (fun _ => True) d :=
    attends_of_not_acts (not_acts_of_looks hd)
  obtain rfl | ⟨store, rfl⟩ := hr
  · exact (narrates_attends s w).meets_runAll hlooks (fun files hfiles f hf hready u _ =>
      hfile ⟨hready, files, hfiles, hf⟩ (asks_mountedFile_minds s f) u) trivial
  · exact (narrates_attends s w).meets_runAll hlooks (fun files hfiles f hf hready u _ =>
      hfile ⟨hready, files, hfiles, hf⟩ (asks_directFile_minds s store f) u) trivial

theorem Dialogue.exists_rest {d : Dialogue α} (hm : d.moments answer w = pre ++ m :: post) :
    m = .of answer m.request m.before ∧ ∃ d' : Dialogue α,
      d'.Passes answer m.after post (d.result answer w) (d.final answer w) := by
  induction d generalizing w pre with
  | done a => simp at hm
  | ask r next ih =>
    rw [moments_ask] at hm
    cases pre with
    | nil =>
      obtain ⟨rfl, hpost⟩ := List.cons_eq_cons.mp hm
      exact ⟨rfl, _, hpost, rfl, rfl⟩
    | cons m' pre => exact ih _ (List.cons_eq_cons.mp hm).2

theorem Dialogue.invariant_moments {kind : Request → Prop} {inv : σ → Prop} {d : Dialogue α}
    (hstep : ∀ r u, kind r → inv u → inv ((answer r).run u).2)
    (hkind : ∀ m ∈ d.moments answer w, kind m.request) (hw : inv w) :
    (∀ m ∈ d.moments answer w, inv m.before) ∧ inv (d.final answer w) := by
  induction d generalizing w with
  | done a => exact ⟨List.forall_mem_nil _, hw⟩
  | ask r next ih =>
    obtain ⟨hr, hnext⟩ := List.forall_mem_cons.mp hkind
    obtain ⟨hmoments, hfinal⟩ := ih _ hnext (hstep r w hr hw)
    exact ⟨List.forall_mem_cons.mpr ⟨hw, hmoments⟩, hfinal⟩

theorem acts_or_isReport_of_trails {d : Request} (h : r.Trails d) : d.Acts ∨ d.IsReport := by
  cases d <;> simp_all [Request.Trails, Request.Acts, Request.IsReport]

namespace Surroundings

variable {u v w : Surroundings}

/-- Nothing happens to files and stores, or what a request is to delete is deleted. -/
structure Sweeps (u : Surroundings) (r : Request) (w : Surroundings) : Prop where
  files : w.files = u.files ∨ ∃ path, r = .remove path ∧ u.files.remove path = .ok w.files
  versions : ∀ id, u.Owns id → w.Owns id ∧ ∀ name,
    w.versionsOf id name = u.versionsOf id name ∨
      r = .deleteVersions id name ∧ w.versionsOf id name = []

theorem Sweeps.refl (u : Surroundings) (r : Request) : u.Sweeps r u :=
  ⟨.inl rfl, fun _ h => ⟨h, fun _ => .inl rfl⟩⟩

theorem files_deleteVersions (u : Surroundings) (store : StoreId) (name : String) :
    (u.deleteVersions store name).1.files = u.files :=
  deleteVersions_keeps (·.files) name (files_receive u store .delete) fun _ _ => rfl

theorem versions_deleteVersions {id : StoreId} (h : u.Owns id) (store : StoreId) (name : String) :
    (u.deleteVersions store name).1.Owns id ∧ ∀ other,
      (u.deleteVersions store name).1.versionsOf id other = u.versionsOf id other ∨
        Request.deleteVersions store name = .deleteVersions id other ∧
          (u.deleteVersions store name).1.versionsOf id other = [] := by
  have hsame (hs : (u.deleteVersions store name).1.shelf? id = u.shelf? id) :
      (u.deleteVersions store name).1.Owns id ∧ ∀ other,
        (u.deleteVersions store name).1.versionsOf id other = u.versionsOf id other ∨
          Request.deleteVersions store name = .deleteVersions id other ∧
            (u.deleteVersions store name).1.versionsOf id other = [] :=
    ⟨h.of_shelf? hs, fun other => .inl (versionsOf_congr hs other)⟩
  cases shelf?_deleteVersions_owned h store name with
  | inl hfailed => exact hsame hfailed.2
  | inr hdone =>
    by_cases hid : store = id
    · subst hid
      rw [if_pos rfl] at hdone
      refine ⟨h.map (fun m => (m.delete name).1) hdone, fun other => ?_⟩
      have hversions := versionsOf_deleted hdone other
      by_cases hother : other = name
      · subst hother
        exact .inr ⟨rfl, hversions.trans (if_pos rfl)⟩
      · exact .inl (hversions.trans (if_neg hother))
    · rw [if_neg hid] at hdone
      exact hsame hdone

theorem sweeps_answerIn (h : u.isCancelled = true) {r : Request} (hr : r.Acts ∨ r.IsReport)
    (t : Turn) : u.Sweeps r (u.answerIn t r).1 := by
  cases r with
  | remove path =>
    rw [answerIn, removeFile]
    split
    · exact .refl u _
    · split
      case h_1 files hremove =>
        exact ⟨.inr ⟨path, rfl, hremove⟩, fun _ h => ⟨h, fun _ => .inl rfl⟩⟩
      case h_2 => exact .refl u _
  | deleteVersions store name =>
    exact ⟨.inl (files_deleteVersions u store name),
      fun id h => versions_deleteVersions h store name⟩
  | trial work limit =>
    rw [answerIn, Surroundings.trial, if_pos h]
    exact .refl u _
  | report event => exact ⟨.inl rfl, fun _ h => ⟨h, fun _ => .inl rfl⟩⟩
  | _ => cases hr <;> contradiction

theorem schedule_cancelIf (u : Surroundings) (b : Bool) : (u.cancelIf b).schedule = u.schedule := by
  cases b <;> rfl

theorem schedule_deleteVersions (u : Surroundings) (store : StoreId) (name : String) :
    (u.deleteVersions store name).1.schedule = u.schedule := by
  have hreceived : (u.receive store .delete).1.schedule = u.schedule := by
    cases hd : u.stores[store]? with
    | none => rw [receive, hd]
    | some d =>
      rw [receive_of_some hd]
      exact schedule_cancelIf _ _
  exact deleteVersions_keeps (·.schedule) name hreceived fun _ _ => rfl

theorem Alone.act (h : u.Alone) (hover : Over Surroundings.answer u) {r : Request}
    (hr : r.Acts ∨ r.IsReport) : ((Surroundings.answer r).run u).2.Alone := by
  have hturned : u.turned.isCancelled = true := hover
  suffices ((Surroundings.answer r).run u).2.schedule = u.turned.schedule by
    intro k
    rw [this, (follows_turned u).schedule]
    exact h k
  rw [run_answer]
  cases r with
  | remove path => exact removeFile_keeps (·.schedule) (fun _ _ => rfl) _ path _
  | deleteVersions store name => exact schedule_deleteVersions u.turned store name
  | trial work limit => rw [answerIn, Surroundings.trial, if_pos hturned]
  | report event => rfl
  | _ => cases hr <;> contradiction

theorem Alone.sweeps (h : u.Alone) (hover : Over Surroundings.answer u) {r : Request}
    (hr : r.Acts ∨ r.IsReport) : u.Sweeps r ((Surroundings.answer r).run u).2 := by
  have hturned : u.turned.isCancelled = true := hover
  obtain ⟨hfiles, hversions⟩ := sweeps_answerIn hturned hr (u.schedule u.clock)
  have hshelf (id : StoreId) : u.turned.shelf? id = u.shelf? id := shelf?_congr (stores_turned u)
  rw [run_answer]
  rw [h.files_turned] at hfiles
  refine ⟨hfiles, fun id howns => ?_⟩
  obtain ⟨howns', hnames⟩ := hversions id (howns.of_shelf? (hshelf id))
  refine ⟨howns', fun name => ?_⟩
  rw [← versionsOf_congr (hshelf id) name]
  exact hnames name

theorem Sweeps.trails (h : u.Sweeps r v) {d : Request} (hd : r.Trails d) (h' : v.Sweeps d w) :
    u.Sweeps r w := by
  refine ⟨?_, fun id howns => ?_⟩
  · cases h'.files with
    | inl hsame =>
      rw [hsame]
      exact h.files
    | inr hremoved =>
      obtain ⟨path, rfl, -⟩ := hremoved
      cases hd
  · obtain ⟨hv, hnames⟩ := h.versions id howns
    obtain ⟨hw, hnames'⟩ := h'.versions id hv
    refine ⟨hw, fun name => ?_⟩
    cases hnames' name with
    | inl hsame =>
      rw [hsame]
      exact hnames name
    | inr hdeleted =>
      obtain ⟨rfl, hnone⟩ := hdeleted
      exact .inr ⟨hd, hnone⟩

/-- A request has swept in a run that is cancelled, and nobody else does anything to the files. -/
structure Swept (u : Surroundings) (r : Request) (v : Surroundings) : Prop where
  cancelled : Over Surroundings.answer v
  alone : v.Alone
  sweeps : u.Sweeps r v

theorem Alone.swept (h : u.Alone) (hover : Over Surroundings.answer u) {r : Request}
    (hr : r.Acts ∨ r.IsReport) : u.Swept r ((Surroundings.answer r).run u).2 :=
  ⟨lasting_answer r u hover, h.act hover hr, h.sweeps hover hr⟩

theorem Swept.trails (h : u.Swept r v) {d : Request} (hd : r.Trails d) :
    u.Swept r ((Surroundings.answer d).run v).2 := by
  obtain ⟨hover, halone, hsweeps⟩ := h.alone.swept h.cancelled (acts_or_isReport_of_trails hd)
  exact ⟨hover, halone, h.sweeps.trails hd hsweeps⟩

theorem declines_answer : Declines Surroundings.answer := by
  intro work limit u hover
  have hturned : u.turned.isCancelled = true := hover
  rw [run_answer, answerIn, Surroundings.trial, if_pos hturned]

end Surroundings

section run

variable {r : Runner} {w : Surroundings} {m : Moment Surroundings}
variable {pre post : List (Moment Surroundings)}

/-- Once a run is cancelled, it is cancelled for the rest of it. When it is to act for a file from
then on, it fails without another row; at most the cleaning up for this file is done, and only if
this is what was to be done. -/
theorem cancelled_run_only_cleans_up (hr : Measures r s)
    (hm : (r.run .empty).moments Surroundings.answer w = pre ++ m :: post)
    (hover : Over Surroundings.answer m.before) :
    (∀ m' ∈ post, Over Surroundings.answer m'.before) ∧
      (m.request.Acts →
        (∃ f, FoundReady s w f ∧ m.request.For s f) ∧
        (∀ m' ∈ post, m.request.Trails m'.request) ∧
        linesOf (m :: post) = [] ∧
        (∃ t, (r.run .empty).result Surroundings.answer w = some (t, .error .cancelled)) ∧
        (m.before.Alone → m.before.Sweeps m.request
          ((r.run .empty).final Surroundings.answer w))) := by
  have hlasting := Surroundings.lasting_answer
  obtain ⟨hof, rest, hpost, -, hfinal⟩ := Dialogue.exists_rest hm
  have hafter : m.after = ((Surroundings.answer m.request).run m.before).2 :=
    congrArg Moment.after hof
  have hbegun : Over Surroundings.answer m.after := hafter ▸ hlasting m.request m.before hover
  refine ⟨?_, fun hacts => ?_⟩
  · rw [← hpost]
    exact (Dialogue.invariant_moments (fun d u (_ : True) h => hlasting d u h)
      (fun _ _ => trivial) hbegun).1
  · obtain ⟨htrails, hresult⟩ :=
      (halts_run hlasting Surroundings.declines_answer hr w).tallied hm hacts hover
    have hmem : m ∈ r.session.dialogue.moments Surroundings.answer w := by
      apply Dialogue.mem_moments_of_tallied
      rw [← run, hm]
      simp
    refine ⟨(meets_run_attends hr w).moments m hmem hacts, htrails, ?_, hresult, fun halone => ?_⟩
    · refine List.filterMap_eq_nil_iff.mpr (List.forall_mem_cons.mpr ⟨line?_of_acts hacts, ?_⟩)
      exact fun m' hm' => line?_of_trails (htrails m' hm')
    · have hswept : m.before.Swept m.request m.after := by
        rw [hafter]
        exact halone.swept hover (.inl hacts)
      have hkind : ∀ m' ∈ rest.moments Surroundings.answer m.after, m.request.Trails m'.request :=
        hpost ▸ htrails
      rw [← hfinal]
      exact (Dialogue.invariant_moments (fun _ _ hd h => h.trails hd) hkind hswept).2.sweeps

end run

def sampleStopped : Surroundings :=
  { Surroundings.calm sampleLinked with
    stores := #[.calm sampleLittered], source := ⟨true, true⟩ }

theorem cancelled_run_only_cleans_up_from_the_start :
    ∃ pre m post, ((mounted sampleSettings).run .empty).moments Surroundings.answer sampleStopped =
        pre ++ m :: post ∧
      m.request = .remove "dst/a" ∧ Over Surroundings.answer m.before ∧
      (∀ m' ∈ post, m.request.Trails m'.request) ∧
      ∃ t, ((mounted sampleSettings).run .empty).result Surroundings.answer sampleStopped =
        some (t, .error .cancelled) := by
  have hlength : 8 < (((mounted sampleSettings).run .empty).moments Surroundings.answer
      sampleStopped).length := by decide +kernel
  have hcut := (List.take_append_drop 8 (((mounted sampleSettings).run .empty).moments
    Surroundings.answer sampleStopped)).symm
  rw [List.drop_eq_getElem_cons hlength] at hcut
  have hrequest : ((((mounted sampleSettings).run .empty).moments Surroundings.answer
      sampleStopped)[8]).request = .remove "dst/a" := rfl
  have hover : Over Surroundings.answer ((((mounted sampleSettings).run .empty).moments
      Surroundings.answer sampleStopped)[8]).before := rfl
  obtain ⟨-, hacts⟩ := cancelled_run_only_cleans_up (.inl rfl) hcut hover
  obtain ⟨-, htrails, -, hresult, -⟩ := hacts (by rw [hrequest]; trivial)
  exact ⟨_, _, _, hcut, hrequest, hover, htrails, hresult⟩

/-- A run that is cancelled before it starts removes what stands at the destination of its first
file, or deletes what a store holds of it. -/
theorem cancelled_run_cleans_up :
    Over Surroundings.answer sampleStopped ∧
      ((mounted sampleSettings).run .empty).result Surroundings.answer sampleStopped =
        some (.empty, .error .cancelled) ∧
      sampleStopped.files.lookup? 2 "a" = some 4 ∧
      (((mounted sampleSettings).run .empty).final Surroundings.answer
        sampleStopped).files.lookup? 2 "a" = none ∧
      ((direct sampleSettings 0).run .empty).result Surroundings.answer sampleStopped =
        some (.empty, .error .cancelled) ∧
      sampleStopped.versionsOf 0 "a" = [⟨"a", ⟨#[9]⟩, 1⟩, ⟨"a", ⟨#[7, 7]⟩, 2⟩] ∧
      (((direct sampleSettings 0).run .empty).final Surroundings.answer
        sampleStopped).versionsOf 0 "a" = [] := by
  exact ⟨rfl, by decide +kernel, by decide +kernel, by decide +kernel, by decide +kernel,
    by decide +kernel, by decide +kernel⟩

end StorageTrials

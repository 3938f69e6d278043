import StorageTrials.Proofs.RowAccounting

namespace StorageTrials.Runner

variable {σ : Type} {answer : (r : Request) → StateM σ r.Answer} {kind : Moment σ → Prop}
variable {inv : σ → Prop} {w : σ} {backend : Backend} {s : Settings}
variable {runFile : SourceFile → Attempt Bool} {files : List SourceFile}

theorem meets_trials {before after : σ → Prop} {trial : Nat → Attempt Bool}
    (hba : ∀ w, after w → before w)
    (h : ∀ i w, before w → (trial i).dialogue.Meets answer kind w fun _ w' => after w')
    (count i : Nat) (completed : Bool) (hw : before w) (hc : count = 0 → after w) :
    (trials trial count i completed).dialogue.Meets answer kind w fun _ w' => after w' := by
  induction count generalizing i completed w with
  | zero => exact .done (hc rfl)
  | succ n ih =>
    rw [trials]
    refine .attempt_bind ((h i w hw).weaken fun r w' hw' => ?_)
    cases r with
    | error e => exact hw'
    | ok b => exact ih _ _ (hba w' hw') fun _ => hw'

/-- Trials that are all completed. -/
theorem meets_trials_ok {before after : σ → Prop} {trial : Nat → Attempt Bool}
    (hba : ∀ w, after w → before w)
    (h : ∀ i w, before w →
      (trial i).dialogue.Meets answer kind w fun r w' => r = .ok true ∧ after w')
    (count i : Nat) (completed : Bool) (hw : before w) (hc : count = 0 → after w) :
    (trials trial count i completed).dialogue.Meets answer kind w
      fun r w' => r = .ok completed ∧ after w' := by
  induction count generalizing i completed w with
  | zero => exact .done ⟨rfl, hc rfl⟩
  | succ n ih =>
    rw [trials]
    refine .attempt_bind ((h i w hw).weaken fun r w' hpost => ?_)
    obtain ⟨rfl, hw'⟩ := hpost
    change (trials trial n (i + 1) (completed && true)).dialogue.Meets _ _ _ _
    rw [Bool.and_true]
    exact ih _ _ (hba w' hw') fun _ => hw'

theorem asks_trials {kind : Request → Prop} {trial : Nat → Attempt Bool}
    (h : ∀ i, (trial i).dialogue.Asks kind) (count i : Nat) (completed : Bool) :
    (trials trial count i completed).dialogue.Asks kind := by
  induction count generalizing i completed with
  | zero => trivial
  | succ n ih => exact Attempt.asks_bind (h i) fun _ => ih _ _

theorem asks_conclude (backend : Backend) (file : String) (r : Except Fault Bool) :
    (conclude backend file r).dialogue.Asks Request.IsReport := by
  cases r with
  | ok b =>
    obtain ⟨e, he⟩ := conclude_ok backend file b
    rw [he]
    exact ⟨trivial, fun _ => trivial⟩
  | error e => cases e <;> first | trivial | exact ⟨trivial, fun _ => trivial⟩

theorem asks_settle (place : TrialPlace) (op : Operation) (r : Except Fault Sample) :
    (settle place op r).dialogue.Asks Request.Tells := by
  cases r with
  | ok sample =>
    rw [settle_ok]
    exact ⟨trivial, fun x => by cases x <;> trivial⟩
  | error e =>
    by_cases he : e = .cancelled
    · rw [he]
      trivial
    · rw [settle_of_ne_cancelled place op he]
      exact ⟨trivial, fun _ => trivial⟩

section mounted

variable {kind : Request → Prop} {f : SourceFile} {dir dest : String}
variable (htell : ∀ r, r.Tells → kind r)
include htell

theorem asks_mountedWrite_of (hremove : kind (.remove dest))
    (hcopy : kind (.trial (.copy f.path dest) s.timeout)) (i : Nat) :
    (mountedWrite s f dest i).dialogue.Asks kind := by
  have hclear := asks_removeIfPresent_of hremove fun event => htell (.report event) trivial
  refine Attempt.asks_bind (Dialogue.asks_bind hclear fun _ => trivial) fun _ => ?_
  refine Attempt.asks_bind ⟨hcopy, fun _ => trivial⟩ fun result => ?_
  exact Dialogue.asks_mono htell (asks_settle _ _ result)

theorem asks_mountedRead_of (hdrain : kind (.trial (.drain dest) s.timeout)) (i : Nat) :
    (mountedRead s f dest i).dialogue.Asks kind :=
  Attempt.asks_bind ⟨hdrain, fun _ => trivial⟩ fun result =>
    Dialogue.asks_mono htell (asks_settle _ _ result)

theorem asks_mountedFile_of (hdir : s.destinationDir = some dir)
    (hremove : kind (.remove (Path.join dir f.name)))
    (hcopy : kind (.trial (.copy f.path (Path.join dir f.name)) s.timeout))
    (hdrain : kind (.trial (.drain (Path.join dir f.name)) s.timeout))
    (hinspect : ∀ path, kind (.inspect path)) : (mountedFile s f).dialogue.Asks kind := by
  rw [mountedFile, hdir]
  refine Attempt.asks_bind (asks_trials (asks_mountedWrite_of htell hremove hcopy) _ 0 true)
    fun written => ?_
  have hcopied := asks_isCopied_of hinspect (fun event => htell (.report event) trivial) f
    (Path.join dir f.name)
  refine Attempt.asks_bind (Dialogue.asks_bind hcopied fun _ => trivial) fun b => ?_
  cases b with
  | false => trivial
  | true => exact asks_trials (asks_mountedRead_of htell hdrain) _ 0 written

end mounted

variable (answer kind inv) in
/-- What a run says between its trials preserves an invariant. -/
structure Narrates : Prop where
  report : ∀ event, Request.Preserves answer kind inv (.report event)
  header : Request.Preserves answer kind inv (.print .header)
  footer : Request.Preserves answer kind inv (.print .footer)

namespace Narrates

theorem meets_reports (h : Narrates answer kind inv) {α : Type} {d : Dialogue α}
    (hd : d.Asks Request.IsReport) (hw : inv w) : d.Meets answer kind w fun _ w' => inv w' := by
  have hasks : d.Asks (Request.Preserves answer kind inv) := by
    refine Dialogue.asks_mono (fun r hr => ?_) hd
    cases r with
    | report event => exact h.report event
    | _ => exact hr.elim
  exact hasks.meets hw

theorem meets_print {line : Line} (h : Request.Preserves answer kind inv (.print line))
    (hw : inv w) :
    (Attempt.system (Ask.print line)).dialogue.Meets answer kind w fun _ w' => inv w' := by
  obtain ⟨hkind, hafter⟩ := h w hw
  refine .ask hkind ?_
  cases ((answer (.print line)).run w).1 <;> exact .done hafter

theorem meets_runFiles (h : Narrates answer kind inv)
    (hfile : ∀ f ∈ files, f.isReady = true → ∀ w, inv w →
      (runFile f).dialogue.Meets answer kind w fun _ w' => inv w')
    (completed : Bool) (hw : inv w) :
    (runFiles backend runFile files completed).dialogue.Meets answer kind w fun _ w' => inv w' := by
  induction files generalizing completed w with
  | nil => exact .done hw
  | cons f fs ih =>
    obtain ⟨hf, hfs⟩ := List.forall_mem_cons.mp hfile
    rw [runFiles]
    cases hfault : f.fault? with
    | some cause =>
      obtain ⟨hkind, hafter⟩ := h.report (.skippingFile backend f.name cause) w hw
      exact .ask hkind (ih hfs completed hafter)
    | none =>
      have hready := (isReady_iff_fault?_eq_none f).mpr hfault
      refine .lift_bind ((hf hready w hw).weaken fun r w₁ h₁ => ?_)
      refine .attempt_bind ((h.meets_reports (asks_conclude backend f.name r) h₁).weaken
        fun r₂ w₂ h₂ => ?_)
      cases r₂ with
      | error e => exact h₂
      | ok b => exact ih hfs _ h₂

theorem meets_printFiles (h : Narrates answer kind inv)
    (hfile : ∀ f ∈ files, f.isReady = true → ∀ w, inv w →
      (runFile f).dialogue.Meets answer kind w fun _ w' => inv w') (hw : inv w) :
    (printFiles backend runFile files).dialogue.Meets answer kind w fun _ w' => inv w' := by
  refine .attempt_bind ((meets_print h.header hw).weaken fun r w₁ h₁ => ?_)
  cases r with
  | error e => exact h₁
  | ok _ =>
    refine .attempt_bind ((h.meets_runFiles hfile true h₁).weaken fun r w₂ h₂ => ?_)
    cases r with
    | error e => exact h₂
    | ok completed =>
      refine .attempt_bind ((meets_print h.footer h₂).weaken fun r w₃ h₃ => ?_)
      cases r with
      | error e => exact h₃
      | ok _ => exact .done h₃

theorem meets_runAll (h : Narrates answer kind inv)
    (hlook : ∀ r, Looks r → Request.Preserves answer kind inv r)
    (hfile : ∀ files, (resolveSources s.sourceDir s.files).dialogue.result answer w = .ok files →
      ∀ f ∈ files, f.isReady = true → ∀ w, inv w →
        (runFile f).dialogue.Meets answer kind w fun _ w' => inv w') (hw : inv w) :
    (runAll backend s runFile).dialogue.Meets answer kind w fun _ w' => inv w' := by
  have hresolve := (Dialogue.asks_mono hlook (asks_resolveSources s.sourceDir s.files)).meets hw
  refine .attempt_bind (hresolve.with_result.weaken fun r w₁ hpost => ?_)
  obtain ⟨hr, h₁⟩ := hpost
  cases r with
  | error e => exact h₁
  | ok files =>
    obtain ⟨hkind, h₂⟩ := h.report (.startingRun backend files.length
      (files.filter (·.isReady)).length s.loopCount) w₁ h₁
    exact .ask hkind (h.meets_printFiles (hfile files hr.symm) h₂)

end Narrates

variable (answer kind runFile files) in
/-- The trials of every file are completed, and every line is printed. The invariant tells which
files have been run through. -/
structure Succeeds (inv : List SourceFile → σ → Prop) : Prop where
  report : ∀ done event, Request.Preserves answer kind (inv done) (.report event)
  columns : ∀ done texts w, inv done w → kind (.of answer (.print (.columns texts)) w) ∧
    ((answer (.print (.columns texts))).run w).1 = .ok () ∧
    inv done ((answer (.print (.columns texts))).run w).2
  skip : ∀ done, ∀ f ∈ files, f.isReady = false → ∀ w, inv done w → inv (done ++ [f]) w
  file : ∀ done, ∀ f ∈ files, f.isReady = true → ∀ w, inv done w →
    (runFile f).dialogue.Meets answer kind w fun r w' => r = .ok true ∧ inv (done ++ [f]) w'

namespace Succeeds

variable {inv : List SourceFile → σ → Prop}

theorem of_cons {f : SourceFile} {fs : List SourceFile}
    (h : Succeeds answer kind runFile (f :: fs) inv) : Succeeds answer kind runFile fs inv where
  report := h.report
  columns := h.columns
  skip done g hg := h.skip done g (List.mem_cons_of_mem _ hg)
  file done g hg := h.file done g (List.mem_cons_of_mem _ hg)

theorem meets_runFiles (h : Succeeds answer kind runFile files inv) (done : List SourceFile)
    (completed : Bool) (hw : inv done w) :
    (runFiles backend runFile files completed).dialogue.Meets answer kind w
      fun r w' => r = .ok completed ∧ inv (done ++ files) w' := by
  induction files generalizing done w with
  | nil => exact .done ⟨rfl, by rwa [List.append_nil]⟩
  | cons f fs ih =>
    rw [runFiles, List.append_cons]
    cases hfault : f.fault? with
    | some cause =>
      have hnot := isReady_eq_false_of_fault? hfault
      obtain ⟨hkind, h₁⟩ := h.report done (.skippingFile backend f.name cause) w hw
      exact .ask hkind (ih h.of_cons _ (h.skip done f List.mem_cons_self hnot _ h₁))
    | none =>
      have hr := (isReady_iff_fault?_eq_none f).mpr hfault
      refine .lift_bind ((h.file done f List.mem_cons_self hr w hw).weaken fun r w₁ hpost => ?_)
      obtain ⟨rfl, h₁⟩ := hpost
      obtain ⟨hkind, h₂⟩ := h.report _ (.fileCompleted backend f.name) w₁ h₁
      refine .ask hkind ?_
      change (runFiles backend runFile fs (completed && true)).dialogue.Meets _ _ _ _
      rw [Bool.and_true]
      exact ih h.of_cons _ h₂

theorem meets_columns (h : Succeeds answer kind runFile files inv) {α : Type} (texts : List String)
    {done : List SourceFile} {g : Unit → Attempt α} {post : Except Fault α → σ → Prop}
    (hw : inv done w)
    (hg : ∀ w', inv done w' → (g ()).dialogue.Meets answer kind w' post) :
    (Attempt.system (Ask.print (.columns texts)) >>= g).dialogue.Meets answer kind w post := by
  obtain ⟨hkind, hok, hafter⟩ := h.columns done texts w hw
  refine .attempt_bind (.ask hkind ?_)
  rw [hok]
  exact .done (hg _ hafter)

theorem meets_printFiles (h : Succeeds answer kind runFile files inv) (hw : inv [] w) :
    (printFiles backend runFile files).dialogue.Meets answer kind w
      fun r w' => r = .ok true ∧ inv files w' := by
  refine h.meets_columns _ hw fun w₁ h₁ => ?_
  refine .attempt_bind ((h.meets_runFiles [] true h₁).weaken fun r w₂ hpost => ?_)
  obtain ⟨rfl, h₂⟩ := hpost
  exact h.meets_columns _ h₂ fun w₃ h₃ => .done ⟨rfl, h₃⟩

end Succeeds

end StorageTrials.Runner

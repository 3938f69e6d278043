import StorageTrials.Proofs.Restoring

namespace StorageTrials

open FileSystem Invocation Runner Surroundings

/-- The lines that a dialogue asks to be printed, its result and its last state are as required. -/
def Dialogue.Puts {σ α : Type} (answer : (r : Request) → StateM σ r.Answer) (d : Dialogue α) (w : σ)
    (post : List Line → α → σ → Prop) : Prop :=
  post (linesOf (d.moments answer w)) (d.result answer w) (d.final answer w)

namespace Dialogue.Puts

variable {σ α β : Type} {answer : (r : Request) → StateM σ r.Answer} {w w' : σ}
variable {kind : Moment σ → Prop}

theorem done {a : α} {post : List Line → α → σ → Prop} (h : post [] a w) :
    (Dialogue.done a).Puts answer w post := h

theorem weaken {d : Dialogue α} {post post' : List Line → α → σ → Prop} (h : d.Puts answer w post)
    (hp : ∀ ls a w', post ls a w' → post' ls a w') : d.Puts answer w post' :=
  hp _ _ _ h

theorem of_passes {d : Dialogue α} {ms : List (Moment σ)} {a : α} {post : List Line → α → σ → Prop}
    (h : d.Passes answer w ms a w') (hp : post (linesOf ms) a w') : d.Puts answer w post := by
  obtain ⟨rfl, rfl, rfl⟩ := h
  exact hp

theorem of_meets {d : Dialogue α} {post : α → σ → Prop} (h : d.Meets answer kind w post)
    (hk : ∀ m, kind m → m.line? = none) :
    d.Puts answer w fun ls a w' => ls = [] ∧ post a w' :=
  ⟨List.filterMap_eq_nil_iff.mpr fun m hm => hk m (h.moments m hm), h.ends⟩

theorem bind {d : Dialogue α} {f : α → Dialogue β} {post : List Line → β → σ → Prop}
    (h : d.Puts answer w fun ls a w' => (f a).Puts answer w' fun ls' => post (ls ++ ls')) :
    (d.bind f).Puts answer w post := by
  unfold Puts at h ⊢
  rwa [moments_bind, linesOf_append, result_bind, final_bind]

theorem option_bind {d : OptionT Dialogue α} {f : α → OptionT Dialogue β}
    {post : List Line → Option β → σ → Prop}
    (h : d.run.Puts answer w fun ls r w' =>
      match r with
      | some x => (f x).run.Puts answer w' fun ls' => post (ls ++ ls')
      | none => post ls none w') :
    (d >>= f).run.Puts answer w post := by
  refine .bind (h.weaken fun ls r w' hr => ?_)
  cases r with
  | some x => exact hr
  | none =>
    refine .done ?_
    rwa [List.append_nil]

theorem option_lift {d : Dialogue α} {f : α → OptionT Dialogue β}
    {post : List Line → Option β → σ → Prop}
    (h : d.Puts answer w fun ls a w' => (f a).run.Puts answer w' fun ls' => post (ls ++ ls')) :
    ((liftM d : OptionT Dialogue α) >>= f).run.Puts answer w post := by
  refine .option_bind (.bind (h.weaken fun ls a w' ha => .done ?_))
  rwa [List.append_nil]

theorem option_quiet {d : Dialogue α} {f : α → OptionT Dialogue β}
    {post : List Line → Option β → σ → Prop} (hk : ∀ m, kind m → m.line? = none)
    (h : d.Meets answer kind w fun a w' => (f a).run.Puts answer w' post) :
    ((liftM d : OptionT Dialogue α) >>= f).run.Puts answer w post := by
  refine .option_lift ((of_meets h hk).weaken fun ls a w' hpost => ?_)
  obtain ⟨rfl, ha⟩ := hpost
  exact ha

theorem option_ask {r : Request} {f : r.Answer → OptionT Dialogue β}
    {post : List Line → Option β → σ → Prop} (hq : (Moment.of answer r w).line? = none)
    (h : (f ((answer r).run w).1).run.Puts answer ((answer r).run w).2 post) :
    ((liftM (Dialogue.ask r .done) : OptionT Dialogue r.Answer) >>= f).run.Puts answer w post := by
  have hask : (Dialogue.ask r .done).Meets answer (fun m => m.line? = none) w fun a w' =>
      (f a).run.Puts answer w' post := .ask hq (.done h)
  exact .option_quiet (fun _ => id) hask

end Dialogue.Puts

open Dialogue

variable {w w' u : Surroundings} {s : Settings} {backend : Backend}

namespace Surroundings

/-- Surroundings of an invocation whose statistics have been opened in a tree. -/
structure Opened (fs : FileSystem) (outfile : Option String) (u : Surroundings) : Prop where
  undisturbed : u.Undisturbed
  files : u.files = fs.opened outfile
  standard : outfile = none → u.output = .standard
  file : ∀ path, outfile = some path → ∃ fs' id, fs.create path = .ok (fs', id) ∧
    u.output = .file id

theorem Opened.ne_kept {fs : FileSystem} {outfile : Option String} (h : Opened fs outfile u)
    (k : KeptStream) : u.output ≠ .kept k := by
  intro hk
  cases outfile with
  | none => cases (h.standard rfl).symm.trans hk
  | some path =>
    obtain ⟨fs', id, -, hout⟩ := h.file path rfl
    cases hout.symm.trans hk

structure Unswerving (w : Surroundings) : Prop where
  undisturbed : w.Undisturbed
  output : ∀ k, w.output ≠ .kept k

theorem Unswerving.proceed {fs : FileSystem} (h : w.Unswerving) (hw : w.Proceeds fs w') :
    w'.Unswerving :=
  ⟨hw.undisturbed, fun k hk => h.output k (hw.output.symm.trans hk)⟩

theorem preserves_unswerving {r : Request} (hr : r.IsLocal) :
    r.Preserves answer (fun _ => True) Unswerving := by
  intro w h
  refine ⟨trivial, ?_⟩
  cases r with
  | inspect path | probe path | report event => exact h.proceed (h.undisturbed.idle trivial)
  | remove path =>
    obtain ⟨fs, -, -, hw⟩ | ⟨e, -, -, hw⟩ := h.undisturbed.run_remove path
    · exact h.proceed hw
    · exact h.proceed hw
  | trial work limit =>
    cases work with
    | copy source dest => exact h.proceed (h.undisturbed.run_trial limit rfl).2
    | drain path => exact h.proceed (h.undisturbed.run_trial limit rfl).2
    | _ => exact hr.elim
  | print line =>
    rw [run_answer, h.undisturbed.turned, answerIn, Surroundings.print]
    cases ho : w.output with
    | kept k => exact absurd ho (h.output k)
    | standard | file id => exact h.proceed ⟨rfl, ho.symm, h.undisturbed.congr rfl rfl rfl⟩
  | _ => exact hr.elim

end Surroundings

theorem Moment.Still.line? {m : Moment Surroundings} (h : m.Still) : m.line? = none := by
  have hidle := h.idle
  unfold Moment.line?
  split
  · rename_i line hr
    rw [hr] at hidle
    exact hidle.elim
  · rfl

def Settings.mountedRecords (s : Settings) (u : Surroundings) : List Record :=
  recordsIn ((mounted s).session.dialogue.moments answer u)

def Settings.afterMounted (s : Settings) (u : Surroundings) : Surroundings :=
  (mounted s).session.dialogue.final answer u

def Settings.missed (s : Settings) (u : Surroundings) : Nat :=
  if (mounted s).session.dialogue.result answer u = .ok true then 0 else 1

/-- What a part of an invocation comes to in which there is one run, and nothing after it but
reports. If the bytes of the run stay in range, there is a result unless a total of times has left
its range; if not, the run breaks off. -/
inductive Outcome {α : Type} (s : Settings) (u : Surroundings) (good : α → Prop) (ls : List Line)
    (r : Option α) (v : Surroundings) : Prop
  | whole (fit : BytesFit (s.mountedRecords u))
      (lines : ls = linesOf ((mounted s).session.dialogue.moments answer u))
      (proceeds : (s.afterMounted u).Proceeds (s.afterMounted u).files v)
      (result : Fits (s.mountedRecords u) → ∃ a, r = some a ∧ good a)
      (overflow : ¬ Fits (s.mountedRecords u) → r = none)
  | broken (full : ¬ BytesFit (s.mountedRecords u)) (rows : ¬ BytesFit (rowsOf ls))
      (result : r = none)

theorem Surroundings.Unswerving.afterMounted (h : u.Unswerving) :
    (s.afterMounted u).Unswerving :=
  (Dialogue.Asks.meets (Dialogue.asks_mono (fun _ => preserves_unswerving) (asks_mounted_local s))
    h).ends

theorem puts_runOne (h : u.Unswerving) :
    (runOne (mounted s)).run.Puts answer u
      (Outcome s u fun summary => summary.completed = decide (s.missed u = 0)) := by
  obtain ⟨hfit, t, htally, hpasses⟩ | ⟨front, m, -, -, -, -, -, hfull, hpasses⟩ :=
    (mounted s).session.dialogue.ends_or_breaks answer u
  · refine .option_bind (.of_passes hpasses ?_)
    have hend : (s.afterMounted u).Undisturbed := h.afterMounted.undisturbed
    have hfits := t.isSome_summary? htally (mounted s).backend.name (decide (s.missed u = 0))
    have hcompleted : decide (s.missed u = 0) =
        decide ((mounted s).session.dialogue.result answer u = .ok true) := by
      unfold Settings.missed
      split <;> simp [*]
    refine .option_quiet (fun _ => Moment.Still.line?)
      ((hend.meets_reports (asks_judge _ _)).weaken fun completed v hpost => ?_)
    obtain ⟨hjudged, hv⟩ := hpost
    rw [result_judge, ← hcompleted] at hjudged
    subst hjudged
    refine .option_bind (.done ?_)
    cases hsummary : t.summary? (mounted s).backend.name (decide (s.missed u = 0)) with
    | none =>
      rw [hsummary] at hfits
      refine .whole hfit (by simp) hv (fun hf => ?_) fun _ => rfl
      exact absurd (hfits.mpr hf) Bool.false_ne_true
    | some summary =>
      rw [hsummary] at hfits
      refine .option_quiet (fun _ => Moment.Still.line?)
        ((hv.undisturbed.meets_reports (asks_reportGroups _ _)).weaken fun _ v' hpost => .done ?_)
      refine .whole hfit (by simp) (hv.trans (hv.files ▸ hpost.2)) (fun _ => ?_) fun hnot => ?_
      · exact ⟨summary, rfl, t.completed_of_summary? hsummary⟩
      · exact absurd (hfits.mp rfl) hnot
  · refine .option_bind (.of_passes hpasses (.broken ?_ (fun hrows => ?_) rfl))
    · exact Dialogue.result_tallied_eq_none_iff.mp hpasses.result
    · exact hfull (hrows.sublist (recordsIn_sublist _))

theorem puts_runEach (h : w.Unswerving) :
    (runEach [mounted s] 0 []).run.Puts answer w fun ls r v =>
      ∃ u, w.Proceeds w.files u ∧ Outcome s u (·.1 = s.missed u) ls r v := by
  have hidle := h.undisturbed.idle (r := .isCancelled) trivial
  refine .option_ask rfl ?_
  rw [h.undisturbed.run_isCancelled]
  refine .option_bind ((puts_runOne (h.proceed hidle)).weaken fun ls r v hpost => ?_)
  cases hpost with
  | broken full rows result =>
    subst result
    exact ⟨_, hidle, .broken full rows rfl⟩
  | whole fit lines proceeds result overflow =>
    cases r with
    | none =>
      refine ⟨_, hidle, .whole fit lines proceeds (fun hf => ?_) fun _ => rfl⟩
      obtain ⟨summary, hnone, -⟩ := result hf
      cases hnone
    | some summary =>
      refine .done ⟨_, hidle, .whole fit ?_ proceeds (fun hf => ?_) fun hnot => ?_⟩
      · rw [List.append_nil]
        exact lines
      · obtain ⟨a, ha, hcompleted⟩ := result hf
        cases ha
        refine ⟨_, rfl, ?_⟩
        rw [hcompleted, Settings.missed]
        split <;> simp
      · cases overflow hnot

theorem meets_save (h : w.Undisturbed) (summary : Summary) (path? : Option String) :
    (save summary path?).Meets answer (fun m => m.line? = none) w fun _ v =>
      v.files = w.files.saved path? summary.written := by
  cases path? with
  | none => exact .done rfl
  | some path =>
    obtain ⟨-, hw⟩ := h.run_saveText path summary.written
    have hreport (event : Event) : (Ask.report event).Meets answer (fun m => m.line? = none)
        ((answer (.saveText path summary.written)).run w).2 fun _ v =>
          v.files = w.files.saved (some path) summary.written :=
      .ask rfl (.done ((hw.undisturbed.idle (r := .report event) trivial).files.trans hw.files))
    refine .ask_bind rfl ?_
    cases ((answer (.saveText path summary.written)).run w).1 with
    | ok _ => exact hreport _
    | error e => exact hreport _

theorem Surroundings.Undisturbed.opens (h : w.Undisturbed) (outfile : Option String) :
    (CannotOpen w outfile ∧ (∃ e, ((answer (.openOutput outfile)).run w).1 = .error e) ∧
        w.Proceeds w.files ((answer (.openOutput outfile)).run w).2) ∨
      ((answer (.openOutput outfile)).run w).1 = .ok () ∧
        Opened w.files outfile ((answer (.openOutput outfile)).run w).2 := by
  cases outfile with
  | none =>
    rw [run_answer, h.turned]
    refine .inr ⟨rfl, h.congr rfl rfl rfl, rfl, fun _ => rfl, fun path hp => ?_⟩
    cases hp
  | some path =>
    cases hok : w.files.create path with
    | error e =>
      rw [run_answer, h.turned, answerIn, openOutput]
      simp only [hok]
      exact .inl ⟨⟨path, e, rfl, hok⟩, ⟨e, rfl⟩, rfl, rfl, h.congr rfl rfl rfl⟩
    | ok made =>
      obtain ⟨hans, hfiles, hout, hu⟩ := h.run_openOutput hok
      refine .inr ⟨hans, hu, hfiles.trans (opened_of_create hok).symm, fun hn => ?_,
        fun path' hp => ?_⟩
      · cases hn
      · cases hp
        exact ⟨made.1, made.2, hok, hout⟩

/-- How an invocation ends after its run. There is neither an exit code nor a summary if a total has
left its range. -/
structure Settings.Ends (s : Settings) (u : Surroundings) (saved? : Option String)
    (code? : Option Int) (files : FileSystem) : Prop where
  saved : ∃ text, files = (s.afterMounted u).files.saved saved? text
  fits : Fits (s.mountedRecords u) → code? = some (s.missed u : Int) ∧ saved? = s.summaryPath
  overflow : ¬ Fits (s.mountedRecords u) → code? = none ∧ saved? = none

theorem Settings.Ends.summary {saved? : Option String} {code? : Option Int} {files : FileSystem}
    (h : s.Ends u saved? code? files) {path : String} (hp : saved? = some path) :
    s.summaryPath = some path := by
  by_cases hfit : Fits (s.mountedRecords u)
  · rw [← (h.fits hfit).2, hp]
  · cases (h.overflow hfit).2.symm.trans hp

/-- What an invocation for the mounted directory comes to. Either its statistics cannot be opened,
or there is one run, after which a summary may be saved, or this run breaks off. -/
inductive Settings.Comes (s : Settings) (w : Surroundings) (ls : List Line) (code? : Option Int)
    (files : FileSystem) : Prop
  | refused (h : CannotOpen w s.outfile) (hl : ls = []) (hc : code? = some notRunnable)
      (hfiles : files = w.files)
  | carried (u : Surroundings) (saved? : Option String) (hu : Opened w.files s.outfile u)
      (hfit : BytesFit (s.mountedRecords u))
      (hl : ls = linesOf ((mounted s).session.dialogue.moments answer u))
      (hend : s.Ends u saved? code? files)
  | broken (u : Surroundings) (hu : Opened w.files s.outfile u)
      (hfull : ¬ BytesFit (s.mountedRecords u)) (hrows : ¬ BytesFit (rowsOf ls))
      (hc : code? = none)

theorem Surroundings.Opened.proceed {fs : FileSystem} {outfile : Option String}
    (h : Opened fs outfile w) (hw : w.Proceeds w.files u) : Opened fs outfile u where
  undisturbed := hw.undisturbed
  files := hw.files.trans h.files
  standard hn := hw.output.trans (h.standard hn)
  file path hp := by
    rw [hw.output]
    exact h.file path hp

theorem puts_execute (h : w.Undisturbed) (ha : s.Acceptable w.files) :
    (execute s [mounted s]).run.Puts answer w fun ls r v => s.Comes w ls r v.files := by
  refine .option_quiet (fun _ => Moment.Still.line?)
    ((h.meets_areRunnable ha).weaken fun b w₁ hpost => ?_)
  obtain ⟨rfl, h₁⟩ := hpost
  refine .option_ask rfl ?_
  obtain ⟨hcannot, ⟨e, he⟩, h₂⟩ | ⟨hok, hstarted⟩ := h₁.undisturbed.opens s.outfile
  · rw [he]
    have h₃ := h₂.undisturbed.idle (r := .report (.cannotOpenOutput (.system e))) trivial
    refine .option_ask rfl (.done (.refused ?_ rfl rfl ?_))
    · unfold CannotOpen at hcannot ⊢
      rwa [h₁.files] at hcannot
    · exact h₃.files.trans (h₂.files.trans h₁.files)
  · rw [hok]
    rw [h₁.files] at hstarted
    have hnow := hstarted.undisturbed.idle (r := .now) trivial
    have hstarted' := hstarted.proceed hnow
    refine .option_ask rfl (.option_bind ?_)
    refine (puts_runEach ⟨hstarted'.undisturbed, hstarted'.ne_kept⟩).weaken fun ls r v hpost => ?_
    obtain ⟨u, hu, houtcome⟩ := hpost
    have hstarted := hstarted'.proceed hu
    cases houtcome with
    | broken full rows result =>
      subst result
      exact .broken u hstarted full rows rfl
    | whole hfit hlines hv hresult hoverflow =>
      cases r with
      | none =>
        refine .carried u none hstarted hfit hlines ⟨⟨"", hv.files⟩, fun hf => ?_,
          fun _ => ⟨rfl, rfl⟩⟩
        obtain ⟨a, ha, -⟩ := hresult hf
        cases ha
      | some a =>
        refine .option_quiet (fun _ => id) ((meets_save hv.undisturbed _ _).weaken
          fun _ v' hfiles => .done ?_)
        refine .carried u s.summaryPath hstarted hfit ?_ ⟨⟨_, hv.files ▸ hfiles⟩,
          fun hf => ?_, fun hnot => ?_⟩
        · rw [List.append_nil]
          exact hlines
        · obtain ⟨a', ha', hcode⟩ := hresult hf
          cases ha'
          exact ⟨by rw [← hcode], rfl⟩
        · cases hoverflow hnot

theorem puts_run (h : w.Undisturbed) (hmode : s.mode = .mounted) (ha : s.Acceptable w.files)
    {i : Invocation} (hi : i.settings = some s) :
    i.run.run.Puts answer w fun ls r v => s.Comes w ls (r.map (·.1)) v.files := by
  rw [Invocation.run, withSettings, hi]
  refine .option_bind (.option_quiet (fun _ => Moment.Still.line?)
    ((h.meets_buildRunners hmode ha).weaken fun r w₁ hpost => ?_))
  obtain ⟨rfl, h₁⟩ := hpost
  refine (puts_execute h₁.undisturbed (h₁.files ▸ ha)).weaken fun ls r v hpost => ?_
  have hcomes : s.Comes w ls r v.files := by
    cases hpost with
    | refused hcannot hl hc hfiles =>
      unfold CannotOpen at hcannot
      rw [h₁.files] at hcannot
      exact .refused hcannot hl hc (hfiles.trans h₁.files)
    | carried u saved? hu hfit hl hend => exact .carried u saved? (h₁.files ▸ hu) hfit hl hend
    | broken u hu hfull hrows hc => exact .broken u (h₁.files ▸ hu) hfull hrows hc
  cases r with
  | none => exact hcomes
  | some code =>
    refine .done ?_
    rw [List.append_nil]
    exact hcomes

end StorageTrials

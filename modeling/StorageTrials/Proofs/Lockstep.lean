import StorageTrials.Proofs.LocalRequests
import StorageTrials.Proofs.Refusal

namespace StorageTrials

open FileSystem Runner Surroundings

/-- Two dialogues print the same lines, all of a kind, and their ends go together. -/
structure Dialogue.Abreast {α β : Type} (kind : Line → Prop) (d : Dialogue α) (d' : Dialogue β)
    (w w' : Surroundings) (post : α → Surroundings → β → Surroundings → Prop) : Prop where
  lines : printed (d.moments answer w) = printed (d'.moments answer w')
  kind : ∀ l ∈ printed (d.moments answer w), kind l
  logs : w.Logs (linesOf (d.moments answer w)) (d.final answer w)
  logs' : w'.Logs (linesOf (d'.moments answer w')) (d'.final answer w')
  ends : post (d.result answer w) (d.final answer w) (d'.result answer w') (d'.final answer w')

namespace Dialogue.Abreast

variable {α β γ δ : Type} {kind : Line → Prop} {d : Dialogue α} {d' : Dialogue β}
variable {w w' : Surroundings}

theorem of_prints {ls : List Line} {P : α → Surroundings → Prop} {P' : β → Surroundings → Prop}
    (h : d.Prints w ls P) (h' : d'.Prints w' ls P') (hk : ∀ l ∈ ls, kind l) :
    d.Abreast kind d' w w' fun a u a' u' => P a u ∧ P' a' u' := by
  refine ⟨h.lines.trans h'.lines.symm, ?_, h.logs, h'.logs, h.ends, h'.ends⟩
  rwa [h.lines]

theorem done {a : α} {a' : β} {post : α → Surroundings → β → Surroundings → Prop}
    (h : post a w a' w') : (Dialogue.done a).Abreast kind (Dialogue.done a') w w' post :=
  ⟨rfl, List.forall_mem_nil _, logs_nil rfl fun _ _ => rfl, logs_nil rfl fun _ _ => rfl, h⟩

theorem weaken {post post' : α → Surroundings → β → Surroundings → Prop}
    (h : d.Abreast kind d' w w' post) (hp : ∀ a u a' u', post a u a' u' → post' a u a' u') :
    d.Abreast kind d' w w' post' :=
  ⟨h.lines, h.kind, h.logs, h.logs', hp _ _ _ _ h.ends⟩

theorem bind {f : α → Dialogue γ} {f' : β → Dialogue δ}
    {post : γ → Surroundings → δ → Surroundings → Prop}
    (h : d.Abreast kind d' w w' fun a u a' u' => (f a).Abreast kind (f' a') u u' post) :
    (d.bind f).Abreast kind (d'.bind f') w w' post := by
  refine ⟨?_, ?_, ?_, ?_, ?_⟩
  · rw [moments_bind, moments_bind, printed_append, printed_append, h.lines, h.ends.lines]
  · rw [moments_bind, printed_append]
    exact List.forall_mem_append.mpr ⟨h.kind, h.ends.kind⟩
  · rw [moments_bind, linesOf_append, final_bind]
    exact h.logs.trans h.ends.logs
  · rw [moments_bind, linesOf_append, final_bind]
    exact h.logs'.trans h.ends.logs'
  · rw [result_bind, final_bind, result_bind, final_bind]
    exact h.ends.ends

theorem attempt_bind {a : Attempt α} {a' : Attempt β} {f : α → Attempt γ} {f' : β → Attempt δ}
    {post : Except Fault γ → Surroundings → Except Fault δ → Surroundings → Prop}
    (h : a.dialogue.Abreast kind a'.dialogue w w' fun r u r' u' => ∃ x x', r = .ok x ∧
      r' = .ok x' ∧ (f x).dialogue.Abreast kind (f' x').dialogue u u' post) :
    (a >>= f).dialogue.Abreast kind (a' >>= f').dialogue w w' post := by
  refine bind (h.weaken fun r u r' u' hr => ?_)
  obtain ⟨x, x', rfl, rfl, hx⟩ := hr
  exact hx

theorem lift_bind {f : α → Attempt γ} {f' : β → Attempt δ}
    {post : Except Fault γ → Surroundings → Except Fault δ → Surroundings → Prop}
    (h : d.Abreast kind d' w w' fun a u a' u' =>
      (f a).dialogue.Abreast kind (f' a').dialogue u u' post) :
    ((liftM d : Attempt α) >>= f).dialogue.Abreast kind ((liftM d' : Attempt β) >>= f').dialogue
      w w' post := by
  rw [Attempt.dialogue_lift_bind, Attempt.dialogue_lift_bind]
  exact bind h

end Dialogue.Abreast

open Dialogue

variable {kind : Line → Prop} {runFile : SourceFile → Attempt Bool} {backend : Backend}
variable {w w' u : Surroundings} {files files' : List SourceFile} {f : SourceFile}
variable {s : Settings} {dir : String}
variable {R : List SourceFile → Surroundings → Surroundings → Prop}

namespace Runner

structure Counterpart (f f' : SourceFile) : Prop where
  isReady : f'.isReady = f.isReady
  same : f.isReady = true → f' = f

theorem counterpart_of_bytes? {fs fs' : FileSystem} {name : String}
    (h : fs'.bytes? (Path.join dir name) = fs.bytes? (Path.join dir name)) :
    Counterpart (fs.source dir name) (fs'.source dir name) := by
  cases hb : fs.bytes? (Path.join dir name) with
  | some x =>
    have hsame : fs'.source dir name = fs.source dir name :=
      (source_of_bytes? (h.trans hb)).trans (source_of_bytes? hb).symm
    exact ⟨by rw [hsame], fun _ => hsame⟩
  | none =>
    have hnot {fs : FileSystem} (hb : fs.bytes? (Path.join dir name) = none) :
        (fs.source dir name).isReady = false := by
      rw [Bool.eq_false_iff]
      intro hready
      obtain ⟨x, hx, -⟩ := bytes?_of_ready (List.mem_map_of_mem (List.mem_singleton_self name))
        hready
      cases hb.symm.trans hx
    refine ⟨(hnot (h.trans hb)).trans (hnot hb).symm, fun hready => ?_⟩
    cases (hnot hb).symm.trans hready

variable (kind runFile files) in
/-- The trials of every file print the same in both runs and come to the same. The relation tells
which files have been run through. -/
structure Lanes (R : List SourceFile → Surroundings → Surroundings → Prop) : Prop where
  takes : ∀ done w w', R done w w' →
    (w.Undisturbed ∧ w.Receives) ∧ w'.Undisturbed ∧ w'.Receives
  report : ∀ done event w w', R done w w' → R done ((answer (.report event)).run w).2 w'
  report' : ∀ done event w w', R done w w' → R done w ((answer (.report event)).run w').2
  print : ∀ done line w w', R done w w' →
    R done ((answer (.print line)).run w).2 ((answer (.print line)).run w').2
  skip : ∀ done, ∀ f ∈ files, f.isReady = false → ∀ w w', R done w w' → R (done ++ [f]) w w'
  file : ∀ done, ∀ f ∈ files, f.isReady = true → ∀ w w', R done w w' →
    (runFile f).dialogue.Abreast kind (runFile f).dialogue w w' fun r u r' u' =>
      (∃ b, r = .ok b ∧ r' = .ok b) ∧ R (done ++ [f]) u u'

namespace Lanes

variable {done : List SourceFile}

theorem of_cons {fs : List SourceFile} (h : Lanes kind runFile (f :: fs) R) :
    Lanes kind runFile fs R where
  takes := h.takes
  report := h.report
  report' := h.report'
  print := h.print
  skip done g hg := h.skip done g (List.mem_cons_of_mem _ hg)
  file done g hg := h.file done g (List.mem_cons_of_mem _ hg)

theorem abreast_report (h : Lanes kind runFile files R) (hw : R done w w') (event event' : Event) :
    (Ask.report event).Abreast kind (Ask.report event') w w' fun _ u _ u' => R done u u' := by
  have hlogs {w : Surroundings} (hw : w.Undisturbed) (event : Event) :
      w.Logs [] ((answer (.report event)).run w).2 := by
    have hidle := hw.idle (r := .report event) trivial
    exact logs_nil hidle.output fun id _ => congrArg (·.node? id) hidle.files
  obtain ⟨⟨hu, -⟩, hu', -⟩ := h.takes done w w' hw
  exact ⟨rfl, List.forall_mem_nil _, hlogs hu event, hlogs hu' event',
    h.report' done event' _ _ (h.report done event _ _ hw)⟩

theorem abreast_print (h : Lanes kind runFile files R) (hw : R done w w') {line : Line}
    (hk : kind line.untimed) :
    (Attempt.system (Ask.print line)).dialogue.Abreast kind
      (Attempt.system (Ask.print line)).dialogue w w' fun r u r' u' =>
        r = .ok () ∧ r' = .ok () ∧ R done u u' := by
  have hprints {w : Surroundings} (hw : w.Undisturbed ∧ w.Receives) :
      (Attempt.system (Ask.print line)).dialogue.Prints w [line.untimed]
        fun r u => r = .ok () ∧ u = ((answer (.print line)).run w).2 := by
    obtain ⟨hok, -, -, hlog⟩ := hw.2.print hw.1 line
    refine .print hlog ?_
    rw [hok]
    exact .done ⟨rfl, rfl⟩
  obtain ⟨htakes, htakes'⟩ := h.takes done w w' hw
  have hboth := Abreast.of_prints (hprints htakes) (hprints htakes')
    (List.forall_mem_singleton.mpr hk)
  refine hboth.weaken fun r u r' u' hpost => ?_
  obtain ⟨⟨hr, rfl⟩, hr', rfl⟩ := hpost
  exact ⟨hr, hr', h.print done line _ _ hw⟩

theorem abreast_conclude (h : Lanes kind runFile files R) (hw : R done w w') (file file' : String)
    (b : Bool) :
    (conclude backend file (.ok b)).dialogue.Abreast kind
      (conclude backend file' (.ok b)).dialogue w w' fun r u r' u' =>
        r = .ok b ∧ r' = .ok b ∧ R done u u' := by
  obtain ⟨e, he⟩ := conclude_ok backend file b
  obtain ⟨e', he'⟩ := conclude_ok backend file' b
  rw [he, he']
  let ends (_ : Unit) : Dialogue (Except Fault Bool) := .done (.ok b)
  change ((Ask.report e).bind ends).Abreast kind ((Ask.report e').bind ends) w w' _
  exact .bind ((h.abreast_report hw e e').weaken fun _ u _ u' hu => .done ⟨rfl, rfl, hu⟩)

theorem abreast_runFiles (h : Lanes kind runFile files R)
    (hff : List.Forall₂ Counterpart files files') (completed completed' : Bool) (hw : R done w w') :
    (runFiles backend runFile files completed).dialogue.Abreast kind
      (runFiles backend runFile files' completed').dialogue w w' fun r u r' u' =>
        (∃ b, r = .ok (completed && b) ∧ r' = .ok (completed' && b)) ∧ R (done ++ files) u u' := by
  induction hff generalizing done w w' completed completed' with
  | nil => exact .done ⟨⟨true, by simp, by simp⟩, by rwa [List.append_nil]⟩
  | cons hff hrest ih =>
    rename_i f f' fs fs'
    rw [runFiles, runFiles, List.append_cons]
    cases hfault : f.fault? with
    | some cause =>
      have hnot := isReady_eq_false_of_fault? hfault
      have hnot' : f'.fault? ≠ none := by
        rw [Ne, ← isReady_iff_fault?_eq_none, hff.isReady, hnot]
        exact Bool.false_ne_true
      obtain ⟨cause', hfault'⟩ := Option.ne_none_iff_exists'.mp hnot'
      rw [hfault']
      refine .lift_bind ((h.abreast_report hw _ _).weaken fun _ u _ u' hu => ?_)
      exact ih h.of_cons _ _ (h.skip done f List.mem_cons_self hnot u u' hu)
    | none =>
      have hready := (isReady_iff_fault?_eq_none f).mpr hfault
      cases hff.same hready
      rw [hfault]
      have hfile := h.file done f List.mem_cons_self hready w w' hw
      refine .lift_bind (hfile.weaken fun r u r' u' hpost => ?_)
      obtain ⟨⟨b, rfl, rfl⟩, hu⟩ := hpost
      refine .attempt_bind ((h.abreast_conclude hu _ _ b).weaken fun r v r' v' hpost => ?_)
      obtain ⟨rfl, rfl, hv⟩ := hpost
      refine ⟨b, b, rfl, rfl, (ih h.of_cons _ _ hv).weaken fun r t r' t' hpost => ?_⟩
      obtain ⟨⟨b', rfl, rfl⟩, ht⟩ := hpost
      exact ⟨⟨b && b', by rw [Bool.and_assoc], by rw [Bool.and_assoc]⟩, ht⟩

theorem abreast_printFiles (h : Lanes kind runFile files R) (hk : ∀ texts, kind (.columns texts))
    (hff : List.Forall₂ Counterpart files files') (hw : R [] w w') :
    (printFiles backend runFile files).dialogue.Abreast kind
      (printFiles backend runFile files').dialogue w w' fun r u r' u' =>
        (∃ b, r = .ok b ∧ r' = .ok b) ∧ R files u u' := by
  have hheader : kind Line.header.untimed := hk _
  have hfooter : kind Line.footer.untimed := hk _
  refine .attempt_bind ((h.abreast_print hw hheader).weaken fun r u r' u' hpost => ?_)
  obtain ⟨rfl, rfl, hu⟩ := hpost
  refine ⟨(), (), rfl, rfl, .attempt_bind ?_⟩
  refine (h.abreast_runFiles hff true true hu).weaken fun r v r' v' hpost => ?_
  obtain ⟨⟨b, rfl, rfl⟩, hv⟩ := hpost
  refine ⟨_, _, rfl, rfl, .attempt_bind ?_⟩
  refine (h.abreast_print hv hfooter).weaken fun r t r' t' hpost => ?_
  obtain ⟨rfl, rfl, ht⟩ := hpost
  exact ⟨(), (), rfl, rfl, .done ⟨⟨_, rfl, rfl⟩, ht⟩⟩

end Lanes

end Runner

namespace Surroundings

def Refuses (w : Surroundings) : Prop :=
  ∃ id, w.output = .file id ∧ w.files.node? id = some (.device .full)

theorem Refuses.not_receives (h : w.Refuses) : ¬ w.Receives := by
  obtain ⟨id, ho, hn⟩ := h
  intro hr
  unfold Receives at hr
  rw [ho] at hr
  exact hr hn

theorem Refuses.print (h : w.Refuses) (hu : w.Undisturbed) (line : Line) :
    ((answer (.print line)).run w).1 = .error .noSpace ∧
      w.Stays ((answer (.print line)).run w).2 := by
  obtain ⟨id, ho, hn⟩ := h
  rw [run_answer, hu.turned, answerIn, Surroundings.print, ho]
  simp only [FileSystem.append, hn]
  exact ⟨rfl, rfl, rfl, rfl, rfl⟩

end Surroundings

namespace Runner

theorem prints_printFiles_of_refuses (h : w.Refuses) (hu : w.Undisturbed) :
    (printFiles backend runFile files).dialogue.Prints w [Line.header.untimed]
      fun r u => r = .error (.system .noSpace) ∧ w.Stays u := by
  obtain ⟨hr, hstays⟩ := h.print hu .header
  have hlog : w.Logs [.header] ((answer (.print .header)).run w).2 := by
    intro out x hout hx
    obtain ⟨id, ho, hn⟩ := h
    cases ho.symm.trans hout
    cases hn.symm.trans (content?_eq_some_iff.mp hx)
  refine .print hlog ?_
  rw [hr]
  exact .done ⟨rfl, hstays⟩

end Runner

namespace Surroundings

theorem Undisturbed.alone (h : w.Undisturbed) : w.Alone := h.change

/-- The statistics stream takes all lines or none. -/
def Reliable (w : Surroundings) : Prop :=
  ∀ k, w.output = .kept k → k.failing = [] ∧ k.cancelling = []

theorem Reliable.receives_or_refuses (h : w.Reliable) : w.Receives ∨ w.Refuses := by
  unfold Receives Refuses
  cases ho : w.output with
  | standard => exact .inl trivial
  | kept k => exact .inl (h k ho)
  | file id =>
    by_cases hn : w.files.node? id = some (.device .full)
    · exact .inr ⟨id, rfl, hn⟩
    · exact .inl hn

structure Looked (w w' : Surroundings) : Prop where
  proceeds : w.Proceeds w.files w'
  stays : w.Stays w'

theorem Looked.trans (h : u.Looked w) (h' : w.Looked w') : u.Looked w' :=
  ⟨h.proceeds.trans (h.proceeds.files ▸ h'.proceeds), h.stays.trans h'.stays⟩

theorem Undisturbed.prints_resolveSources (h : w.Undisturbed)
    (hdir : w.files.inspect dir = .ok .directory) (names : List String) :
    (resolveSources dir names).dialogue.Prints w [] fun r u =>
      r = .ok (names.map (w.files.source dir)) ∧ w.Looked u := by
  have hstays := h.alone.meets (Dialogue.asks_mono (fun _ => observes_of_looks)
    (asks_resolveSources dir names))
  have hmeets : (resolveSources dir names).dialogue.Meets answer Moment.Still w fun r u =>
      (r = .ok (names.map (w.files.source dir)) ∧ w.Stays u) ∧ w.Proceeds w.files u :=
    ((h.meets_resolveSources hdir names).and hstays).mono (fun _ => And.left)
      fun r u hpost => ⟨⟨hpost.1.1, hpost.2.2⟩, hpost.1.2⟩
  refine (Prints.of_still hmeets).weaken fun r u hpost => ?_
  obtain ⟨⟨hr, hs⟩, hp⟩ := hpost
  exact ⟨hr, hp, hs⟩

theorem Undisturbed.prints_report (h : w.Undisturbed) (event : Event) :
    (Ask.report event).Prints w [] fun _ u => w.Looked u := by
  have hp := h.idle (r := .report event) trivial
  have hs := h.alone.observe (r := .report event) trivial
  exact .ask rfl (logs_nil hp.output fun _ _ => by rw [hp.files]) (.done ⟨hp, hs⟩)

theorem Refuses.looked (h : w.Refuses) (hw : w.Looked u) : u.Refuses := by
  obtain ⟨id, ho, hn⟩ := h
  exact ⟨id, hw.proceeds.output.trans ho, by rwa [hw.proceeds.files]⟩

/-- On a device that is full a run ends with its first line. -/
theorem Refuses.prints_runAll (h : w.Refuses) (hu : w.Undisturbed)
    (hsource : w.files.inspect s.sourceDir = .ok .directory) :
    (runAll backend s runFile).dialogue.Prints w [Line.header.untimed] fun r u =>
      r = .error (.system .noSpace) ∧ w.Stays u := by
  refine .attempt_quiet ((hu.prints_resolveSources hsource s.files).weaken fun r w₁ hpost => ?_)
  obtain ⟨rfl, h₁⟩ := hpost
  refine ⟨_, rfl, .lift_quiet ((h₁.proceeds.undisturbed.prints_report _).weaken
    fun _ w₂ h₂ => ?_)⟩
  have hw := h₁.trans h₂
  exact (prints_printFiles_of_refuses (h.looked hw) hw.proceeds.undisturbed).weaken
    fun r u hpost => ⟨hpost.1, hw.stays.trans hpost.2⟩

end Surroundings

theorem Accepted.usable {b : Backend} (h : Accepted s w b) (hu : w.Undisturbed) :
    s.loopCount ≠ 0 ∧ w.files.inspect s.sourceDir = .ok .directory := by
  obtain ⟨-, hloops, hsource, -⟩ := passed_of_check h
  exact ⟨hloops, (hu.meets_checkSourceDir s.sourceDir).ends.1.mp hsource⟩

namespace Runner

/-- Two runs of the same files print the same lines and come to the same, if the trials of each file
do. -/
theorem Lanes.abreast_runAll
    (h : Lanes kind runFile (s.files.map (w.files.source s.sourceDir)) R)
    (hk : ∀ texts, kind (.columns texts)) (hu : w.Undisturbed) (hu' : w'.Undisturbed)
    (hsource : w.files.inspect s.sourceDir = .ok .directory)
    (hsource' : w'.files.inspect s.sourceDir = .ok .directory)
    (hstart : ∀ u u', w.Looked u → w'.Looked u' → R [] u u')
    (hff : List.Forall₂ Counterpart (s.files.map (w.files.source s.sourceDir))
      (s.files.map (w'.files.source s.sourceDir))) :
    (runAll backend s runFile).dialogue.Abreast kind (runAll backend s runFile).dialogue w w'
      fun r u r' u' => (∃ b, r = .ok b ∧ r' = .ok b) ∧
        R (s.files.map (w.files.source s.sourceDir)) u u' := by
  refine .attempt_bind ((Abreast.of_prints (hu.prints_resolveSources hsource s.files)
    (hu'.prints_resolveSources hsource' s.files) (List.forall_mem_nil _)).weaken
    fun r u r' u' hpost => ?_)
  obtain ⟨⟨rfl, h₁⟩, rfl, h₁'⟩ := hpost
  refine ⟨_, _, rfl, rfl, .lift_bind ?_⟩
  exact (h.abreast_report (hstart u u' h₁ h₁') _ _).weaken fun _ v _ v' hv =>
    h.abreast_printFiles hk hff hv

end Runner

end StorageTrials

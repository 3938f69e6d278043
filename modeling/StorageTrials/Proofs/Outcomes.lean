import StorageTrials.Proofs.Deliveries
import StorageTrials.Proofs.UndisturbedTrials

namespace StorageTrials

open FileSystem Runner Surroundings

def Line.untimed : Line → Line
  | columns texts => columns texts
  | record r => record { r with elapsed := .zero }

def printed {σ : Type} (ms : List (Moment σ)) : List Line := (linesOf ms).map Line.untimed

theorem printed_append {σ : Type} (ms ns : List (Moment σ)) :
    printed (ms ++ ns) = printed ms ++ printed ns := by
  rw [printed, linesOf_append, List.map_append, printed, printed]

def Record.untimed (r : Record) : Record := { r with elapsed := .zero }

theorem rowsOf_untimed (ls : List Line) :
    rowsOf (ls.map Line.untimed) = (rowsOf ls).map Record.untimed := by
  rw [rowsOf, List.filterMap_map, rowsOf, List.map_filterMap]
  refine List.filterMap_congr fun l _ => ?_
  cases l <;> rfl

theorem bytesFit_untimed {rs : List Record} : BytesFit (rs.map Record.untimed) ↔ BytesFit rs := by
  have hbytes (k : GroupKey) :
      (groupOf (rs.map Record.untimed) k).bytes = (groupOf rs k).bytes := by
    rw [groupOf, recordsOf, List.filter_map, List.map_map]
    rfl
  simp only [BytesFit, hbytes]

theorem bytesFit_of_rowless {σ : Type} {ms : List (Moment σ)} (h : rowsOf (printed ms) = []) :
    BytesFit (rowsOf (linesOf ms)) := by
  rw [← bytesFit_untimed, ← rowsOf_untimed, ← printed, h]
  exact fun _ => Nat.two_pow_pos 64

/-- What prints no more rows than another dialogue keeps its bytes in range where that one does. -/
theorem bytesFit_of_printed {σ : Type} {ms ns : List (Moment σ)}
    (h : BytesFit (rowsOf (linesOf ms))) (hs : (printed ns).Sublist (printed ms)) :
    BytesFit (recordsIn ns) := by
  refine BytesFit.sublist (bytesFit_untimed.mp ?_) (recordsIn_sublist ns)
  rw [← bytesFit_untimed, ← rowsOf_untimed] at h
  rw [← rowsOf_untimed]
  exact h.sublist (hs.filterMap Line.record?)

theorem FileSystem.append_of_ne_full {fs : FileSystem} {id : NodeId}
    (h : fs.node? id ≠ some (.device .full)) (x : ByteArray) :
    (fs.append id x).2 = .ok () ∧ (fs.append id x).1.node? id ≠ some (.device .full) ∧
      ∀ y, fs.content? id = some y → (fs.append id x).1.content? id = some (y ++ x) := by
  have hother (he : fs.append id x = (fs, .ok ())) (hn : fs.content? id = none) :
      (fs.append id x).2 = .ok () ∧ (fs.append id x).1.node? id ≠ some (.device .full) ∧
        ∀ y, fs.content? id = some y → (fs.append id x).1.content? id = some (y ++ x) := by
    rw [he]
    exact ⟨rfl, h, fun y hy => nomatch hn.symm.trans hy⟩
  cases hn : fs.node? id with
  | none => exact hother (by rw [FileSystem.append, hn]) (by rw [content?, hn])
  | some n =>
    cases n with
    | directory up | link target =>
      exact hother (by rw [FileSystem.append, hn]) (by rw [content?, hn])
    | device d =>
      cases d with
      | full => exact absurd hn h
      | null | zero => exact hother (by rw [FileSystem.append, hn]) (by rw [content?, hn])
    | file y =>
      have hset := node?_set_self (n := .file (y ++ x)) (lt_size_of_node? hn)
      have happend : fs.append id x = (fs.set id (.file (y ++ x)), .ok ()) := by
        rw [FileSystem.append, hn]
      rw [happend]
      refine ⟨rfl, ?_, fun z hz => ?_⟩
      · rw [hset]
        simp
      · cases hn.symm.trans (content?_eq_some_iff.mp hz)
        exact content?_eq_some_iff.mpr hset

namespace Surroundings

variable {u w w' : Surroundings} {ls ls' : List Line}

/-- The statistics stream takes its lines. -/
def Receives (w : Surroundings) : Prop :=
  match w.output with
  | .standard => True
  | .file id => w.files.node? id ≠ some (.device .full)
  | .kept s => s.failing = [] ∧ s.cancelling = []

def Logs (w : Surroundings) (ls : List Line) (w' : Surroundings) : Prop :=
  ∀ out x, w.output = .file out → w.files.content? out = some x →
    w'.output = .file out ∧ w'.files.content? out = some (x ++ (textOf ls).toUTF8)

theorem Logs.trans (h : u.Logs ls w) (h' : w.Logs ls' w') : u.Logs (ls ++ ls') w' := by
  intro out x hout hx
  obtain ⟨hout₁, hx₁⟩ := h out x hout hx
  obtain ⟨hout₂, hx₂⟩ := h' out _ hout₁ hx₁
  refine ⟨hout₂, hx₂.trans ?_⟩
  rw [textOf_append, String.toUTF8_eq_toByteArray, String.toUTF8_eq_toByteArray,
    String.toUTF8_eq_toByteArray, String.toByteArray_append, ByteArray.append_assoc]

theorem logs_nil (ho : w'.output = w.output)
    (hn : ∀ id, w.output = .file id → w'.files.node? id = w.files.node? id) : w.Logs [] w' := by
  intro out x hout hx
  refine ⟨ho.trans hout, ?_⟩
  rw [content?, hn out hout, ← content?, hx]
  exact congrArg some ByteArray.append_empty.symm

theorem Receives.congr (h : w.Receives) (ho : w'.output = w.output)
    (hn : ∀ id, w.output = .file id → w'.files.node? id = w.files.node? id) : w'.Receives := by
  unfold Receives at h ⊢
  rw [ho]
  cases hout : w.output with
  | standard => trivial
  | file id =>
    rw [hout] at h
    simp only at h ⊢
    rwa [hn id hout]
  | kept s =>
    rw [hout] at h
    exact h

theorem Receives.print (h : w.Receives) (hu : w.Undisturbed) (line : Line) :
    ((answer (.print line)).run w).1 = .ok () ∧
      ((answer (.print line)).run w).2.Undisturbed ∧
      ((answer (.print line)).run w).2.Receives ∧
      w.Logs [line] ((answer (.print line)).run w).2 := by
  unfold Receives at h
  rw [run_answer, hu.turned, answerIn, Surroundings.print]
  cases hout : w.output with
  | standard =>
    refine ⟨rfl, hu.congr rfl rfl rfl, ?_, fun out x ho => ?_⟩
    · simp only [Receives]
    · cases hout.symm.trans ho
  | kept k =>
    simp only [hout] at h
    simp only [h, List.contains_nil, cancelIf, Bool.false_eq_true, if_false]
    refine ⟨rfl, hu.congr rfl rfl rfl, ⟨rfl, rfl⟩, fun out x ho => ?_⟩
    cases hout.symm.trans ho
  | file id =>
    simp only [hout] at h ⊢
    obtain ⟨hok, hnode, hcontent⟩ := append_of_ne_full h line.text.toUTF8
    refine ⟨hok, hu.congr rfl rfl rfl, ?_, fun out x ho hx => ?_⟩
    · simp only [Receives]
      exact hnode
    · cases hout.symm.trans ho
      rw [textOf_singleton]
      exact ⟨rfl, hcontent x hx⟩

/-- Nobody disturbs a program whose statistics go to certain files at most. -/
structure Smooth (stream : NodeId → Prop) (w : Surroundings) : Prop where
  wellFormed : w.files.WellFormed
  undisturbed : w.Undisturbed
  output : ∀ id, w.output = .file id → stream id

end Surroundings

/-- A dialogue prints certain lines, and its end is as required. -/
structure Dialogue.Prints {α : Type} (d : Dialogue α) (w : Surroundings) (ls : List Line)
    (post : α → Surroundings → Prop) : Prop where
  lines : printed (d.moments answer w) = ls
  logs : w.Logs (linesOf (d.moments answer w)) (d.final answer w)
  ends : post (d.result answer w) (d.final answer w)

namespace Dialogue.Prints

variable {α β : Type} {w : Surroundings} {ls ls' : List Line} {d : Dialogue α}

theorem done {a : α} {post : α → Surroundings → Prop} (h : post a w) :
    (Dialogue.done a).Prints w [] post :=
  ⟨rfl, logs_nil rfl fun _ _ => rfl, h⟩

theorem weaken {post post' : α → Surroundings → Prop} (h : d.Prints w ls post)
    (hp : ∀ a w', post a w' → post' a w') : d.Prints w ls post' :=
  ⟨h.lines, h.logs, hp _ _ h.ends⟩

theorem and_meets {kind : Moment Surroundings → Prop} {post post' : α → Surroundings → Prop}
    (h : d.Prints w ls post) (h' : d.Meets answer kind w post') :
    d.Prints w ls fun a w' => post a w' ∧ post' a w' :=
  ⟨h.lines, h.logs, h.ends, h'.ends⟩

theorem bind {f : α → Dialogue β} {post : β → Surroundings → Prop}
    (h : d.Prints w ls fun a w' => (f a).Prints w' ls' post) :
    (d.bind f).Prints w (ls ++ ls') post := by
  refine ⟨?_, ?_, ?_⟩
  · rw [moments_bind, printed_append, h.lines, h.ends.lines]
  · rw [moments_bind, linesOf_append, final_bind]
    exact h.logs.trans h.ends.logs
  · rw [result_bind, final_bind]
    exact h.ends.ends

theorem bind_quiet {f : α → Dialogue β} {post : β → Surroundings → Prop}
    (h : d.Prints w [] fun a w' => (f a).Prints w' ls post) : (d.bind f).Prints w ls post :=
  bind h

theorem attempt_bind {a : Attempt α} {f : α → Attempt β}
    {post : Except Fault β → Surroundings → Prop}
    (h : a.dialogue.Prints w ls fun r w' => ∃ x, r = .ok x ∧ (f x).dialogue.Prints w' ls' post) :
    (a >>= f).dialogue.Prints w (ls ++ ls') post := by
  refine bind (h.weaken fun r w' hr => ?_)
  obtain ⟨x, rfl, hx⟩ := hr
  exact hx

theorem attempt_quiet {a : Attempt α} {f : α → Attempt β}
    {post : Except Fault β → Surroundings → Prop}
    (h : a.dialogue.Prints w [] fun r w' => ∃ x, r = .ok x ∧ (f x).dialogue.Prints w' ls post) :
    (a >>= f).dialogue.Prints w ls post :=
  attempt_bind h

theorem lift_bind {f : α → Attempt β} {post : Except Fault β → Surroundings → Prop}
    (h : d.Prints w ls fun a w' => (f a).dialogue.Prints w' ls' post) :
    ((liftM d : Attempt α) >>= f).dialogue.Prints w (ls ++ ls') post := by
  rw [Attempt.dialogue_lift_bind]
  exact bind h

theorem lift_quiet {f : α → Attempt β} {post : Except Fault β → Surroundings → Prop}
    (h : d.Prints w [] fun a w' => (f a).dialogue.Prints w' ls post) :
    ((liftM d : Attempt α) >>= f).dialogue.Prints w ls post :=
  lift_bind h

theorem ask {r : Request} {next : r.Answer → Dialogue α} {post : α → Surroundings → Prop}
    (hq : (Moment.of answer r w).line? = none) (hl : w.Logs [] ((answer r).run w).2)
    (h : (next ((answer r).run w).1).Prints ((answer r).run w).2 ls post) :
    (Dialogue.ask r next).Prints w ls post := by
  have hlines : linesOf ((Dialogue.ask r next).moments answer w) =
      linesOf ((next ((answer r).run w).1).moments answer ((answer r).run w).2) := by
    rw [moments_ask, linesOf_cons]
    change (Moment.of answer r w).line?.toList ++ _ = _
    rw [hq]
    rfl
  refine ⟨?_, ?_, h.ends⟩
  · rw [printed, hlines]
    exact h.lines
  · rw [hlines]
    exact hl.trans h.logs

theorem print {line : Line} {next : (Request.print line).Answer → Dialogue α}
    {post : α → Surroundings → Prop} (hl : w.Logs [line] ((answer (.print line)).run w).2)
    (h : (next ((answer (.print line)).run w).1).Prints ((answer (.print line)).run w).2 ls post) :
    (Dialogue.ask (.print line) next).Prints w (line.untimed :: ls) post :=
  ⟨congrArg (line.untimed :: ·) h.lines, hl.trans h.logs, h.ends⟩

/-- What leaves the files as they are prints nothing. -/
theorem of_still {post : α → Surroundings → Prop}
    (h : d.Meets answer Moment.Still w fun a w' => post a w' ∧ w.Proceeds w.files w') :
    d.Prints w [] fun a w' => post a w' ∧ w.Proceeds w.files w' := by
  have hnone : linesOf (d.moments answer w) = [] :=
    List.filterMap_eq_nil_iff.mpr fun m hm => by
      obtain ⟨u, r, a, u'⟩ := m
      cases r with
      | print line => exact (h.moments _ hm).idle.elim
      | _ => rfl
  refine ⟨?_, ?_, h.ends⟩
  · rw [printed, hnone]
    rfl
  · rw [hnone]
    exact logs_nil h.ends.2.output fun id _ => by rw [h.ends.2.files]

end Dialogue.Prints

open Dialogue

variable {c : Scene} {w w' : Surroundings} {fs : FileSystem} {f : SourceFile} {dest : String}
variable {σ : Slot} {x : ByteArray} {s : Settings} {stream : NodeId → Prop}

theorem prints_trials (before after : Surroundings → Prop) {trial : Nat → Attempt Bool} {ok : Bool}
    {ls : List Line} (hba : ∀ w, after w → before w)
    (h : ∀ i w, before w → (trial i).dialogue.Prints w ls fun r w' => r = .ok ok ∧ after w')
    (count i : Nat) (completed : Bool) (hw : before w) (hc : count = 0 → after w) :
    (trials trial count i completed).dialogue.Prints w (List.replicate count ls).flatten
      fun r w' => r = .ok (completed && (List.replicate count ok).all id) ∧ after w' := by
  induction count generalizing i completed w with
  | zero => exact .done ⟨by simp, hc rfl⟩
  | succ n ih =>
    rw [trials, List.replicate_succ, List.flatten_cons]
    refine .attempt_bind ((h i w hw).weaken fun r w' hpost => ?_)
    obtain ⟨rfl, hw'⟩ := hpost
    refine ⟨ok, rfl, (ih _ (completed && ok) (hba w' hw') fun _ => hw').weaken fun r w'' hr => ?_⟩
    rw [List.replicate_succ, List.all_cons, ← Bool.and_assoc]
    exact hr

def isWhole (f : SourceFile) (x? : Option ByteArray) : Bool :=
  x?.any fun x => f.size? = some x.size

def trialRows (loops : Nat) (f : SourceFile) (op : Operation) (x : ByteArray) : List Line :=
  List.replicate loops (.record ⟨f.name, op, x.size, .zero⟩)

/-- The rows of a file that nobody disturbs, time column aside. -/
def deliveryRows (loops : Nat) (f : SourceFile) : Option ByteArray → List Line
  | none => []
  | some x =>
    trialRows loops f .write x ++ if isWhole f (some x) then trialRows loops f .read x else []

theorem mem_deliveryRows {loops : Nat} {x? : Option ByteArray} {l : Line}
    (h : l ∈ deliveryRows loops f x?) : ∃ r : Record, l = .record r ∧ r.file = f.name := by
  have hrows {op : Operation} {x : ByteArray} (h : l ∈ trialRows loops f op x) :
      ∃ r : Record, l = .record r ∧ r.file = f.name :=
    ⟨_, List.eq_of_mem_replicate h, rfl⟩
  cases x? with
  | none => cases h
  | some x =>
    cases List.mem_append.mp h with
    | inl h => exact hrows h
    | inr h =>
      split at h
      · exact hrows h
      · cases h

namespace Scene

/-- A run that nobody disturbs, with a stream that takes its lines. -/
structure Attended (c : Scene) (w : Surroundings) : Prop extends c.Underway w where
  undisturbed : w.Undisturbed
  receives : w.Receives

theorem Attended.smooth (h : c.Attended w) : w.Smooth c.stream :=
  ⟨h.files.wellFormed, h.undisturbed, fun id hid => (h.stream id hid).1⟩

end Scene

theorem Surroundings.Smooth.attended (h : w.Smooth c.stream) (hr : w.Receives)
    (hc : c.Holds w.files) (hold : ∀ id, c.stream id → id < c.first.nodes.size) :
    c.Attended w where
  files := hc
  others k fs := by
    rw [h.undisturbed.change]
    exact .refl _ fs
  stream id hid := ⟨h.output id hid, hold id (h.output id hid)⟩
  permits := h.undisturbed.denial
  undisturbed := h.undisturbed
  receives := hr

namespace Scene

theorem Attended.proceed (h : c.Attended w) (hw : w.Proceeds fs w') (hfs : c.Holds fs)
    (hn : ∀ id, w.output = .file id → fs.node? id = w.files.node? id) :
    c.Attended w' ∧ w.Logs [] w' := by
  have hn' : ∀ id, w.output = .file id → w'.files.node? id = w.files.node? id := by
    rw [hw.files]
    exact hn
  have hongoing : c.Ongoing w' := by
    refine ⟨hw.files ▸ hfs, fun k fs => ?_, fun id hid => h.stream id (hw.output ▸ hid)⟩
    rw [hw.undisturbed.change]
    exact .refl _ fs
  exact ⟨⟨⟨hongoing, hw.undisturbed.denial⟩, hw.undisturbed, h.receives.congr hw.output hn'⟩,
    logs_nil hw.output hn'⟩

theorem Attended.idle (h : c.Attended w) (hw : w.Proceeds w.files w') :
    c.Attended w' ∧ w.Logs [] w' :=
  h.proceed hw h.files fun _ _ => rfl

theorem Attended.print (h : c.Attended w) (line : Line) :
    ((answer (.print line)).run w).1 = .ok () ∧
      c.Attended ((answer (.print line)).run w).2 ∧
      w.Logs [line] ((answer (.print line)).run w).2 := by
  have hunder := h.after_harmless (r := .print line) trivial
  obtain ⟨hok, hu, hr, hlog⟩ := h.receives.print h.undisturbed line
  exact ⟨hok, ⟨hunder, hu, hr⟩, hlog⟩

theorem Attended.prints_report (h : c.Attended w) (event : Event) :
    (Ask.report event).Prints w [] fun _ w' => c.Attended w' ∧ w'.files = w.files := by
  have hw := h.undisturbed.idle (r := .report event) trivial
  obtain ⟨h₁, hlog⟩ := h.idle hw
  exact .ask rfl hlog (.done ⟨h₁, hw.files⟩)

theorem Attended.prints_row (h : c.Attended w) {P : FileSystem → Prop} (hs : c.Stable P)
    (hP : P w.files) (place : TrialPlace) (op : Operation) (r : Sample) :
    (settle place op (.ok r)).dialogue.Prints w [.record ⟨place.file, op, r.bytes, .zero⟩]
      fun b w' => b = .ok true ∧ c.Attended w' ∧ P w'.files := by
  rw [settle_ok]
  obtain ⟨hok, h₁, hlog⟩ := h.print (row place.file op r)
  refine .print hlog ?_
  rw [hok]
  exact .done ⟨rfl, h₁, h.stable_harmless hs hP (r := .print _) trivial⟩

theorem Attended.prints_failure (h : c.Attended w) (place : TrialPlace) (op : Operation)
    (e : SystemError) :
    (settle place op (.error (.system e))).dialogue.Prints w []
      fun b w' => b = .ok false ∧ c.Attended w' ∧ w'.files = w.files := by
  rw [settle_of_ne_cancelled place op (show Fault.system e ≠ .cancelled by simp)]
  have hw := h.undisturbed.idle (r := .report (.trialFailed place op (.system e))) trivial
  obtain ⟨h₁, hlog⟩ := h.idle hw
  exact .ask rfl hlog (.done ⟨rfl, h₁, hw.files⟩)

theorem prints_clear (h : w.Smooth c.stream) (hr : w.Receives)
    (hc : c.Holds (w.files.cleared dest)) (hold : ∀ id, c.stream id → id < c.first.nodes.size) :
    (removeIfPresent dest).Prints w []
      fun _ w' => c.Attended w' ∧ w'.files = w.files.cleared dest := by
  have hafter {u : Surroundings} (hu : w.Proceeds (w.files.cleared dest) u) :
      c.Attended u ∧ w.Logs [] u := by
    have hn : ∀ id, w.output = .file id → u.files.node? id = w.files.node? id := by
      intro id _
      rw [hu.files, node?_cleared]
    have hsmooth : u.Smooth c.stream :=
      ⟨hu.files ▸ h.wellFormed.cleared dest, hu.undisturbed, fun id hid =>
        h.output id (hu.output ▸ hid)⟩
    exact ⟨hsmooth.attended (hr.congr hu.output hn) (hu.files ▸ hc) hold, logs_nil hu.output hn⟩
  obtain ⟨fs, hremove, hans, hw⟩ | ⟨e, hremove, hans, hw⟩ := h.undisturbed.run_remove dest
  · have hfs : fs = w.files.cleared dest := by
      obtain hok | ⟨⟨e, he⟩, -⟩ := remove_cases h.wellFormed dest
      · exact Except.ok.inj (hremove.symm.trans hok)
      · cases hremove.symm.trans he
    rw [hfs] at hw
    obtain ⟨h₁, hlog⟩ := hafter hw
    refine .ask rfl hlog ?_
    rw [hans]
    exact .done ⟨h₁, hw.files⟩
  · have hfs : w.files = w.files.cleared dest := by
      obtain hok | ⟨-, hsame⟩ := remove_cases h.wellFormed dest
      · cases hremove.symm.trans hok
      · exact hsame.symm
    obtain ⟨h₁, hlog⟩ := hafter (hfs ▸ hw)
    have hfiles := hw.files.trans hfs
    refine .ask rfl hlog ?_
    rw [hans]
    change (if e.kind = .notFound then _ else _ : Dialogue Unit).Prints _ _ _
    split
    · exact .done ⟨h₁, hfiles⟩
    · refine (h₁.prints_report _).weaken fun _ w' hw' => ?_
      exact ⟨hw'.1, hw'.2.trans hfiles⟩

end Scene

theorem prints_futile_write (h : w.Smooth stream) (hr : w.Receives)
    (hold : ∀ id, stream id → id < w.files.nodes.size)
    (hs : Steady stream (w.files.cleared dest) f.path)
    (hnone : w.files.delivery? f.path dest = none) (i : Nat) :
    (mountedWrite s f dest i).dialogue.Prints w [] fun r w' =>
      r = .ok false ∧ (w'.Smooth stream ∧ w'.Receives) ∧ w'.files = w.files.cleared dest := by
  let c := Scene.around (w.files.cleared dest) none stream
  have hc : c.Holds (w.files.cleared dest) := Scene.holds_first (h.wellFormed.cleared dest)
  have hold' : ∀ id, c.stream id → id < c.first.nodes.size :=
    Scene.lt_size_around_cleared hold dest _
  refine .lift_quiet ((Scene.prints_clear (c := c) h hr hc hold').weaken fun _ w₁ hpost => ?_)
  obtain ⟨h₁, hw₁⟩ := hpost
  obtain ⟨e, hcopy⟩ := copy_futile h.wellFormed hs hnone chunkSize none
    (w₁.schedule w₁.clock).hitches
  obtain ⟨hans, hw⟩ := h₁.undisturbed.run_trial s.timeout
    (show w₁.workOn? _ (.copy f.path dest) = some _ from rfl)
  simp only [hw₁, hcopy] at hans hw
  obtain ⟨h₂, hlog⟩ := h₁.idle (hw₁ ▸ hw)
  refine .lift_quiet (.ask rfl hlog (.done ?_))
  rw [hans]
  refine (h₂.prints_failure _ _ e).weaken fun r w' hpost => ?_
  obtain ⟨rfl, h', hfiles⟩ := hpost
  exact ⟨rfl, ⟨h'.smooth, h'.receives⟩, hfiles.trans hw.files⟩

/-- However often such a trial is repeated, the place is as the first one leaves it. -/
theorem prints_futile_writes (hloops : s.loopCount ≠ 0) (h : w.Smooth stream) (hr : w.Receives)
    (hold : ∀ id, stream id → id < w.files.nodes.size)
    (hs : Steady stream (w.files.cleared dest) f.path)
    (hnone : w.files.delivery? f.path dest = none) :
    (trials (mountedWrite s f dest) s.loopCount 0 true).dialogue.Prints w [] fun r w' =>
      (∃ ok, r = .ok ok) ∧ (w'.Smooth stream ∧ w'.Receives) ∧
        w'.files = w.files.cleared dest := by
  let before (u : Surroundings) : Prop := (u.Smooth stream ∧ u.Receives) ∧
    u.files.nodes = w.files.nodes ∧ u.files.cleared dest = w.files.cleared dest
  let after (u : Surroundings) : Prop :=
    (u.Smooth stream ∧ u.Receives) ∧ u.files = w.files.cleared dest
  have hba : ∀ u, after u → before u := by
    rintro u ⟨hu, hfiles⟩
    refine ⟨hu, ?_, ?_⟩
    · rw [hfiles, nodes_cleared]
    · rw [hfiles, cleared_cleared h.wellFormed dest]
  have hwrite : ∀ i u, before u → (mountedWrite s f dest i).dialogue.Prints u []
      fun r u' => r = .ok false ∧ after u' := by
    rintro i u ⟨⟨hu, hreceives⟩, hnodes, hcleared⟩
    have hnone' : u.files.delivery? f.path dest = none := by
      rw [delivery?, hcleared]
      exact hnone
    refine (prints_futile_write hu hreceives ?_ ?_ hnone' i).weaken fun r u' hpost => ?_
    · rw [hnodes]
      exact hold
    · rw [hcleared]
      exact hs
    · exact ⟨hpost.1, hpost.2.1, hpost.2.2.trans hcleared⟩
  have hwrites := prints_trials before after hba hwrite s.loopCount 0 true ⟨⟨h, hr⟩, rfl, rfl⟩
    fun hzero => absurd hzero hloops
  rw [List.flatten_replicate_nil] at hwrites
  exact hwrites.weaken fun r u hpost => ⟨⟨_, hpost.1⟩, hpost.2⟩

namespace Scene

theorem Holds.cleared (h : c.Holds fs) (hp : c.Allows dest) : c.Holds (fs.cleared dest) := by
  cases ht : fs.target? dest with
  | none => rwa [cleared_of_none ht]
  | some σ =>
    obtain ⟨hσ, hd⟩ := target?_eq_some_iff.mp ht
    rw [cleared_of_target ht]
    exact h.drop (h.targets hp hσ hd)

theorem Admits.free (ha : c.Admits dest σ) (hwf : fs.WellFormed) (h : c.Holds (fs.cleared dest)) :
    (fs.cleared dest).lookup? σ.1 σ.2 = none := by
  have ht : (fs.cleared dest).target? dest = some σ := by
    apply target?_eq_some_iff.mpr
    exact ⟨ha.place?_eq h, fun id hid => ha.isDirectory h hid⟩
  exact lookup?_cleared (target?_cleared hwf ht)

theorem Attended.copyTo (h : c.Attended w) (ha : c.Admits dest σ)
    (hx : ∀ fs, c.Holds fs → fs.bytes? f.path = some x)
    (hfree : w.files.lookup? σ.1 σ.2 = none) (limit : Option Duration) :
    ∃ t w', (answer (.trial (.copy f.path dest) limit)).run w = (.ok ⟨x.size, t⟩, w') ∧
      c.Attended w' ∧ c.HoldsCopy dest x w'.files ∧ w.Logs [] w' := by
  have hplace := ha.place?_eq h.files
  obtain ⟨t, w', hrun, hw⟩ := h.undisturbed.run_copy (hx _ h.files) hplace hfree limit
  have hadd := h.files.add (ha.target σ ha.here ha.vacant) hfree (x := x)
  have hout : ∀ out, w.output = .file out →
      (w.files.add σ.1 σ.2 (.file x)).1.node? out = w.files.node? out := fun out ho =>
    node?_add_of_lt (Nat.lt_of_lt_of_le (h.stream out ho).2 h.files.size)
  obtain ⟨h', hlog⟩ := h.proceed hw hadd hout
  refine ⟨t, w', hrun, h', ?_, hlog⟩
  rw [hw.files]
  exact ⟨_, standing?_add h.files.wellFormed hplace hfree, h.files.size, node?_add_self⟩

theorem Attended.drain (h : c.Attended w) (hc : c.HoldsCopy dest x w.files)
    (limit : Option Duration) :
    ∃ t w', (answer (.trial (.drain dest) limit)).run w = (.ok ⟨x.size, t⟩, w') ∧
      c.Attended w' ∧ c.HoldsCopy dest x w'.files ∧ w.Logs [] w' := by
  obtain ⟨t, w', hrun, hw⟩ := h.undisturbed.run_drain hc.bytes? limit
  obtain ⟨h', hlog⟩ := h.idle hw
  exact ⟨t, w', hrun, h', hw.files ▸ hc, hlog⟩

theorem prints_write (h : w.Smooth c.stream) (hr : w.Receives)
    (hc : c.Holds (w.files.cleared dest)) (hold : ∀ id, c.stream id → id < c.first.nodes.size)
    (ha : c.Admits dest σ) (hx : ∀ fs, c.Holds fs → fs.bytes? f.path = some x) (i : Nat) :
    (mountedWrite s f dest i).dialogue.Prints w [.record ⟨f.name, .write, x.size, .zero⟩]
      fun r w' => r = .ok true ∧ c.Attended w' ∧ c.HoldsCopy dest x w'.files := by
  refine .lift_quiet ((prints_clear h hr hc hold).weaken fun _ w₁ hpost => ?_)
  obtain ⟨h₁, hw₁⟩ := hpost
  have hfree : w₁.files.lookup? σ.1 σ.2 = none := hw₁ ▸ ha.free h.wellFormed hc
  obtain ⟨t, w₂, hrun, h₂, hcopy, hlog⟩ := h₁.copyTo ha hx hfree s.timeout
  refine .lift_quiet (.ask rfl ?_ (.done ?_))
  · rw [hrun]
    exact hlog
  · rw [hrun]
    exact h₂.prints_row (stable_holdsCopy ha.toCovers x) hcopy _ _ _

theorem Attended.prints_read (h : c.Attended w) (hp : c.Covers dest)
    (hc : c.HoldsCopy dest x w.files) (i : Nat) :
    (mountedRead s f dest i).dialogue.Prints w [.record ⟨f.name, .read, x.size, .zero⟩]
      fun r w' => r = .ok true ∧ c.Attended w' ∧ c.HoldsCopy dest x w'.files := by
  obtain ⟨t, w₁, hrun, h₁, hc₁, hlog⟩ := h.drain hc s.timeout
  refine .lift_quiet (.ask rfl ?_ (.done ?_))
  · rw [hrun]
    exact hlog
  · rw [hrun]
    exact h₁.prints_row (stable_holdsCopy hp x) hc₁ _ _ _

theorem Attended.prints_copied (h : c.Attended w) (f : SourceFile) (dest : String) :
    (isCopied f dest).Prints w [] fun b w' =>
      b = isWhole f (w.files.bytes? dest) ∧
        c.Attended w' ∧ w'.files = w.files := by
  have hw := h.undisturbed.idle (r := .inspect dest) trivial
  obtain ⟨h₁, hlog⟩ := h.idle hw
  have hreported (event : Event) : ((Ask.report event).bind fun _ => .done false).Prints
      ((answer (.inspect dest)).run w).2 [] fun b w' =>
        b = false ∧ c.Attended w' ∧ w'.files = w.files := by
    refine .bind_quiet ((h₁.prints_report event).weaken fun _ w' hpost => .done ?_)
    exact ⟨rfl, hpost.1, hpost.2.trans hw.files⟩
  refine .ask rfl hlog ?_
  rw [h.undisturbed.run_inspect]
  cases hb : w.files.bytes? dest with
  | some y =>
    rw [inspect_of_bytes? hb]
    change (if some y.size = f.size? then (pure true : Dialogue Bool) else _).Prints _ _ _
    by_cases hsize : some y.size = f.size?
    · rw [if_pos hsize]
      exact .done ⟨by simp [isWhole, hsize.symm], h₁, hw.files⟩
    · rw [if_neg hsize]
      refine (hreported _).weaken fun b w' hpost => ⟨?_, hpost.2⟩
      simp [hpost.1, isWhole, Ne.symm hsize]
  | none =>
    cases hi : w.files.inspect dest with
    | error e => exact hreported _
    | ok found =>
      cases found with
      | directory | other => exact hreported _
      | file size =>
        obtain ⟨y, hy, -⟩ := bytes?_of_inspect hi
        cases hb.symm.trans hy

end Scene

theorem prints_futile {dir : String} (hdir : s.destinationDir = some dir)
    (hloops : s.loopCount ≠ 0) (h : w.Smooth stream) (hr : w.Receives)
    (hold : ∀ id, stream id → id < w.files.nodes.size)
    (hs : Steady stream (w.files.cleared (Path.join dir f.name)) f.path)
    (hnone : w.files.delivery? f.path (Path.join dir f.name) = none) :
    (mountedFile s f).dialogue.Prints w [] fun r w' => r = .ok false ∧
      w'.Smooth stream ∧ w'.Receives ∧ w'.files = w.files.cleared (Path.join dir f.name) := by
  rw [mountedFile, hdir]
  set dest := Path.join dir f.name
  refine .attempt_quiet ((prints_futile_writes hloops h hr hold hs hnone).weaken
    fun r w₁ hpost => ?_)
  obtain ⟨⟨ok, hr₁⟩, ⟨h₁, hreceives⟩, hfiles⟩ := hpost
  have hold₁ : ∀ id, stream id → id < w₁.files.nodes.size := by
    rw [hfiles, nodes_cleared]
    exact hold
  let c := Scene.around w₁.files none stream
  have hattended : c.Attended w₁ :=
    Surroundings.Smooth.attended h₁ hreceives (Scene.holds_first h₁.wellFormed) hold₁
  refine ⟨_, hr₁, .lift_quiet ((hattended.prints_copied f dest).weaken fun b w₂ hpost => ?_)⟩
  obtain ⟨hb, h₂, hfiles₂⟩ := hpost
  have hfalse : b = false := by
    rw [hb, hfiles, bytes?_cleared h.wellFormed dest]
    rfl
  rw [hfalse]
  exact .done ⟨rfl, h₂.smooth, h₂.receives, hfiles₂.trans hfiles⟩

/-- Where something is delivered, a copy can be made and the source stays what it is. -/
theorem admits_of_delivery (h : fs.WellFormed) {source : String}
    (hs : Steady stream (fs.cleared dest) source) (hx : fs.delivery? source dest = some x) :
    let c := Scene.around (fs.cleared dest) ((fs.cleared dest).target? dest) stream
    ∃ σ, c.Admits dest σ ∧ (fs.cleared dest).target? dest = some σ ∧
      ∀ fs', c.Holds fs' → fs'.bytes? source = some x := by
  obtain ⟨⟨σ, hσ⟩, hbytes⟩ := delivery?_eq_some_iff.mp hx
  obtain ⟨id, hf, hn⟩ := bytes?_eq_some_iff.mp hbytes
  have hfree : (fs.cleared dest).lookup? σ.1 σ.2 = none := lookup?_cleared (target?_cleared h hσ)
  have hplace := (target?_eq_some_iff.mp hσ).1
  refine ⟨σ, ⟨⟨⟨fun _ _ => trivial, fun _ _ => trivial⟩, fun τ hτ hd => ?_⟩, hplace, ?_, ?_⟩, hσ,
    ?_⟩
  · exact target?_eq_some_iff.mpr ⟨hτ, hd⟩
  · intro id' hid
    cases hfree.symm.trans hid
  · intro τ hτ hτσ
    cases hσ.symm.trans hτσ
    obtain hne | ⟨hne, -⟩ := lookup?_of_mem_lookups (place?_eq_some_iff.mp hplace).1 hτ
    · exact hne hfree
    · exact hne rfl
  · intro fs' hfs'
    have hapart : ∀ τ ∈ (fs.cleared dest).lookups .examine source,
        (fs.cleared dest).target? dest ≠ some τ := by
      intro τ hτ hτσ
      cases hσ.symm.trans hτσ
      exact lookup?_ne_none_of_find hf hτ hfree
    exact bytes?_eq_some_iff.mpr
      ⟨id, hfs'.find_file (fun _ _ => trivial) hapart hf hn (hs id hf).2⟩

theorem delivers (h : fs.WellFormed) {fs' : FileSystem}
    (ha : (Scene.around (fs.cleared dest) ((fs.cleared dest).target? dest) stream).Admits dest σ)
    (hσ : (fs.cleared dest).target? dest = some σ)
    (hfs : (Scene.around (fs.cleared dest) ((fs.cleared dest).target? dest) stream).Holds fs')
    (hcopy : (Scene.around (fs.cleared dest) ((fs.cleared dest).target? dest) stream).HoldsCopy
      dest x fs') : Scene.Delivers stream dest (some x) fs fs' where
  holds := (Scene.holds_cleared h dest).around (fun _ => target?_cleared h) hfs
  nothing hno := nomatch hno
  copy y hy τ hτ := by
    cases hy
    cases (target?_cleared h hσ).symm.trans hτ
    obtain ⟨id, hid, hle, hn⟩ := hcopy
    obtain ⟨ρ, hρ, he⟩ := standing?_eq_some_iff.mp hid
    cases (ha.place?_eq hfs).symm.trans hρ
    refine ⟨id, he, ?_, hn⟩
    rw [← nodes_cleared fs dest]
    exact hle

theorem prints_delivery {dir : String} (hdir : s.destinationDir = some dir)
    (hloops : s.loopCount ≠ 0) (h : w.Smooth stream) (hr : w.Receives)
    (hold : ∀ id, stream id → id < w.files.nodes.size)
    (hs : Steady stream (w.files.cleared (Path.join dir f.name)) f.path)
    (hx : w.files.delivery? f.path (Path.join dir f.name) = some x) :
    (mountedFile s f).dialogue.Prints w (deliveryRows s.loopCount f (some x)) fun r w' =>
      r = .ok (isWhole f (some x)) ∧ w'.Smooth stream ∧ w'.Receives ∧
        Scene.Delivers stream (Path.join dir f.name) (some x) w.files w'.files := by
  rw [mountedFile, hdir]
  set dest := Path.join dir f.name
  obtain ⟨σ, ha, hσ, hsource⟩ := admits_of_delivery h.wellFormed hs hx
  set c := Scene.around (w.files.cleared dest) ((w.files.cleared dest).target? dest) stream with hc
  have hold' : ∀ id, c.stream id → id < c.first.nodes.size :=
    Scene.lt_size_around_cleared hold dest _
  have hwrites := prints_trials
    (fun u => (u.Smooth stream ∧ u.Receives) ∧ c.Holds (u.files.cleared dest))
    (fun u => c.Attended u ∧ c.HoldsCopy dest x u.files)
    (fun u hu => ⟨⟨hu.1.smooth, hu.1.receives⟩, hu.1.files.cleared ha.toAllows⟩)
    (fun i u hu => Scene.prints_write (s := s) hu.1.1 hu.1.2 hu.2 hold' ha hsource i)
    s.loopCount 0 true
    ⟨⟨h, hr⟩, Scene.holds_first (h.wellFormed.cleared dest)⟩ fun hzero => absurd hzero hloops
  rw [List.flatten_replicate_singleton] at hwrites
  refine .attempt_bind (hwrites.weaken fun r w₁ hpost => ?_)
  obtain ⟨hr₁, h₁, hcopy⟩ := hpost
  refine ⟨_, hr₁, .lift_quiet ((h₁.prints_copied f dest).weaken fun b w₂ hpost => ?_)⟩
  obtain ⟨hb, h₂, hfiles⟩ := hpost
  rw [hcopy.bytes?] at hb
  rw [← hb]
  replace hcopy : c.HoldsCopy dest x w₂.files := hfiles ▸ hcopy
  cases b with
  | false => exact .done ⟨rfl, h₂.smooth, h₂.receives, delivers h.wellFormed ha hσ h₂.files hcopy⟩
  | true =>
    have hreads := prints_trials (fun u => c.Attended u ∧ c.HoldsCopy dest x u.files) _
      (fun _ => id) (fun i u hu => hu.1.prints_read (f := f) (s := s) ha.toCovers hu.2 i)
      s.loopCount 0 (true && (List.replicate s.loopCount true).all id) ⟨h₂, hcopy⟩
      fun _ => ⟨h₂, hcopy⟩
    rw [List.flatten_replicate_singleton] at hreads
    refine hreads.weaken fun r w₃ hpost => ?_
    obtain ⟨rfl, h₃, hcopy₃⟩ := hpost
    refine ⟨?_, h₃.smooth, h₃.receives, delivers h.wellFormed ha hσ h₃.files hcopy₃⟩
    simp

theorem prints_mountedFile {dir : String} (hdir : s.destinationDir = some dir)
    (hloops : s.loopCount ≠ 0) (h : w.Smooth stream) (hr : w.Receives)
    (hold : ∀ id, stream id → id < w.files.nodes.size)
    (hs : Steady stream (w.files.cleared (Path.join dir f.name)) f.path) {x? : Option ByteArray}
    (hx : w.files.delivery? f.path (Path.join dir f.name) = x?) :
    (mountedFile s f).dialogue.Prints w (deliveryRows s.loopCount f x?) fun r w' =>
      r = .ok (isWhole f x?) ∧ w'.Smooth stream ∧ w'.Receives ∧
        Scene.Delivers stream (Path.join dir f.name) x? w.files w'.files := by
  cases x? with
  | some x => exact prints_delivery hdir hloops h hr hold hs hx
  | none =>
    refine (prints_futile hdir hloops h hr hold hs hx).weaken fun r w' hpost => ?_
    obtain ⟨hr', hsmooth, hreceives, hfiles⟩ := hpost
    refine ⟨hr', hsmooth, hreceives, ?_, fun _ σ hσ => ?_, fun x hsome => nomatch hsome⟩
    · rw [hfiles]
      exact Scene.holds_cleared h.wellFormed _
    · rw [hfiles]
      exact lookup?_cleared hσ

end StorageTrials

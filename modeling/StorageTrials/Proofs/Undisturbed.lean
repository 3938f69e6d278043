import StorageTrials.Proofs.Answers
import StorageTrials.Proofs.FileSystem.Sources
import StorageTrials.Proofs.RowAccounting

namespace StorageTrials

namespace Surroundings

variable {w w' : Surroundings} {fs : FileSystem} {out : NodeId} {x : ByteArray}

/-- Nobody does anything to the files, interrupts a trial, refuses a removal or cancels the run. -/
structure Undisturbed (w : Surroundings) : Prop where
  change : ∀ k, (w.schedule k).change = id
  cancels : ∀ k, (w.schedule k).cancels = false
  intervention : ∀ k, (w.schedule k).intervention = none
  denial : ∀ k, (w.schedule k).denial = none
  going : w.isCancelled = false

theorem Undisturbed.congr (h : w.Undisturbed) (hs : w'.schedule = w.schedule)
    (ht : w'.token = w.token) (hc : w'.source = w.source) : w'.Undisturbed where
  change := hs ▸ h.change
  cancels := hs ▸ h.cancels
  intervention := hs ▸ h.intervention
  denial := hs ▸ h.denial
  going := by
    rw [isCancelled, ht, hc]
    exact h.going

theorem Undisturbed.turned (h : w.Undisturbed) : w.turned = { w with clock := w.clock + 1 } := by
  rw [Surroundings.turned, pass, h.change, h.cancels]
  rfl

/-- The surroundings some requests later, with the given files and the same stream. -/
structure Proceeds (w : Surroundings) (fs : FileSystem) (w' : Surroundings) : Prop where
  files : w'.files = fs
  output : w'.output = w.output
  undisturbed : w'.Undisturbed

def Idle : Request → Prop
  | .inspect _ | .probe _ | .isCancelled | .now | .report _ => True
  | _ => False

theorem Undisturbed.idle (h : w.Undisturbed) {r : Request} (hr : Idle r) :
    w.Proceeds w.files ((answer r).run w).2 := by
  rw [run_answer, h.turned]
  cases r with
  | inspect path | probe path | isCancelled | now | report event =>
    exact ⟨rfl, rfl, h.congr rfl rfl rfl⟩
  | _ => exact hr.elim

theorem Undisturbed.run_inspect (h : w.Undisturbed) (path : String) :
    ((answer (.inspect path)).run w).1 = w.files.inspect path := by
  rw [run_answer, h.turned]
  rfl

theorem Undisturbed.run_probe (h : w.Undisturbed) (path : String) :
    ((answer (.probe path)).run w).1 = (w.files.find path).map fun _ => () := by
  rw [run_answer, h.turned]
  rfl

theorem Undisturbed.run_isCancelled (h : w.Undisturbed) :
    ((answer .isCancelled).run w).1 = false := by
  rw [run_answer, h.turned]
  exact h.going

theorem Undisturbed.run_trial (h : w.Undisturbed) (limit : Option Duration) {work : Work}
    {carried : Patience → FileSystem × Except SystemError Nat}
    (hw : w.workOn? (w.schedule w.clock).hitches work = some carried) :
    ((answer (.trial work limit)).run w).1 =
        ((carried none).2.mapError .system).map (⟨·, (w.schedule w.clock).elapsed⟩) ∧
      w.Proceeds (carried none).1 ((answer (.trial work limit)).run w).2 := by
  have hgoing : ({ w with clock := w.clock + 1 } : Surroundings).isCancelled = false := h.going
  rw [run_answer, h.turned, answerIn, trial, hgoing]
  simp only [Bool.false_eq_true, if_false, carryOut, h.intervention]
  cases work with
  | copy source dest | drain path =>
    cases hw
    simp only [workOnFiles, interrupted?, h.intervention, Option.bind_none]
    exact ⟨rfl, rfl, rfl, h.congr rfl rfl rfl⟩
  | upload store name path | download store name => cases hw

theorem Undisturbed.run_print (h : w.Undisturbed) (ho : w.output = .file out)
    (hx : w.files.content? out = some x) (line : Line) :
    ((answer (.print line)).run w).1 = .ok () ∧
      w.Proceeds (w.files.append out line.text.toUTF8).1 ((answer (.print line)).run w).2 := by
  have hn := FileSystem.content?_eq_some_iff.mp hx
  rw [run_answer, h.turned, answerIn, print]
  simp only [ho]
  refine ⟨?_, rfl, ho.symm, h.congr rfl rfl rfl⟩
  rw [FileSystem.append, hn]

theorem Undisturbed.run_remove (h : w.Undisturbed) (path : String) :
    (∃ fs, w.files.remove path = .ok fs ∧ ((answer (.remove path)).run w).1 = .ok () ∧
        w.Proceeds fs ((answer (.remove path)).run w).2) ∨
      ∃ e, w.files.remove path = .error e ∧ ((answer (.remove path)).run w).1 = .error e ∧
        w.Proceeds w.files ((answer (.remove path)).run w).2 := by
  rcases Surroundings.run_remove path w with ⟨fs, hr, he⟩ | ⟨e, hr | hdenied, he⟩
  · rw [h.turned] at hr he
    rw [he]
    exact .inl ⟨fs, hr, rfl, rfl, rfl, h.congr rfl rfl rfl⟩
  · rw [h.turned] at hr he
    rw [he]
    exact .inr ⟨e, hr, rfl, rfl, rfl, h.congr rfl rfl rfl⟩
  · cases (h.denial _).symm.trans hdenied

theorem Undisturbed.run_openOutput (h : w.Undisturbed) {path : String}
    (hok : w.files.create path = .ok (fs, out)) :
    ((answer (.openOutput (some path))).run w).1 = .ok () ∧
      ((answer (.openOutput (some path))).run w).2.files = fs ∧
      ((answer (.openOutput (some path))).run w).2.output = .file out ∧
      ((answer (.openOutput (some path))).run w).2.Undisturbed := by
  have hopened : ({ w with clock := w.clock + 1 } : Surroundings).openOutput (some path) =
      ({ w with clock := w.clock + 1, files := fs, output := .file out }, .ok ()) := by
    rw [openOutput]
    simp only [hok]
  rw [run_answer, h.turned, answerIn, hopened]
  exact ⟨rfl, rfl, rfl, h.congr rfl rfl rfl⟩

theorem Undisturbed.run_saveText (h : w.Undisturbed) (path text : String) :
    ((answer (.saveText path text)).run w).1 = (w.files.saveText path text).2 ∧
      w.Proceeds (w.files.saveText path text).1 ((answer (.saveText path text)).run w).2 := by
  rw [run_answer, h.turned]
  exact ⟨rfl, rfl, rfl, h.congr rfl rfl rfl⟩

theorem Proceeds.trans {u : Surroundings} {fs fs' : FileSystem} (h : u.Proceeds fs w)
    (h' : w.Proceeds fs' w') : u.Proceeds fs' w' :=
  ⟨h'.files, h'.output.trans h.output, h'.undisturbed⟩

theorem Undisturbed.refl (h : w.Undisturbed) : w.Proceeds w.files w := ⟨rfl, rfl, h⟩

end Surroundings

theorem undisturbed_calm (fs : FileSystem) : (Surroundings.calm fs).Undisturbed :=
  ⟨fun _ => rfl, fun _ => rfl, fun _ => rfl, fun _ => rfl, rfl⟩

/-- A request has changed no file. -/
structure Moment.Still (m : Moment Surroundings) : Prop where
  idle : Surroundings.Idle m.request
  files : m.after.files = m.before.files

namespace Surroundings

open Runner

variable {w : Surroundings}

theorem Undisturbed.ask (h : w.Undisturbed) {α : Type} {r : Request} (hr : Idle r)
    {next : r.Answer → Dialogue α} {post : α → Surroundings → Prop}
    (hnext : ∀ w', w.Proceeds w.files w' →
      (next ((answer r).run w).1).Meets answer Moment.Still w' post) :
    (Dialogue.ask r next).Meets answer Moment.Still w post :=
  have hafter := h.idle hr
  .ask ⟨hr, hafter.files⟩ (hnext _ hafter)

theorem Undisturbed.meets_examine (h : w.Undisturbed) (path : String) :
    (SourceFile.examine path).Meets answer Moment.Still w fun status w' =>
      status = w.files.status path ∧ w.Proceeds w.files w' := by
  refine h.ask (r := .inspect path) trivial fun w₁ h₁ => ?_
  rw [h.run_inspect, FileSystem.status]
  cases hi : w.files.inspect path with
  | error e => exact .done ⟨rfl, h₁⟩
  | ok found =>
    cases found with
    | directory | other => exact .done ⟨rfl, h₁⟩
    | file size =>
      refine h₁.undisturbed.ask (r := .probe path) trivial fun w₂ h₂ => ?_
      -- what has been looked at can be opened, as nobody has taken it away
      obtain ⟨x, hx, -⟩ := FileSystem.bytes?_of_inspect hi
      obtain ⟨id, hid, -⟩ := FileSystem.bytes?_eq_some_iff.mp hx
      rw [h₁.undisturbed.run_probe, h₁.files, hid]
      exact .done ⟨rfl, h₁.trans (h₁.files ▸ h₂)⟩

theorem Undisturbed.meets_ofNames (h : w.Undisturbed) (dir : String) (names : List String) :
    (SourceFile.ofNames dir names).Meets answer Moment.Still w fun files w' =>
      files = names.map (w.files.source dir) ∧ w.Proceeds w.files w' := by
  induction names generalizing w with
  | nil => exact .done ⟨rfl, h.refl⟩
  | cons name names ih =>
    refine .bind (.bind ((h.meets_examine _).weaken fun status w₁ hpost => .done ?_))
    obtain ⟨hstatus, h₁⟩ := hpost
    refine .bind ((ih h₁.undisturbed).weaken fun files w₂ hpost => .done ?_)
    obtain ⟨hfiles, h₂⟩ := hpost
    refine ⟨?_, h₁.trans (h₁.files ▸ h₂)⟩
    rw [hfiles, hstatus, h₁.files]
    rfl

theorem Undisturbed.meets_checkSourceDir (h : w.Undisturbed) (dir : String) :
    (checkSourceDir dir).dialogue.Meets answer Moment.Still w fun r w' =>
      (r = .ok () ↔ w.files.inspect dir = .ok .directory) ∧ w.Proceeds w.files w' := by
  refine h.ask (r := .inspect dir) trivial fun w₁ h₁ => ?_
  rw [h.run_inspect]
  cases w.files.inspect dir with
  | error e => exact .done ⟨by simp, h₁⟩
  | ok found => cases found <;> exact .done ⟨by simp, h₁⟩

theorem Undisturbed.meets_resolveSources (h : w.Undisturbed) {dir : String}
    (hdir : w.files.inspect dir = .ok .directory) (names : List String) :
    (resolveSources dir names).dialogue.Meets answer Moment.Still w fun r w' =>
      r = .ok (names.map (w.files.source dir)) ∧ w.Proceeds w.files w' := by
  refine .attempt_bind ((h.meets_checkSourceDir dir).weaken fun r w₁ hpost => ?_)
  obtain ⟨hr, h₁⟩ := hpost
  rw [hr.mpr hdir]
  refine .bind ((h₁.undisturbed.meets_ofNames dir names).weaken fun files w₂ hpost => .done ?_)
  obtain ⟨hfiles, h₂⟩ := hpost
  refine ⟨?_, h₁.trans (h₁.files ▸ h₂)⟩
  rw [hfiles, h₁.files]

theorem Undisturbed.meets_checkDestinationDir (h : w.Undisturbed) (dir : String) :
    (checkDestinationDir dir).dialogue.Meets answer Moment.Still w fun r w' =>
      (r = .ok () ↔ w.files.inspect dir = .ok .directory) ∧ w.Proceeds w.files w' := by
  refine h.ask (r := .inspect dir) trivial fun w₁ h₁ => ?_
  rw [h.run_inspect]
  cases w.files.inspect dir with
  | error e => exact .done ⟨by simp, h₁⟩
  | ok found => cases found <;> exact .done ⟨by simp, h₁⟩

end Surroundings

structure Settings.Acceptable (s : Settings) (fs : FileSystem) : Prop where
  files : s.files ≠ []
  loops : s.loopCount ≠ 0
  source : fs.inspect s.sourceDir = .ok .directory
  destination : ∃ dir, s.destinationDir = some dir ∧ fs.inspect dir = .ok .directory

theorem Surroundings.Undisturbed.meets_checkFor {w : Surroundings} (h : w.Undisturbed)
    (s : Settings) :
    (s.checkFor .mounted).dialogue.Meets answer Moment.Still w fun r w' =>
      (r = .ok () ↔ s.Acceptable w.files) ∧ w.Proceeds w.files w' := by
  unfold Settings.checkFor
  by_cases hfiles : s.files = []
  · rw [if_pos (by simp [hfiles])]
    exact .done ⟨⟨fun he => (nomatch he), fun ha => absurd hfiles ha.files⟩, h.refl⟩
  by_cases hloops : s.loopCount = 0
  · rw [if_neg (by simp [hfiles]), if_pos hloops]
    exact .done ⟨⟨fun he => (nomatch he), fun ha => absurd hloops ha.loops⟩, h.refl⟩
  rw [if_neg (by simp [hfiles]), if_neg hloops]
  refine .attempt_bind ((h.meets_checkSourceDir s.sourceDir).weaken fun r w₁ hpost => ?_)
  obtain ⟨hr, h₁⟩ := hpost
  cases r with
  | error e =>
    have hnot : ¬ w.files.inspect s.sourceDir = .ok .directory := fun hd => nomatch hr.mpr hd
    exact ⟨⟨fun he => (nomatch he), fun ha => absurd ha.source hnot⟩, h₁⟩
  | ok _ =>
    cases hdir : s.destinationDir with
    | none =>
      refine .done ⟨⟨fun he => (nomatch he), fun ha => ?_⟩, h₁⟩
      obtain ⟨dir, hsome, -⟩ := ha.destination
      cases hdir.symm.trans hsome
    | some dir =>
      refine (h₁.undisturbed.meets_checkDestinationDir dir).weaken fun r w₂ hpost => ?_
      obtain ⟨hr₂, h₂⟩ := hpost
      refine ⟨?_, h₁.trans (h₁.files ▸ h₂)⟩
      rw [hr₂, h₁.files]
      constructor
      · exact fun hd => ⟨hfiles, hloops, hr.mp rfl, dir, hdir, hd⟩
      · rintro ⟨-, -, -, dir', hdir', hd⟩
        cases hdir.symm.trans hdir'
        exact hd

end StorageTrials

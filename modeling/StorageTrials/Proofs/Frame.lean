import StorageTrials.Proofs.Completion
import StorageTrials.Proofs.Denials
import StorageTrials.Proofs.Refusal
import StorageTrials.Proofs.Turns

namespace StorageTrials

open FileSystem Invocation Runner Surroundings

variable {c : Scene} {w w' : Surroundings} {s : Settings} {dir path : String} {paths : List String}
variable {fs fs' : FileSystem} {id : NodeId} {α : Type}

namespace FileSystem

def opened (fs : FileSystem) : Option String → FileSystem
  | none => fs
  | some path =>
    match fs.create path with
    | .ok (fs', _) => fs'
    | .error _ => fs

theorem opened_of_create (h : fs.create path = .ok (fs', id)) : fs.opened (some path) = fs' := by
  simp only [opened, h]

theorem opened_of_error {e : SystemError} (h : fs.create path = .error e) :
    fs.opened (some path) = fs := by
  simp only [opened, h]

theorem extends_opened (h : fs.WellFormed) (outfile : Option String) :
    ∃ id, fs.Extends (fs.opened outfile) id := by
  cases outfile with
  | none => exact ⟨root, .refl h root⟩
  | some path =>
    cases hc : fs.create path with
    | error e =>
      rw [opened_of_error hc]
      exact ⟨root, .refl h root⟩
    | ok made =>
      rw [opened_of_create hc]
      exact ⟨made.2, extends_create h hc⟩

end FileSystem

def Settings.outputs (s : Settings) : List String := s.outfile.toList ++ s.summaryPath.toList

theorem Settings.outfile_mem_outputs (h : s.outfile = some path) : path ∈ s.outputs := by
  simp [outputs, h]

theorem Settings.summaryPath_mem_outputs (h : s.summaryPath = some path) : path ∈ s.outputs := by
  simp [outputs, h]

/-- The destinations of the files that are ready when the statistics have been opened. -/
def Settings.destinations (s : Settings) (dir : String) (fs : FileSystem) : List String :=
  ((s.sources (fs.opened s.outfile)).filter (·.isReady)).map fun f => Path.join dir f.name

/-- Names to which an invocation gives files, where certain paths are opened as they are. At the end
of such a path a file is made only if the name is free. -/
def Settings.Names (s : Settings) (dir : String) (paths : List String) (fs : FileSystem)
    (σ : Slot) : Prop :=
  σ ∈ mountedTargets (fs.opened s.outfile) dir (s.sources (fs.opened s.outfile)) ∨
    fs.lookup? σ.1 σ.2 = none ∧ ∃ path ∈ paths, (fs.opened s.outfile).outlet? path = some σ

def Settings.Writes (s : Settings) (paths : List String) (fs : FileSystem) (id : NodeId) : Prop :=
  ∃ path ∈ paths, (fs.opened s.outfile).find path = .ok id

/-- What an invocation leaves of a tree. -/
structure Frame (s : Settings) (dir : String) (paths : List String) (before after : FileSystem) :
    Prop where
  workingDir : after.workingDir = before.workingDir
  directories : ∀ id up, before.node? id = some (.directory up) →
    after.node? id = some (.directory up)
  others : ∀ σ : Slot, ¬ s.Names dir paths before σ →
    after.lookup? σ.1 σ.2 = before.lookup? σ.1 σ.2
  nodes : ∀ (σ : Slot) (id : NodeId), before.lookup? σ.1 σ.2 = some id →
    after.lookup? σ.1 σ.2 = some id → after.node? id = before.node? id ∨
      s.Writes paths before id ∧ before.isFile id ∧ after.isFile id
  touched : ∀ σ : Slot, after.lookup? σ.1 σ.2 ≠ before.lookup? σ.1 σ.2 →
    ∀ id, after.lookup? σ.1 σ.2 = some id → before.nodes.size ≤ id ∧ after.isFile id
  standing : ∀ (σ : Slot) (id : NodeId), before.lookup? σ.1 σ.2 = some id →
    before.isDirectory id = true → after.lookup? σ.1 σ.2 = some id

def ownScene (s : Settings) (dir : String) (paths : List String) (fs : FileSystem) : Scene where
  first := fs
  ways _ := True
  targets := s.Names dir paths fs
  stream id := s.Writes paths fs id ∨ fs.nodes.size ≤ id

/-- The same scene from the moment when the statistics have been opened. -/
def startedScene (s : Settings) (dir : String) (paths : List String) (fs : FileSystem) : Scene :=
  (ownScene s dir paths fs).restart (fs.opened s.outfile)

namespace Scene

theorem holds_opened (h : fs.WellFormed) (hout : s.outputs ⊆ paths) :
    (ownScene s dir paths fs).Holds (fs.opened s.outfile) := by
  have hfirst : (ownScene s dir paths fs).Holds fs := holds_first h
  cases ho : s.outfile with
  | none => exact hfirst
  | some path =>
    have hmem := hout (Settings.outfile_mem_outputs ho)
    cases hc : fs.create path with
    | error e =>
      rw [opened_of_error hc]
      exact hfirst
    | ok made =>
      obtain ⟨fs', id⟩ := made
      have hopened : fs.opened s.outfile = fs' := by rw [ho, opened_of_create hc]
      rw [opened_of_create hc]
      apply hfirst.open hc
      · intro d n hl hfree
        refine Or.inr ⟨hfree, path, hmem, ?_⟩
        rw [hopened]
        exact outlet?_of_locate ((extends_create h hc).locate hl)
      · refine Or.inl ⟨path, hmem, ?_⟩
        rw [hopened]
        exact find_create h hc

theorem startedScene_allows {f : SourceFile}
    (hf : f ∈ s.sources (fs.opened s.outfile)) (hr : f.isReady = true) :
    (startedScene s dir paths fs).Allows (Path.join dir f.name) where
  lookups _ _ := trivial
  place _ _ := trivial
  target _ hσ hd := .inl (mem_mountedTargets_of_place? hf hr hσ hd)

theorem startedScene_opens (h : fs.WellFormed) (hp : path ∈ paths) :
    (startedScene s dir paths fs).Opens path := by
  obtain ⟨out, hext⟩ := extends_opened h s.outfile
  refine ⟨fun _ _ => trivial, fun _ _ => trivial, fun σ hσ => ⟨trivial, fun hfree => ?_⟩,
    fun id hid => .inl ⟨path, hp, hid⟩, fun id hle => .inr (Nat.le_trans hext.holds.size hle)⟩
  refine Or.inr ⟨?_, path, hp, hσ⟩
  -- what was there before the statistics were opened is there still
  cases he : fs.lookup? σ.1 σ.2 with
  | none => rfl
  | some id => cases (hext.lookup? he).symm.trans hfree

theorem not_names_of_directory (h : fs.WellFormed) {σ : Slot}
    (hid : fs.lookup? σ.1 σ.2 = some id) (hdir : fs.isDirectory id = true) :
    ¬ s.Names dir paths fs σ := by
  rintro (ht | ⟨hfree, -⟩)
  · obtain ⟨f, -, -, hf⟩ := mem_mountedTargets.mp ht
    obtain ⟨out, hext⟩ := extends_opened h s.outfile
    have hvacant := (target?_eq_some_iff.mp hf).2 id (hext.lookup? hid)
    obtain ⟨up, hup⟩ := isDirectory_iff.mp hdir
    rw [isDirectory_iff.mpr ⟨up, hext.holds.directories id up hup⟩] at hvacant
    cases hvacant
  · rw [hid] at hfree
    cases hfree

end Scene

theorem Scene.Holds.frame (h : (ownScene s dir paths fs).Holds fs') :
    Frame s dir paths fs fs' where
  workingDir := h.workingDir
  directories := h.directories
  others σ hσ := by
    cases h.slots σ trivial with
    | inl hk => exact hk.entry
    | inr ht => exact absurd ht.1 hσ
  nodes σ id hid hid' := by
    cases h.slots σ trivial with
    | inr ht => exact absurd (h.first.lt_size hid) (Nat.not_lt.mpr (ht.2 id hid').1)
    | inl hk =>
      obtain hn | ⟨hs | hle, hf⟩ := hk.node id hid
      · exact Or.inl hn
      · exact Or.inr ⟨hs, hf⟩
      · exact absurd (h.first.lt_size hid) (Nat.not_lt.mpr hle)
  touched σ hσ id hid := by
    cases h.slots σ trivial with
    | inl hk => exact absurd hk.entry hσ
    | inr ht => exact ht.2 id hid
  standing σ id hid hdir := by
    cases h.slots σ trivial with
    | inl hk => exact hk.entry.trans hid
    | inr ht => exact absurd ht.1 (not_names_of_directory h.first hid hdir)

structure Scene.Within (c : Scene) (m : Moment Surroundings) : Prop where
  before : c.Holds m.before.files
  after : c.Holds m.after.files

theorem asks_gate (s : Settings) (bs : List Backend) : (gate s bs).dialogue.Asks Observes := by
  induction bs with
  | nil => trivial
  | cons b bs ih =>
    rw [gate, Attempt.dialogue_lift_bind]
    apply Dialogue.asks_bind (Dialogue.asks_mono (fun _ => observes_of_looks) (asks_checkFor s b))
    intro r
    cases r with
    | ok _ => exact ih
    | error e => exact ⟨trivial, fun _ => trivial⟩

theorem asks_isRunnable (s : Settings) : (mounted s).isRunnable.Asks Observes := by
  apply Dialogue.asks_bind
  · exact Dialogue.asks_mono (fun _ => observes_of_looks) (asks_checkFor s .mounted)
  · intro r
    cases r with
    | ok _ => trivial
    | error e => exact ⟨trivial, fun _ => trivial⟩

theorem asks_areRunnable (s : Settings) : (areRunnable [mounted s]).Asks Observes := by
  apply Dialogue.asks_bind (asks_isRunnable s)
  intro b
  cases b <;> trivial

namespace Surroundings

theorem Alone.meets_within (h : w.Alone) (hc : c.Holds w.files) {d : Dialogue α}
    (hd : d.Asks Observes) :
    d.Meets answer c.Within w fun a w' => a = d.result answer w ∧ w.Stays w' := by
  have hasks : d.Asks (Request.Preserves answer c.Within w.Stays) := by
    apply Dialogue.asks_mono _ hd
    intro r hr u hu
    have hu' := hu.trans ((hu.alone h).observe hr)
    have hbefore : c.Holds u.files := by rwa [hu.files]
    have hafter : c.Holds ((answer r).run u).2.files := by rwa [hu'.files]
    exact ⟨⟨hbefore, hafter⟩, hu'⟩
  exact (hasks.meets (.refl w)).with_result

theorem Alone.meets_buildMounted (h : w.Alone) (hc : c.Holds w.files) (hmode : s.mode = .mounted) :
    (buildRunners s).dialogue.Meets answer c.Within w fun r w' =>
      w.Stays w' ∧ ∀ rs, r = .ok rs → rs = [mounted s] ∧ Accepted s w .mounted := by
  rw [buildRunners, hmode]
  have hgate := (h.meets_within hc (asks_gate s [.mounted])).and (h.meets_gate s [.mounted])
  refine .attempt_bind (hgate.mono (fun _ hm => hm.1) fun r w₁ hpost => ?_)
  obtain ⟨⟨-, h₁⟩, haccepted, -⟩ := hpost
  cases r with
  | error e =>
    refine ⟨h₁, fun rs hrs => ?_⟩
    cases hrs
  | ok _ =>
    refine .done ⟨h₁, fun rs hrs => ?_⟩
    cases hrs
    exact ⟨rfl, haccepted.mp rfl .mounted List.mem_cons_self⟩

theorem Alone.run_openOutput (h : w.Alone) (hwf : w.files.WellFormed) (outfile : Option String) :
    ((answer (.openOutput outfile)).run w).2.schedule = w.schedule ∧
      match ((answer (.openOutput outfile)).run w).1 with
      | .error _ => ((answer (.openOutput outfile)).run w).2.files = w.files
      | .ok _ => ((answer (.openOutput outfile)).run w).2.files = w.files.opened outfile ∧
          ∀ id, ((answer (.openOutput outfile)).run w).2.output = .file id →
            id < (w.files.opened outfile).nodes.size ∧
              ∃ path, outfile = some path ∧ (w.files.opened outfile).find path = .ok id := by
  have ht := h.turned
  rw [run_answer]
  cases outfile with
  | none =>
    refine ⟨ht.schedule, ht.files, fun id hid => ?_⟩
    cases hid
  | some path =>
    rw [answerIn, openOutput, ht.files]
    cases hc : w.files.create path with
    | error e => exact ⟨ht.schedule, ht.files⟩
    | ok made =>
      obtain ⟨fs', out⟩ := made
      rw [opened_of_create hc]
      refine ⟨ht.schedule, rfl, fun id hid => ?_⟩
      cases hid
      have hfound := find_create hwf hc
      refine ⟨?_, path, rfl, hfound⟩
      obtain ⟨d, n, -, ⟨-, hadd⟩ | ⟨hchild, -⟩⟩ := create_cases hc
      · obtain ⟨rfl, rfl⟩ := Prod.mk.inj hadd
        simp
      · have hlt := hwf.lt_size (child_eq_ok_iff.mp hchild).2
        exact Nat.lt_of_lt_of_le hlt (extends_create hwf hc).holds.size

end Surroundings

theorem Scene.Ongoing.meets_save (h : c.Ongoing w)
    (hopens : ∀ path, s.summaryPath = some path → c.Opens path) (summary : Summary) :
    (save summary s.summaryPath).Meets answer c.During w fun _ w' => c.Ongoing w' := by
  cases hpath : s.summaryPath with
  | none => exact .done h
  | some path =>
    have hsaved : c.Ongoing ((answer (.saveText path summary.written)).run w).2 :=
      h.turned.follow ⟨rfl, fun _ => Iff.rfl⟩
        (h.turned.files.saveText (hopens path hpath) summary.written)
    refine .ask_bind ⟨h, hsaved⟩ ?_
    split
    · exact hsaved.meets_reports ⟨trivial, fun _ => trivial⟩
    · exact hsaved.meets_reports ⟨trivial, fun _ => trivial⟩

/-- Surroundings in which the statistics have just been opened. Removals may be refused only if the
destinations are among the paths that are opened as they are. -/
structure Surroundings.Started (w : Surroundings) (s : Settings) (dir : String)
    (paths : List String) (fs : FileSystem) : Prop where
  ongoing : (startedScene s dir paths fs).Ongoing w
  alone : w.Alone
  files : w.files = fs.opened s.outfile
  destinations : ¬ w.Permits → s.destinations dir fs ⊆ paths

namespace Surroundings.Started

theorem observe (h : w.Started s dir paths fs) {r : Request} (hr : Observes r) :
    ((answer r).run w).2.Started s dir paths fs ∧
      (startedScene s dir paths fs).During (.of answer r w) := by
  have hstays := h.alone.observe hr
  have hafter : (startedScene s dir paths fs).Ongoing ((answer r).run w).2 := by
    cases r with
    | inspect path | probe path | isCancelled | report event =>
      exact h.ongoing.after_harmless trivial
    | connect c limit | now => exact h.ongoing.turned
    | _ => exact hr.elim
  refine ⟨⟨hafter, hstays.alone h.alone, hstays.files.trans h.files, ?_⟩, h.ongoing, hafter⟩
  rw [Permits, hstays.schedule]
  exact h.destinations

theorem tolerates {files : List SourceFile} (h : w.Started s dir paths fs) (hwf : fs.WellFormed)
    (hfiles : (resolveSources s.sourceDir s.files).dialogue.result answer w = .ok files)
    {f : SourceFile} (hf : f ∈ files) (hr : f.isReady = true) :
    (startedScene s dir paths fs).Tolerates w (Path.join dir f.name) := by
  have hsources := (h.ongoing.meets_resolveSources h.files (fun _ _ _ _ => trivial) hfiles).ends.2.1
  have hmem : f ∈ s.sources (fs.opened s.outfile) := by rwa [hsources] at hf
  refine ⟨Scene.startedScene_allows hmem hr, fun hrefused => Scene.startedScene_opens hwf ?_⟩
  exact h.destinations hrefused (List.mem_map_of_mem (List.mem_filter.mpr ⟨hmem, hr⟩))

theorem meets_runOne (h : w.Started s dir paths fs) (hwf : fs.WellFormed)
    (hdir : s.destinationDir = some dir) (hloops : s.loopCount ≠ 0) :
    (runOne (mounted s)).run.Meets answer (startedScene s dir paths fs).During w
      fun _ w' => (startedScene s dir paths fs).Ongoing w' := by
  have hrun := (h.ongoing.meets_mountedRun hdir hloops
    fun files hfiles f hf hr => h.tolerates hwf hfiles hf hr).tallied (fun _ hm => hm.after) .empty
  refine .option_bind (hrun.weaken fun r w₁ h₁ => ?_)
  cases r with
  | none => exact h₁
  | some ended =>
    refine .option_lift ((Scene.Ongoing.meets_reports h₁ (asks_judge _ _)).weaken
      fun completed w₂ h₂ => .option_bind (.done ?_))
    cases ended.1.summary? (mounted s).backend.name completed with
    | none => exact h₂
    | some summary =>
      exact .option_lift ((h₂.meets_reports (asks_reportGroups _ _)).weaken
        fun _ _ h₃ => .done h₃)

theorem meets_runEach (h : w.Started s dir paths fs) (hwf : fs.WellFormed)
    (hdir : s.destinationDir = some dir) (hloops : s.loopCount ≠ 0) :
    (runEach [mounted s] 0 []).run.Meets answer (startedScene s dir paths fs).During w
      fun _ w' => (startedScene s dir paths fs).Ongoing w' := by
  obtain ⟨h₁, hkind⟩ := h.observe (r := .isCancelled) trivial
  refine .option_ask hkind ?_
  cases ((answer .isCancelled).run w).1 with
  | true =>
    obtain ⟨h₂, hkind⟩ := h₁.observe (r := .report (.cancelledBeforeStart .mounted)) trivial
    exact .option_ask hkind (.done h₂.ongoing)
  | false =>
    refine .option_bind ((h₁.meets_runOne hwf hdir hloops).weaken fun r w₂ h₂ => ?_)
    cases r with
    | none => exact h₂
    | some summary => exact .done h₂

theorem meets_serve (h : w.Started s dir paths fs) (hwf : fs.WellFormed)
    (hout : s.outputs ⊆ paths) (hdir : s.destinationDir = some dir) (hloops : s.loopCount ≠ 0) :
    (do
      let timestamp ← Ask.now
      let (failed, summaries) ← runEach [mounted s] 0 []
      save ⟨timestamp, s.loopCount, summaries⟩ s.summaryPath
      return (failed : Int) : OptionT Dialogue Int).run.Meets answer
        (startedScene s dir paths fs).During w
        fun _ w' => (startedScene s dir paths fs).Ongoing w' := by
  obtain ⟨h₁, hkind⟩ := h.observe (r := .now) trivial
  refine .option_ask hkind (.option_bind ((h₁.meets_runEach hwf hdir hloops).weaken
    fun r w₂ h₂ => ?_))
  cases r with
  | none => exact h₂
  | some p =>
    refine .option_lift ((h₂.meets_save (fun path hpath => ?_) _).weaken fun _ _ h₃ => .done h₃)
    exact Scene.startedScene_opens hwf (hout (Settings.summaryPath_mem_outputs hpath))

end Surroundings.Started

namespace Surroundings

theorem Alone.started {fs : FileSystem} (h : w.Alone) (hwf : fs.WellFormed)
    (hout : s.outputs ⊆ paths) (hdest : ¬ w.Permits → s.destinations dir fs ⊆ paths)
    (hfiles : w.files = fs.opened s.outfile)
    (hstream : ∀ id, w.output = .file id → id < (fs.opened s.outfile).nodes.size ∧
      ∃ path, s.outfile = some path ∧ (fs.opened s.outfile).find path = .ok id) :
    w.Started s dir paths fs where
  ongoing :=
    { files := by
        have hopened : (ownScene s dir paths fs).Holds (fs.opened s.outfile) :=
          Scene.holds_opened hwf hout
        rw [hfiles]
        exact Scene.holds_first hopened.wellFormed
      others := fun k gs => by
        rw [h]
        exact .refl _ gs
      stream := fun id hid => by
        obtain ⟨hlt, path, hpath, hf⟩ := hstream id hid
        exact ⟨Or.inl ⟨path, hout (Settings.outfile_mem_outputs hpath), hf⟩, hlt⟩ }
  alone := h
  files := hfiles
  destinations := hdest

variable (hout : s.outputs ⊆ paths)
include hout

theorem Alone.meets_executeMounted (h : w.Alone) (hwf : w.files.WellFormed)
    (hdest : ¬ w.Permits → s.destinations dir w.files ⊆ paths)
    (hdir : s.destinationDir = some dir) (hloops : s.loopCount ≠ 0) :
    (execute s [mounted s]).run.Meets answer (ownScene s dir paths w.files).Within w
      fun _ w' => (ownScene s dir paths w.files).Holds w'.files := by
  have hfirst : (ownScene s dir paths w.files).Holds w.files := Scene.holds_first hwf
  have hopened : (ownScene s dir paths w.files).Holds (w.files.opened s.outfile) :=
    Scene.holds_opened hwf hout
  refine .option_lift ((h.meets_within hfirst (asks_areRunnable s)).weaken fun b w₁ hpost => ?_)
  obtain ⟨-, h₁⟩ := hpost
  cases b with
  | false =>
    refine .done ?_
    rwa [h₁.files]
  | true =>
    have halone₁ := h₁.alone h
    obtain ⟨hschedule, hrun⟩ := halone₁.run_openOutput (h₁.files ▸ hwf) s.outfile
    have hfirst₁ : (ownScene s dir paths w.files).Holds w₁.files := by rwa [h₁.files]
    generalize hw₂ : ((answer (.openOutput s.outfile)).run w₁).2 = w₂ at hschedule hrun
    have halone₂ : w₂.Alone := fun k => by rw [hschedule, halone₁]
    cases hans : ((answer (.openOutput s.outfile)).run w₁).1 with
    | error e =>
      simp only [hans] at hrun
      have hfirst₂ : (ownScene s dir paths w.files).Holds w₂.files := by rwa [hrun]
      have hreport := halone₂.observe (r := .report (.cannotOpenOutput (.system e))) trivial
      have hfirst₃ : (ownScene s dir paths w.files).Holds
          ((answer (.report (.cannotOpenOutput (.system e)))).run w₂).2.files := by
        rwa [hreport.files]
      refine .option_ask ⟨hfirst₁, hw₂ ▸ hfirst₂⟩ ?_
      rw [hans, hw₂]
      exact .option_ask ⟨hfirst₂, hfirst₃⟩ (.done hfirst₃)
    | ok _ =>
      simp only [hans, h₁.files] at hrun
      obtain ⟨hfiles, hstream⟩ := hrun
      have hstarted : w₂.Started s dir paths w.files := by
        refine halone₂.started hwf hout (fun hrefused => hdest fun hpermits => hrefused ?_) hfiles
          hstream
        rwa [Permits, hschedule, h₁.schedule]
      refine .option_ask ⟨hfirst₁, hw₂ ▸ hopened.trans hstarted.ongoing.files⟩ ?_
      rw [hans, hw₂]
      exact (hstarted.meets_serve hwf hout hdir hloops).mono
        (fun _ hm => ⟨hopened.trans hm.before.files, hopened.trans hm.after.files⟩)
        fun _ _ h₃ => hopened.trans h₃.files

theorem Alone.meets_runMounted (h : w.Alone) (hwf : w.files.WellFormed)
    (hdest : ¬ w.Permits → s.destinations dir w.files ⊆ paths) (hmode : s.mode = .mounted)
    (hdir : s.destinationDir = some dir) :
    (idle.configure s).run.run.Meets answer (ownScene s dir paths w.files).Within w
      fun _ w' => (ownScene s dir paths w.files).Holds w'.files := by
  have hfirst : (ownScene s dir paths w.files).Holds w.files := Scene.holds_first hwf
  refine .option_bind (.option_lift ((h.meets_buildMounted hfirst hmode).weaken
    fun r w₁ hpost => ?_))
  obtain ⟨h₁, hbuilt⟩ := hpost
  have hfirst₁ : (ownScene s dir paths w.files).Holds w₁.files := by rwa [h₁.files]
  cases r with
  | error e =>
    have h₂ := h₁.trans ((h₁.alone h).observe (r := .report (.cannotStart e)) trivial)
    have hfirst₂ : (ownScene s dir paths w.files).Holds
        ((answer (.report (.cannotStart e))).run w₁).2.files := by rwa [h₂.files]
    exact .option_ask ⟨hfirst₁, hfirst₂⟩ (.done (.done hfirst₂))
  | ok rs =>
    obtain ⟨rfl, haccepted⟩ := hbuilt rs rfl
    have hrun := (h₁.alone h).meets_executeMounted hout (h₁.files ▸ hwf)
      (fun hrefused => h₁.files ▸ hdest (by rwa [Permits, ← h₁.schedule])) hdir
      (loopCount_ne_zero_of_check haccepted)
    rw [h₁.files] at hrun
    refine hrun.weaken fun r w₂ hpost => ?_
    cases r with
    | none => exact hpost
    | some code => exact .done hpost

omit hout in
theorem Alone.meets_frame (h : w.Alone) (hwf : w.files.WellFormed) (hmode : s.mode = .mounted)
    (hdir : s.destinationDir = some dir) (hout : s.outputs ⊆ paths)
    (hdest : ¬ w.Permits → s.destinations dir w.files ⊆ paths) :
    (idle.configure s).run.run.Meets answer
      (fun m => Frame s dir paths w.files m.before.files ∧
        Frame s dir paths w.files m.after.files) w
      fun _ w' => Frame s dir paths w.files w'.files :=
  (h.meets_runMounted hout hwf hdest hmode hdir).mono
    (fun _ hm => ⟨hm.before.frame, hm.after.frame⟩) fun _ _ hw => hw.frame

end Surroundings

/-- What an invocation leaves of a tree if nobody forbids that something is removed, and in any
case: a destination from which nothing could be removed is opened as it is. -/
structure Settings.Leaves (s : Settings) (dir : String) (w : Surroundings) (after : FileSystem) :
    Prop where
  permitted : w.Permits → Frame s dir s.outputs w.files after
  refused : Frame s dir (s.outputs ++ s.destinations dir w.files) w.files after

/-- Whatever is interrupted, at no moment of an invocation for the mounted directory is anything
touched but the destinations of the ready files and the files of the statistics and of the summary.
Where a removal is refused, what a destination leads to may be written to as well. -/
theorem mounted_invocation_spares_the_rest (h : w.Alone) (hwf : w.files.WellFormed)
    (hmode : s.mode = .mounted) (hdir : s.destinationDir = some dir) :
    (∀ m ∈ (idle.configure s).run.run.moments answer w,
      s.Leaves dir w m.before.files ∧ s.Leaves dir w m.after.files) ∧
    s.Leaves dir w ((idle.configure s).run.run.final answer w).files := by
  have hrefused := h.meets_frame hwf hmode hdir (List.subset_append_left _ _)
    fun _ => List.subset_append_right _ _
  have hpermitted (hp : w.Permits) := h.meets_frame hwf hmode hdir (List.Subset.refl s.outputs)
    fun hrefused => absurd hp hrefused
  constructor
  · intro m hm
    exact ⟨⟨fun hp => ((hpermitted hp).moments m hm).1, (hrefused.moments m hm).1⟩,
      ⟨fun hp => ((hpermitted hp).moments m hm).2, (hrefused.moments m hm).2⟩⟩
  · exact ⟨fun hp => (hpermitted hp).ends, hrefused.ends⟩

def sampleInterrupted : Surroundings :=
  { Surroundings.calm sampleLinked with
    schedule := fun k => { Turn.calm with cancels := k = 20, intervention := some (.limit 1) } }

def sampleOutputs : Settings :=
  { sampleSettings with
    outfile := some "src/rows", timeout := some (.ofLow64 1000000000),
    summaryPath := some "dst/summary" }

/-- The link at the destination has been replaced by a part of a copy, and what it pointed to is the
source as it was. -/
theorem mounted_invocation_spares_the_rest_interrupted :
    sampleInterrupted.Permits ∧
      Frame sampleOutputs "dst" sampleOutputs.outputs sampleLinked
        ((idle.configure sampleOutputs).run.run.final answer sampleInterrupted).files ∧
      ¬ sampleOutputs.Names "dst" sampleOutputs.outputs sampleLinked (1, "a") ∧
      ((idle.configure sampleOutputs).run.run.final answer sampleInterrupted).files.lookup? 1 "a" =
        some 3 ∧
      ((idle.configure sampleOutputs).run.run.final answer sampleInterrupted).files.lookup? 2 "a" ≠
        sampleLinked.lookup? 2 "a" := by
  have hpermits : sampleInterrupted.Permits := fun _ => rfl
  have hframe := (mounted_invocation_spares_the_rest (w := sampleInterrupted) (s := sampleOutputs)
    (fun _ => rfl) ⟨by decide, by decide, by decide, by decide⟩ rfl rfl).2.permitted hpermits
  have hnot : ¬ sampleOutputs.Names "dst" sampleOutputs.outputs sampleLinked (1, "a") := by
    rintro (ht | ⟨hfree, -⟩)
    · revert ht
      decide +kernel
    · revert hfree
      decide
  have hsource := hframe.others (1, "a") hnot
  have hsource' : sampleLinked.lookup? 1 "a" = some 3 := by decide
  exact ⟨hpermits, hframe, hnot, hsource.trans hsource', by decide +kernel⟩

def sampleRefused : Surroundings :=
  { Surroundings.calm sampleLinked with
    schedule := fun _ => { Turn.calm with denial := some .noSpace } }

-- the link at the destination stays, and the source to which it leads is emptied
example :
    (((mounted sampleOutputs).run .empty).final answer sampleRefused).files.lookup? 2 "a" =
        some 4 ∧
      (((mounted sampleOutputs).run .empty).final answer sampleRefused).files.inspect "src/a" =
        .ok (.file 0) := by
  decide +kernel

end StorageTrials

import StorageTrials.Proofs.Delivery
import StorageTrials.Proofs.Turns

namespace StorageTrials

open FileSystem Invocation Runner

variable {c : Scene} {w w' : Surroundings} {dir outfile : String} {x text : ByteArray}
variable {out : NodeId} {s : Settings} {fs : FileSystem} {files : List SourceFile}
variable {groups : List FileRows}

/-- Settings for the mounted directory that are accepted, in a tree of files where a regular file
can be opened for the statistics. Nobody disturbs the invocation. -/
structure UndisturbedStart (s : Settings) (dir outfile : String) (w : Surroundings)
    (fs : FileSystem) (out : NodeId) : Prop where
  mode : s.mode = .mounted
  destination : s.destinationDir = some dir
  stream : s.outfile = some outfile
  accepted : (s.checkFor .mounted).dialogue.result Surroundings.answer w = .ok ()
  undisturbed : w.Undisturbed
  wellFormed : w.files.WellFormed
  opened : w.files.create outfile = .ok (fs, out)
  regular : fs.isFile out

namespace Surroundings

theorem Undisturbed.meets_reports (h : w.Undisturbed) {α : Type} {d : Dialogue α}
    (hd : d.Asks Request.IsReport) :
    d.Meets answer Moment.Still w fun a w' => a = d.result answer w ∧ w.Proceeds w.files w' := by
  have hasks : d.Asks (Request.Preserves answer Moment.Still fun u => w.Proceeds w.files u) := by
    refine Dialogue.asks_mono (fun r hr u hu => ?_) hd
    cases r with
    | report event =>
      have hnext := hu.undisturbed.idle (r := .report event) trivial
      exact ⟨⟨trivial, hnext.files⟩, hu.trans (hu.files ▸ hnext)⟩
    | _ => exact hr.elim
  exact (hasks.meets h.refl).with_result

theorem Undisturbed.meets_isRunnable (h : w.Undisturbed) (ha : s.Acceptable w.files) :
    (mounted s).isRunnable.Meets answer Moment.Still w fun b w' =>
      b = true ∧ w.Proceeds w.files w' := by
  refine .bind ((h.meets_checkFor s).weaken fun r w₁ hpost => ?_)
  obtain ⟨hr, h₁⟩ := hpost
  rw [hr.mpr ha]
  exact .done ⟨rfl, h₁⟩

theorem Undisturbed.meets_areRunnable (h : w.Undisturbed) (ha : s.Acceptable w.files) :
    (areRunnable [mounted s]).Meets answer Moment.Still w fun b w' =>
      b = true ∧ w.Proceeds w.files w' := by
  refine .bind ((h.meets_isRunnable ha).weaken fun b w₁ hpost => ?_)
  obtain ⟨rfl, h₁⟩ := hpost
  exact .done ⟨rfl, h₁⟩

theorem Undisturbed.meets_gate (h : w.Undisturbed) (ha : s.Acceptable w.files) :
    (gate s [.mounted]).dialogue.Meets answer Moment.Still w fun r w' =>
      r = .ok () ∧ w.Proceeds w.files w' := by
  refine .lift_bind ((h.meets_checkFor s).weaken fun r w₁ hpost => ?_)
  obtain ⟨hr, h₁⟩ := hpost
  rw [hr.mpr ha]
  exact .done ⟨rfl, h₁⟩

theorem Undisturbed.meets_buildRunners (h : w.Undisturbed) (hmode : s.mode = .mounted)
    (ha : s.Acceptable w.files) :
    (buildRunners s).dialogue.Meets answer Moment.Still w fun r w' =>
      r = .ok [mounted s] ∧ w.Proceeds w.files w' := by
  rw [buildRunners, hmode]
  refine .attempt_bind ((h.meets_gate ha).weaken fun r w₁ hpost => ?_)
  obtain ⟨rfl, h₁⟩ := hpost
  exact .done ⟨rfl, h₁⟩

end Surroundings

namespace Scene

variable (c s dir outfile out files) in
/-- What an invocation or a part of it comes to: if the totals of bytes are in their range, all rows
are in the file of the statistics and copies are made; if those of times are too, there is a
result. -/
structure Yields {α : Type} (good : α → Prop) (groups : List FileRows) (r : Option α)
    (w : Surroundings) : Prop where
  rows : AllRows s.loopCount files groups
  leaves : BytesFit (groups.flatMap (·.records)) →
    c.Leaves dir files outfile out (textOf (linesFor groups)).toUTF8 w.files
  result : Fits (groups.flatMap (·.records)) → ∃ a, r = some a ∧ good a
  overflow : ¬ Fits (groups.flatMap (·.records)) → r = none

theorem Yields.none {α β : Type} {good : α → Prop} {good' : β → Prop}
    (h : c.Yields dir outfile out s files good groups none w) :
    c.Yields dir outfile out s files good' groups none w where
  rows := h.rows
  leaves := h.leaves
  result hf := nomatch h.result hf
  overflow _ := rfl

theorem Yields.bytesFit {α : Type} {a : α} {good : α → Prop}
    (h : c.Yields dir outfile out s files good groups (some a) w) :
    BytesFit (groups.flatMap (·.records)) := by
  by_contra hnot
  cases h.overflow fun hfits => hnot hfits.bytes

theorem Yields.some {α β : Type} {a : α} {b : β} {good : α → Prop} {good' : β → Prop}
    (h : c.Yields dir outfile out s files good groups (some a) w)
    (hl : c.Leaves dir files outfile out (textOf (linesFor groups)).toUTF8 w'.files)
    (hgood : good a → good' b) :
    c.Yields dir outfile out s files good' groups (some b) w' where
  rows := h.rows
  leaves _ := hl
  result hf := by
    obtain ⟨a', ha, hgood'⟩ := h.result hf
    cases ha
    exact ⟨b, rfl, hgood hgood'⟩
  overflow hn := nomatch h.overflow hn

theorem Leaves.idle (h : c.Leaves dir files outfile out text w.files)
    (hw : w.Proceeds w.files w') : c.Leaves dir files outfile out text w'.files := hw.files ▸ h

theorem meets_runOne (hrows : AllRows s.loopCount files groups)
    (hrun : (mounted s).session.dialogue.Meets Surroundings.answer (fun _ => True) w fun r w' =>
      r = .ok true ∧ c.Recording out w' ∧
        c.Leaves dir files outfile out (textOf (linesFor groups)).toUTF8 w'.files)
    (hrecords : recordsIn ((mounted s).session.dialogue.moments Surroundings.answer w) =
      groups.flatMap (·.records)) :
    (runOne (mounted s)).run.Meets Surroundings.answer (fun _ => True) w fun r w' =>
      (BytesFit (groups.flatMap (·.records)) → c.Recording out w') ∧
        c.Yields dir outfile out s files (·.completed = true) groups r w' := by
  by_cases hbytes : BytesFit (groups.flatMap (·.records))
  · obtain ⟨t, ht, hpasses⟩ := Dialogue.passes_tallied (hrecords ▸ hbytes)
    have htallied : ((mounted s).run .empty).Meets Surroundings.answer (fun _ => True) w
        fun r w' => r = some (t, .ok true) ∧ c.Recording out w' ∧
          c.Leaves dir files outfile out (textOf (linesFor groups)).toUTF8 w'.files := by
      refine ⟨fun _ _ => trivial, ?_, ?_⟩
      · rw [← hrun.ends.1]
        exact hpasses.result
      · rw [Runner.run, hpasses.final]
        exact hrun.ends.2
    refine .option_bind (htallied.weaken fun r w₁ hpost => ?_)
    obtain ⟨rfl, h₁, hl₁⟩ := hpost
    refine .option_lift (.bind (.ask trivial (.done (.done (.option_bind (.done ?_))))))
    have hw₂ := h₁.undisturbed.idle (r := .report (.runCompleted .mounted)) trivial
    have h₂ := h₁.idle hw₂
    have hl₂ := hl₁.idle hw₂
    have hfits := t.isSome_summary? (hrecords ▸ ht) (mounted s).backend.name true
    generalize hsummary : t.summary? (mounted s).backend.name true = r at hfits ⊢
    cases r with
    | none =>
      exact ⟨fun _ => h₂, hrows, fun _ => hl₂,
        fun hf => absurd (hfits.mpr hf) Bool.false_ne_true, fun _ => rfl⟩
    | some summary =>
      refine .option_lift ((h₂.undisturbed.meets_reports (asks_reportGroups _ _)).mono
        (fun _ _ => trivial) fun _ w₃ hpost => .done ⟨fun _ => h₂.idle hpost.2, hrows,
          fun _ => hl₂.idle hpost.2, fun _ => ?_, fun hn => ?_⟩)
      · exact ⟨summary, rfl, t.completed_of_summary? hsummary⟩
      · exact absurd (hfits.mp rfl) hn
  · have htallied : ((mounted s).run .empty).Meets Surroundings.answer (fun _ => True) w
        fun r _ => r = none :=
      ⟨fun _ _ => trivial, Dialogue.result_tallied_eq_none_iff.mpr (hrecords ▸ hbytes)⟩
    refine .option_bind (htallied.weaken fun r w₁ hnone => ?_)
    subst hnone
    exact ⟨fun h => absurd h hbytes, hrows, fun h => absurd h hbytes,
      fun h => absurd h.bytes hbytes, fun _ => rfl⟩

theorem meets_runEach (h : c.Recording out w)
    (hone : ∀ w', w.Proceeds w.files w' →
      (runOne (mounted s)).run.Meets Surroundings.answer (fun _ => True) w' fun r w'' =>
        ∃ groups, (BytesFit (groups.flatMap (·.records)) → c.Recording out w'') ∧
          c.Yields dir outfile out s files (·.completed = true) groups r w'') :
    (runEach [mounted s] 0 []).run.Meets Surroundings.answer (fun _ => True) w fun r w' =>
      ∃ groups, (BytesFit (groups.flatMap (·.records)) → c.Recording out w') ∧
        c.Yields dir outfile out s files (·.1 = 0) groups r w' := by
  refine .option_ask trivial ?_
  rw [h.undisturbed.run_isCancelled]
  refine .option_bind ((hone _ (h.undisturbed.idle (r := .isCancelled) trivial)).weaken
    fun r w₂ hpost => ?_)
  obtain ⟨groups, h₂, hy⟩ := hpost
  cases r with
  | none => exact ⟨groups, h₂, hy.none⟩
  | some summary =>
    refine .done ⟨groups, h₂, hy.some (hy.leaves hy.bytesFit) fun hcompleted => ?_⟩
    rw [if_pos hcompleted]

theorem meets_save (h : c.Recording out w) (hl : c.Leaves dir files outfile out text w.files)
    (hpath : ∀ path, s.summaryPath = some path →
      (∀ σ ∈ c.first.lookups .examine path, c.ways σ ∧ ¬ c.targets σ) ∧
        c.first.find path ≠ .ok out) (summary : Summary) :
    (save summary s.summaryPath).Meets Surroundings.answer (fun _ => True) w fun _ w' =>
      c.Leaves dir files outfile out text w'.files := by
  cases hsummary : s.summaryPath with
  | none => exact .done hl
  | some path =>
    obtain ⟨hways, hne⟩ := hpath path hsummary
    obtain ⟨hans, hw₁⟩ := h.undisturbed.run_saveText path summary.written
    have hl₁ := hl.saveText h.files (fun σ hσ => (hways σ hσ).1) (fun σ hσ => (hways σ hσ).2) hne
      summary.written
    rw [← hw₁.files] at hl₁
    refine .ask_bind trivial ?_
    cases ((Surroundings.answer (.saveText path summary.written)).run w).1 with
    | ok _ =>
      exact .ask trivial (.done (hl₁.idle (hw₁.undisturbed.idle (r := .report _) trivial)))
    | error e =>
      exact .ask trivial (.done (hl₁.idle (hw₁.undisturbed.idle (r := .report _) trivial)))

end Scene

namespace UndisturbedStart

theorem acceptable (h : UndisturbedStart s dir outfile w fs out) : s.Acceptable w.files :=
  (h.undisturbed.meets_checkFor s).ends.1.mp h.accepted

theorem recording (h : UndisturbedStart s dir outfile w fs out) (hfiles : w'.files = fs)
    (hout : w'.output = .file out) (hu : w'.Undisturbed) :
    (copyScene fs dir (s.sources fs) out).Recording out w' where
  files := by
    rw [hfiles]
    exact Scene.holds_first (extends_create h.wellFormed h.opened).holds.wellFormed
  others k fs := by
    rw [hu.change]
    exact .refl _ fs
  stream id hid := by
    cases hout.symm.trans hid
    obtain ⟨x, hx⟩ := isFile_iff.mp h.regular
    exact ⟨rfl, lt_size_of_node? hx⟩
  permits := hu.denial
  undisturbed := hu
  output := hout
  isFile := hfiles ▸ h.regular
  streams _ := id

theorem meets_runOne (h : UndisturbedStart s dir outfile w fs out)
    (hd : Deliverable s dir outfile fs out) (hfiles : w'.files = fs) (hout : w'.output = .file out)
    (hu : w'.Undisturbed) :
    (runOne (mounted s)).run.Meets Surroundings.answer (fun _ => True) w' fun r w'' =>
      ∃ groups, (BytesFit (groups.flatMap (·.records)) →
          (copyScene fs dir (s.sources fs) out).Recording out w'') ∧
        (copyScene fs dir (s.sources fs) out).Yields dir outfile out s (s.sources fs)
          (·.completed = true) groups r w'' := by
  have hrec := h.recording hfiles hout hu
  subst hfiles
  have hext := extends_create h.wellFormed h.opened
  obtain ⟨groups, hrows, hrecords, hrun⟩ := Scene.meets_run_rows hd.serves h.destination
    h.acceptable.loops (hext.inspect_directory h.acceptable.source) hrec
    (content?_create h.opened h.regular)
  rw [ByteArray.empty_append] at hrun
  refine (Scene.meets_runOne hrows (hrun.weaken fun r w₁ hpost => ?_) hrecords).weaken
    fun r w₁ hy => ⟨groups, hy⟩
  obtain ⟨hok, h₁, hdelivered, hcontent⟩ := hpost
  have hfound := h₁.files.find (fun _ _ => trivial) hd.output (find_create h.wellFormed h.opened)
  exact ⟨hok, h₁, hdelivered, hfound.1, hcontent⟩

theorem meets_runEach (h : UndisturbedStart s dir outfile w fs out)
    (hd : Deliverable s dir outfile fs out) (hfiles : w'.files = fs) (hout : w'.output = .file out)
    (hu : w'.Undisturbed) :
    (runEach [mounted s] 0 []).run.Meets Surroundings.answer (fun _ => True) w' fun r w'' =>
      ∃ groups, (BytesFit (groups.flatMap (·.records)) →
          (copyScene fs dir (s.sources fs) out).Recording out w'') ∧
        (copyScene fs dir (s.sources fs) out).Yields dir outfile out s (s.sources fs) (·.1 = 0)
          groups r w'' :=
  Scene.meets_runEach (h.recording hfiles hout hu) fun _ h₁ =>
    h.meets_runOne hd (h₁.files.trans hfiles) (h₁.output.trans hout) h₁.undisturbed

theorem meets_execute (h : UndisturbedStart s dir outfile w fs out)
    (hd : Deliverable s dir outfile fs out) (hw : w.Proceeds w.files w') :
    (execute s [mounted s]).run.Meets Surroundings.answer (fun _ => True) w' fun r w'' =>
      ∃ groups, (copyScene fs dir (s.sources fs) out).Yields dir outfile out s (s.sources fs)
        (· = 0) groups r w'' := by
  refine .option_lift ((hw.undisturbed.meets_areRunnable (hw.files ▸ h.acceptable)).mono
    (fun _ _ => trivial) fun b w₁ hpost => ?_)
  obtain ⟨rfl, h₁⟩ := hpost
  rw [h.stream]
  have hfiles : w₁.files = w.files := h₁.files.trans hw.files
  obtain ⟨hans, hfs, hout, hu⟩ := h₁.undisturbed.run_openOutput (hfiles ▸ h.opened)
  refine .option_ask trivial ?_
  rw [hans]
  have h₃ := hu.idle (r := .now) trivial
  have heach := h.meets_runEach hd (h₃.files.trans hfs) (h₃.output.trans hout) h₃.undisturbed
  refine .option_ask trivial (.option_bind (heach.weaken fun r w₄ hpost => ?_))
  obtain ⟨groups, h₄, hy⟩ := hpost
  cases r with
  | none => exact ⟨groups, hy.none⟩
  | some p =>
    refine .option_lift ((Scene.meets_save (h₄ hy.bytesFit) (hy.leaves hy.bytesFit)
      (fun path hpath => ?_) _).weaken
      fun _ w₅ hl => .done ⟨groups, hy.some hl (congrArg Int.ofNat)⟩)
    obtain ⟨hways, hne⟩ := hd.summary path hpath
    exact ⟨fun σ hσ => ⟨trivial, hways σ hσ⟩, hne⟩

theorem meets_run (h : UndisturbedStart s dir outfile w fs out)
    (hd : Deliverable s dir outfile fs out) :
    (idle.configure s).run.run.Meets Surroundings.answer (fun _ => True) w fun r w' =>
      ∃ groups, (copyScene fs dir (s.sources fs) out).Yields dir outfile out s (s.sources fs)
        (· = (0, ⟨some s, .done⟩)) groups r w' := by
  have hbuilt := h.undisturbed.meets_buildRunners h.mode h.acceptable
  refine .option_bind (.option_lift (hbuilt.mono (fun _ _ => trivial) fun r w₁ hpost => ?_))
  obtain ⟨rfl, h₁⟩ := hpost
  refine (h.meets_execute hd h₁).weaken fun r w₂ hpost => ?_
  obtain ⟨groups, hy⟩ := hpost
  cases r with
  | none => exact ⟨groups, hy.none⟩
  | some code =>
    refine .done ⟨groups, hy.some (hy.leaves hy.bytesFit) fun hzero => ?_⟩
    rw [hzero]
    rfl

theorem result_eq_none (h : UndisturbedStart s dir outfile w fs out)
    (hd : Deliverable s dir outfile fs out) (hnot : ¬ SizesFit s.loopCount (s.sources fs)) :
    (idle.configure s).run.run.result Surroundings.answer w = none := by
  obtain ⟨groups, hy⟩ := (h.meets_run hd).ends
  refine hy.overflow fun hfits => hnot ?_
  exact (hy.rows.bytesFit_iff fun _ hf _ hg hname => eq_of_mem_sources hf hg hname).mp hfits.bytes

end UndisturbedStart

def sampleLinked : FileSystem where
  nodes := #[.directory 0, .directory 0, .directory 0, .file ⟨#[1, 2, 3]⟩, .link "../src/a"]
  entries := [⟨0, "src", 1⟩, ⟨0, "dst", 2⟩, ⟨1, "a", 3⟩, ⟨2, "a", 4⟩]
  workingDir := 0

def sampleLavish : Settings :=
  { sampleSettings with files := ["a"], loopCount := 4, outfile := some "rows" }

def sampleBulkyOpened : FileSystem := (sampleBulky.add 0 "rows" (.file .empty)).1

theorem sources_sampleBulkyOpened :
    sampleLavish.sources sampleBulkyOpened = [⟨"a", "src/a", .ready (2 ^ 62)⟩] :=
  congrArg (List.cons · []) (source_bulky (by decide +kernel) rfl)

theorem undisturbedStart_sampleBulky :
    UndisturbedStart sampleLavish "dst" "rows" (.calm sampleBulky) sampleBulkyOpened 4 where
  mode := rfl
  destination := rfl
  stream := rfl
  accepted := by decide +kernel
  undisturbed := undisturbed_calm sampleBulky
  wellFormed := ⟨by decide, by decide, by decide, by decide⟩
  opened := by
    have hplace : sampleBulky.place? "rows" = some (0, "rows") := by decide +kernel
    exact create_of_free hplace (by decide +kernel)
  regular := by decide +kernel

theorem deliverable_sampleBulky :
    Deliverable sampleLavish "dst" "rows" sampleBulkyOpened 4 := by
  constructor <;> rw [sources_sampleBulkyOpened]
  case places =>
    intro f hf hr
    cases List.mem_singleton.mp hf
    have hfree : sampleBulkyOpened.lookup? 2 "a" = none := by decide +kernel
    exact ⟨(2, "a"), by decide +kernel, fun id hid => (nomatch hfree.symm.trans hid)⟩
  case same =>
    intro f hf g hg hr hr' hplace
    cases List.mem_singleton.mp hf
    cases List.mem_singleton.mp hg
    rfl
  case sources => decide +kernel
  case parents => decide +kernel
  case output => decide +kernel
  case summary => exact fun path hpath => nomatch hpath

theorem result_sampleBulky :
    (idle.configure sampleLavish).run.run.result Surroundings.answer (.calm sampleBulky) =
      none := by
  refine undisturbedStart_sampleBulky.result_eq_none deliverable_sampleBulky ?_
  rw [sources_sampleBulkyOpened]
  exact fun hfit => absurd (hfit _ List.mem_cons_self _ rfl) (by decide)

end StorageTrials

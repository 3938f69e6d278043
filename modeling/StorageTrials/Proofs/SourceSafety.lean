import StorageTrials.Proofs.Denials
import StorageTrials.Proofs.WholeCopies

namespace StorageTrials

open FileSystem Runner

variable {c : Scene} {s : Settings} {dir : String} {files : List SourceFile} {w : Surroundings}
variable {f : SourceFile}

def Keeps (before after : FileSystem) (path : String) : Prop :=
  ∃ id x, before.find path = .ok id ∧ before.content? id = some x ∧
    after.find path = .ok id ∧ after.content? id = some x

namespace Scene

def Spent (c : Scene) (dir : String) (files : List SourceFile) (fs : FileSystem) : Prop :=
  ∀ f ∈ files, f.isReady = true → ∀ σ, c.first.target? (Path.join dir f.name) = some σ →
    c.Replaced fs σ

structure Accepts (c : Scene) (dir : String) (files : List SourceFile) : Prop where
  allows : ∀ f ∈ files, f.isReady = true → c.Allows (Path.join dir f.name)
  apart : ∀ f ∈ files, f.isReady = true →
    ∀ σ ∈ c.first.lookups .remove (Path.join dir f.name), ¬ c.targets σ

theorem Spent.restart {fs fs' : FileSystem} (hs : c.Spent dir files fs) (ha : c.Accepts dir files)
    (h : c.Holds fs) (h' : (c.restart fs).Holds fs') : c.Spent dir files fs' := by
  intro f hf hr σ hσ
  have hplace := (target?_eq_some_iff.mp hσ).1
  exact (hs f hf hr σ hσ).restart h ((ha.allows f hf hr).place σ hplace) h'

theorem spent_of_stands {fs : FileSystem} (ha : c.Accepts dir files) (h : c.Holds fs)
    (hf : f ∈ files) (hr : f.isReady = true)
    (hs : c.Stands (Path.join dir f.name) (fun _ => True) fs) :
    c.Spent dir [f] fs := by
  intro g hg _ σ hσ
  rw [List.mem_singleton.mp hg] at hσ
  obtain ⟨hplace, hvacant⟩ := target?_eq_some_iff.mp hσ
  have hallows := ha.allows f hf hr
  have hsame := h.place?_eq hallows.lookups (ha.apart f hf hr)
  exact hs.replaced h (hallows.place σ hplace) (hsame.trans hplace) hvacant

theorem Spent.cons {fs : FileSystem} {gs : List SourceFile} (hf : c.Spent dir [f] fs)
    (h : c.Spent dir gs fs) : c.Spent dir (f :: gs) fs := by
  intro g hg
  rcases List.mem_cons.mp hg with rfl | hg
  · exact hf g List.mem_cons_self
  · exact h g hg

theorem Accepts.mono {gs : List SourceFile} (ha : c.Accepts dir files) (hg : gs ⊆ files) :
    c.Accepts dir gs :=
  ⟨fun f hf => ha.allows f (hg hf), fun f hf => ha.apart f (hg hf)⟩

theorem Accepts.meets_file (ha : c.Accepts dir files) (hdir : s.destinationDir = some dir)
    (hloops : s.loopCount ≠ 0) {fs : FileSystem} (h : c.Holds fs) (hf : f ∈ files)
    (hr : f.isReady = true) (w : Surroundings) (hw : (c.restart fs).Underway w) :
    (mountedFile s f).dialogue.Meets Surroundings.answer
      ((c.restart fs).Sound f (Path.join dir f.name)) w
      fun _ w' => (c.restart fs).Underway w' :=
  (meets_mountedFile hdir hloops hw ((ha.allows f hf hr).restart h)).weaken fun _ _ hw' => hw'.1

theorem meets_conclude_restart (h : c.Underway w) (file : String) (r : Except Fault Bool) :
    (conclude .mounted file r).dialogue.Meets Surroundings.answer (fun _ => True) w
      fun _ w' => c.Underway w' ∧ (c.restart w.files).Underway w' := by
  have hfirst {c : Scene} (h : c.Underway w) :
      (conclude .mounted file r).dialogue.Meets Surroundings.answer (c.Regular "" []) w
        fun _ w' => c.Underway w' :=
    narrates_regular.meets_reports (asks_conclude .mounted file r) h
  exact ((hfirst h).and (hfirst h.restart)).mono (fun _ _ => trivial) fun _ _ => id

theorem meets_runFiles_spent (ha : c.Accepts dir files) (hdir : s.destinationDir = some dir)
    (hloops : s.loopCount ≠ 0) {fs : List SourceFile} (hfs : fs ⊆ files) (completed : Bool)
    (h : c.Underway w) :
    (runFiles .mounted (mountedFile s) fs completed).dialogue.Meets Surroundings.answer
      (fun _ => True) w fun r w' =>
        c.Underway w' ∧ ∀ b, r = .ok b → c.Spent dir fs w'.files := by
  induction fs generalizing completed w with
  | nil =>
    refine .done ⟨h, fun b _ g hg => ?_⟩
    cases hg
  | cons f fs ih =>
    obtain ⟨hf, hfs⟩ := List.cons_subset.mp hfs
    rw [runFiles]
    cases hfault : f.fault? with
    | some cause =>
      have hnot := Bool.eq_false_iff.mp (isReady_eq_false_of_fault? hfault)
      have hafter := h.after_harmless (r := .report (.skippingFile .mounted f.name cause)) trivial
      refine .ask trivial ((ih hfs completed hafter).weaken fun r w₁ hpost => ?_)
      obtain ⟨h₁, hs₁⟩ := hpost
      refine ⟨h₁, fun b hb => .cons (fun g hg hr => ?_) (hs₁ b hb)⟩
      exact absurd (List.mem_singleton.mp hg ▸ hr) hnot
    | none =>
      have hready := (isReady_iff_fault?_eq_none f).mpr hfault
      have htrials := meets_mountedFile hdir hloops h (ha.allows f hf hready)
      refine .lift_bind (htrials.mono
        (fun _ _ => trivial) fun r w₁ hpost => ?_)
      obtain ⟨h₁, hs₁⟩ := hpost
      have hspent₁ := spent_of_stands ha h₁.files hf hready hs₁
      have hone := ha.mono (List.cons_subset.mpr ⟨hf, List.nil_subset _⟩)
      refine .attempt_bind ((meets_conclude_restart h₁ f.name r).weaken fun r₂ w₂ hpost => ?_)
      obtain ⟨h₂, h₂'⟩ := hpost
      have hspent₂ := hspent₁.restart hone h₁.files h₂'.files
      cases r₂ with
      | error e =>
        refine ⟨h₂, fun b hb => ?_⟩
        cases hb
      | ok b =>
        -- the rest is a run of its own from here on, so the places touched so far stay touched
        have hrest : (runFiles .mounted (mountedFile s) fs (completed && b)).dialogue.Meets
            Surroundings.answer ((c.restart w₂.files).Regular dir files) w₂ _ :=
          narrates_regular.meets_runFiles
            (fun g hg hr w hw => (ha.meets_file hdir hloops h₂.files (hfs hg) hr w hw).mono
              (fun m hm => hm.regular (hfs hg) hr) fun _ _ => id) _ h₂.restart
        refine ((ih hfs (completed && b) h₂).and hrest).mono (fun _ _ => trivial)
          fun r₃ w₃ hpost => ?_
        obtain ⟨⟨h₃, hs₃⟩, h₃'⟩ := hpost
        exact ⟨h₃, fun b hb => .cons (hspent₂.restart hone h₂.files h₃'.files) (hs₃ b hb)⟩

end Scene

def openedWays (fs : FileSystem) (dir : String) (files : List SourceFile) : List Slot :=
  (files.filter (·.isReady)).flatMap fun f =>
    fs.lookups .create (Path.join dir f.name) ++ fs.lookups .examine (Path.join dir f.name) ++
      (fs.outlet? (Path.join dir f.name)).toList

def refusedScene (w : Surroundings) (dir : String) (files : List SourceFile) : Scene where
  first := w.files
  ways σ := σ ∈ mountedWays w.files dir files ∨ σ ∈ openedWays w.files dir files
  targets σ := σ ∈ mountedTargets w.files dir files ∨ w.files.lookup? σ.1 σ.2 = none
  stream id := w.output = .file id ∨ w.files.nodes.size ≤ id ∨
    ∃ f ∈ files, f.isReady = true ∧ w.files.find (Path.join dir f.name) = .ok id

variable (dir files w) in
/-- No destination leads to a source, and others leave alone the ways by which the destinations are
opened. -/
structure OutOfReach (path : String) : Prop where
  others : ∀ k fs, Spares (· ∈ openedWays w.files dir files) fs ((w.schedule k).change fs)
  apart : ∀ f ∈ files, f.isReady = true →
    ∀ id, w.files.find path = .ok id → w.files.find (Path.join dir f.name) ≠ .ok id

variable (s dir files w) in
structure SparesSources : Prop where
  /-- A source to which no way leads by a place for a copy is there at every moment, whatever is
  interrupted, and when the run is over. If a removal may be refused, no destination may lead to
  it either. -/
  kept : ∀ f ∈ files, f.isReady = true → Avoids w.files dir files .examine f.path →
    (∀ id, w.files.find f.path = .ok id → w.output ≠ .file id) →
    w.Permits ∨ OutOfReach dir files w f.path →
      (∀ m ∈ ((mounted s).run .empty).moments Surroundings.answer w,
        Keeps w.files m.before.files f.path ∧ Keeps w.files m.after.files f.path) ∧
      Keeps w.files (((mounted s).run .empty).final Surroundings.answer w).files f.path
  /-- After a run that is not cut short, and in which no removal is refused, the path of any other
  leads nowhere or to a new file. -/
  lost : w.Permits → (∀ f ∈ files, f.isReady = true →
      Avoids w.files dir files .remove (Path.join dir f.name)) →
    ∀ t b, ((mounted s).run .empty).result Surroundings.answer w = some (t, .ok b) →
      ∀ f ∈ files, f.isReady = true → ¬ Avoids w.files dir files .examine f.path →
        ∀ id, (((mounted s).run .empty).final Surroundings.answer w).files.find f.path = .ok id →
          w.files.nodes.size ≤ id

theorem Scene.Source.keeps {x : ByteArray} (h : c.Source f x) {fs : FileSystem} (hf : c.Holds fs) :
    Keeps c.first fs f.path := by
  obtain ⟨id, hid, hn, hs⟩ := h.node
  obtain ⟨hid', hn'⟩ := hf.find_file h.ways h.apart hid hn hs
  exact ⟨id, x, hid, content?_eq_some_iff.mpr hn, hid', content?_eq_some_iff.mpr hn'⟩

theorem accepts_mountedScene (w : Surroundings)
    (ha : ∀ f ∈ files, f.isReady = true →
      Avoids w.files dir files .remove (Path.join dir f.name)) :
    (mountedScene w dir files).Accepts dir files :=
  ⟨fun _ hf hr => mountedScene_allows w dir hf hr, ha⟩

theorem Scene.meets_printFiles_spent (ha : c.Accepts dir files) (hdir : s.destinationDir = some dir)
    (hloops : s.loopCount ≠ 0) (h : c.Underway w) :
    (printFiles .mounted (mountedFile s) files).dialogue.Meets Surroundings.answer (fun _ => True) w
      fun r w' => ∀ b, r = .ok b → c.Spent dir files w'.files := by
  have hheader := h.after_harmless (r := .print .header) trivial
  refine .attempt_bind (.ask trivial ?_)
  cases ((Surroundings.answer (.print .header)).run w).1 with
  | error e => exact .done fun b hb => nomatch hb
  | ok _ =>
    have hfiles := meets_runFiles_spent ha hdir hloops (List.Subset.refl _) true hheader
    refine .done (.attempt_bind (hfiles.weaken fun r w₂ hpost => ?_))
    obtain ⟨h₂, hs₂⟩ := hpost
    cases r with
    | error e => exact fun b hb => nomatch hb
    | ok completed =>
      have hfooter := h₂.restart.after_harmless (r := .print .footer) trivial
      refine .attempt_bind (.ask trivial ?_)
      cases ((Surroundings.answer (.print .footer)).run w₂).1 with
      | error e => exact .done fun b hb => nomatch hb
      | ok _ =>
        exact .done (.done fun b _ => (hs₂ completed rfl).restart ha h₂.files hfooter.files)

theorem MountedStart.meets_run_spent (h : MountedStart s dir files w) (hp : w.Permits)
    (ha : (mountedScene w dir files).Accepts dir files) :
    (mounted s).session.dialogue.Meets Surroundings.answer (fun _ => True) w fun r w' =>
      ∀ b, r = .ok b → (mountedScene w dir files).Spent dir files w'.files := by
  refine .attempt_bind (h.meets_resolve.mono (fun _ _ => trivial) fun r w₁ hpost => ?_)
  obtain ⟨rfl, -, hongoing, hfollows⟩ := hpost
  have hafter := (hongoing.underway hfollows hp).after_harmless (r := .report (.startingRun .mounted
    files.length (files.filter (·.isReady)).length s.loopCount)) trivial
  exact .ask trivial (Scene.meets_printFiles_spent ha h.destination h.loops hafter)

theorem mem_openedWays {fs : FileSystem} (hf : f ∈ files) (hr : f.isReady = true) {σ : Slot}
    (hσ : σ ∈ fs.lookups .create (Path.join dir f.name) ++
      fs.lookups .examine (Path.join dir f.name) ++ (fs.outlet? (Path.join dir f.name)).toList) :
    σ ∈ openedWays fs dir files :=
  List.mem_flatMap.mpr ⟨f, List.mem_filter.mpr ⟨hf, hr⟩, hσ⟩

theorem refusedScene_allows (w : Surroundings) (dir : String) (hf : f ∈ files)
    (hr : f.isReady = true) : (refusedScene w dir files).Allows (Path.join dir f.name) :=
  have h := mountedScene_allows w dir hf hr
  ⟨⟨fun σ hσ => .inl (h.lookups σ hσ), fun σ hσ => .inl (h.place σ hσ)⟩,
    fun σ hσ hd => .inl (h.target σ hσ hd)⟩

theorem refusedScene_opens (w : Surroundings) (dir : String) (hf : f ∈ files)
    (hr : f.isReady = true) : (refusedScene w dir files).Opens (Path.join dir f.name) where
  created _ hσ :=
    .inr (mem_openedWays hf hr (List.mem_append_left _ (List.mem_append_left _ hσ)))
  examined _ hσ :=
    .inr (mem_openedWays hf hr (List.mem_append_left _ (List.mem_append_right _ hσ)))
  outlet _ hσ :=
    ⟨.inr (mem_openedWays hf hr (List.mem_append_right _ (Option.mem_toList.mpr hσ))), .inr⟩
  written _ hid := .inr (.inr ⟨f, hf, hr, hid⟩)
  made _ hle := .inr (.inl hle)

theorem MountedStart.ongoing_refused (h : MountedStart s dir files w)
    (hothers : ∀ k fs, Spares (· ∈ openedWays w.files dir files) fs ((w.schedule k).change fs)) :
    (refusedScene w dir files).Ongoing w where
  files := Scene.holds_first h.wellFormed
  others k fs := (h.others k fs).or (hothers k fs)
  stream id hid := ⟨.inl hid, h.stream id hid⟩

theorem OutOfReach.source {x : ByteArray} (h : OutOfReach dir files w f.path)
    (hx : (mountedScene w dir files).Source f x) :
    (refusedScene w dir files).Source f x where
  size := hx.size
  node := by
    obtain ⟨id, hid, hn, hstream⟩ := hx.node
    refine ⟨id, hid, hn, ?_⟩
    rintro (hout | hle | ⟨g, hg, hr, hfound⟩)
    · exact hstream hout
    · exact absurd (lt_size_of_node? hn) (Nat.not_lt.mpr hle)
    · exact h.apart g hg hr id hid hfound
  ways σ hσ := .inl (hx.ways σ hσ)
  apart σ hσ := by
    obtain ⟨id, hid, -⟩ := hx.node
    rintro (htarget | hfree)
    · exact hx.apart σ hσ htarget
    · exact lookup?_ne_none_of_find hid hσ hfree

theorem Scene.Source.kept {x : ByteArray} (hx : c.Source f x) (h : c.Ongoing w)
    (hfirst : c.first = w.files) (hdir : s.destinationDir = some dir) (hloops : s.loopCount ≠ 0)
    (htolerates : ∀ files,
      (resolveSources s.sourceDir s.files).dialogue.result Surroundings.answer w = .ok files →
        ∀ f ∈ files, f.isReady = true → c.Tolerates w (Path.join dir f.name)) :
    (∀ m ∈ ((mounted s).run .empty).moments Surroundings.answer w,
        Keeps w.files m.before.files f.path ∧ Keeps w.files m.after.files f.path) ∧
      Keeps w.files (((mounted s).run .empty).final Surroundings.answer w).files f.path := by
  have hsession := h.meets_mountedRun hdir hloops htolerates
  have hrun := hsession.tallied (fun _ hm => hm.after) .empty
  rw [← hfirst]
  constructor
  · intro m hm
    have hduring := hrun.moments m hm
    exact ⟨hx.keeps hduring.before.files, hx.keeps hduring.after.files⟩
  · have hends := hrun.ends
    rw [Runner.run]
    split at hends <;> exact hx.keeps hends.files

/-- Sources are safe from a run if no way to them leads by a place for a copy, and only then. -/
theorem mounted_run_spares_sources (h : MountedStart s dir files w) :
    SparesSources s dir files w where
  kept f hf hr hapart hstream hpermits := by
    obtain ⟨x, hx⟩ := h.source hf hr hapart hstream
    have hfiles {fs : List SourceFile}
        (hfs : (resolveSources s.sourceDir s.files).dialogue.result Surroundings.answer w =
          .ok fs) : fs = files :=
      Except.ok.inj (hfs.symm.trans h.resolved)
    rcases hpermits with hp | hreach
    · refine hx.kept h.ongoing rfl h.destination h.loops fun fs hfs g hg hgr => ?_
      rw [hfiles hfs] at hg
      exact ⟨mountedScene_allows w dir hg hgr, fun hrefused => absurd hp hrefused⟩
    · refine (hreach.source hx).kept (h.ongoing_refused hreach.others) rfl
        h.destination h.loops fun fs hfs g hg hgr => ?_
      rw [hfiles hfs] at hg
      exact ⟨refusedScene_allows w dir hg hgr, fun _ => refusedScene_opens w dir hg hgr⟩
  lost hp hdest t b hb f hf hr hnot id hid := by
    have hpasses := Dialogue.passes_of_result_tallied hb
    have hspent := (h.meets_run_spent hp (accepts_mountedScene w hdest)).ends b hpasses.result
    rw [Runner.run, ← hpasses.final] at hid
    obtain ⟨σ, hσ, htarget⟩ : ∃ σ ∈ w.files.lookups .examine f.path,
        σ ∈ mountedTargets w.files dir files := by
      simpa only [Avoids, not_forall, not_not, exists_prop] using hnot
    obtain ⟨g, hg, hgr, hgσ⟩ := mem_mountedTargets.mp htarget
    obtain ⟨x, hx, -⟩ := h.bytes? hf hr
    obtain ⟨i, hi, -⟩ := bytes?_eq_some_iff.mp hx
    have hways : ∀ σ ∈ w.files.lookups .examine f.path, (mountedScene w dir files).ways σ :=
      fun σ hσ => List.mem_flatMap.mpr
        ⟨f, hf, List.mem_append_left _ (List.mem_append_left _ hσ)⟩
    exact (h.meets_run hp).ends.files.find_replaced hways hi hσ (hspent g hg hgr σ hgσ) hid

def sampleInPlace : Settings :=
  { sampleSettings with destinationDir := some "src", files := ["a"] }

theorem mounted_run_spares_sources_in_place :
    Keeps sampleFiles (((mounted sampleSettings).run .empty).final Surroundings.answer
        sampleFailing).files "src/a" ∧
      MountedStart sampleInPlace "src" [⟨"a", "src/a", .ready 3⟩] (.calm sampleFiles) ∧
      ∀ id, (((mounted sampleInPlace).run .empty).final Surroundings.answer
        (.calm sampleFiles)).files.find "src/a" = .ok id → sampleFiles.nodes.size ≤ id := by
  have hkept := (mounted_run_spares_sources mountedStart_sampleFailing).kept
    ⟨"a", "src/a", .ready 3⟩ (by decide) rfl (by decide +kernel) (fun _ _ hid => nomatch hid)
    (.inl permits_sampleFailing)
  have hstart : MountedStart sampleInPlace "src" [⟨"a", "src/a", .ready 3⟩]
      (.calm sampleFiles) :=
    { destination := rfl
      accepted := ⟨.calm sampleFiles, by decide +kernel⟩
      resolved := by decide +kernel
      wellFormed := ⟨by decide, by decide, by decide, by decide⟩
      others := fun _ fs => .refl _ fs
      stream := fun id hid => nomatch hid }
  have hlost := (mounted_run_spares_sources hstart).lost (fun _ => rfl) (by decide +kernel)
    .empty false (by decide +kernel) ⟨"a", "src/a", .ready 3⟩ List.mem_cons_self rfl
    (by decide +kernel)
  exact ⟨hkept.2, hstart, hlost⟩

/-- Settings are accepted that lose a source. -/
theorem mounted_run_in_place_loses_source :
    (mounted sampleInPlace).check.dialogue.result Surroundings.answer (.calm sampleFiles) = .ok () ∧
      (resolveSources sampleInPlace.sourceDir sampleInPlace.files).dialogue.result
        Surroundings.answer (.calm sampleFiles) = .ok [⟨"a", "src/a", .ready 3⟩] ∧
      (Surroundings.calm sampleFiles).output = .standard ∧
      (sampleFiles.bytes? "src/a").isSome = true ∧
      (((mounted sampleInPlace).run .empty).final Surroundings.answer
        (.calm sampleFiles)).files.bytes? "src/a" = none := by
  refine ⟨by decide +kernel, by decide +kernel, rfl, by decide +kernel, by decide +kernel⟩

end StorageTrials

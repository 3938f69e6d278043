import StorageTrials.Proofs.Listing
import StorageTrials.Proofs.MountedTrials

namespace StorageTrials

open FileSystem Runner

def FileSystem.target? (fs : FileSystem) (path : String) : Option Slot :=
  (fs.place? path).filter fun σ =>
    match fs.lookup? σ.1 σ.2 with
    | none => true
    | some id => !fs.isDirectory id

theorem FileSystem.target?_eq_some_iff {fs : FileSystem} {path : String} {σ : Slot} :
    fs.target? path = some σ ↔ fs.place? path = some σ ∧
      ∀ id, fs.lookup? σ.1 σ.2 = some id → fs.isDirectory id = false := by
  rw [target?, Option.filter_eq_some_iff]
  apply and_congr_right
  intro _
  cases fs.lookup? σ.1 σ.2 <;> simp

theorem FileSystem.target?_of_standing {fs : FileSystem} {path : String} {σ : Slot} {id : NodeId}
    (hσ : fs.place? path = some σ) (he : fs.lookup? σ.1 σ.2 = some id)
    (hd : fs.isDirectory id = false) : fs.target? path = some σ := by
  refine target?_eq_some_iff.mpr ⟨hσ, fun i hi => ?_⟩
  cases he.symm.trans hi
  exact hd

def mountedTargets (fs : FileSystem) (dir : String) (files : List SourceFile) : List Slot :=
  (files.filter (·.isReady)).filterMap fun f => fs.target? (Path.join dir f.name)

/-- No way to a path leads by a name under which copies are put. -/
def Avoids (fs : FileSystem) (dir : String) (files : List SourceFile) (purpose : Purpose)
    (path : String) : Prop :=
  ∀ σ ∈ fs.lookups purpose path, σ ∉ mountedTargets fs dir files

instance (fs : FileSystem) (dir : String) (files : List SourceFile) (purpose : Purpose)
    (path : String) : Decidable (Avoids fs dir files purpose path) :=
  inferInstanceAs (Decidable (∀ σ ∈ fs.lookups purpose path, σ ∉ mountedTargets fs dir files))

def mountedWays (fs : FileSystem) (dir : String) (files : List SourceFile) : List Slot :=
  files.flatMap fun f =>
    fs.lookups .examine f.path ++ fs.lookups .remove (Path.join dir f.name) ++
      (fs.place? (Path.join dir f.name)).toList

def mountedScene (w : Surroundings) (dir : String) (files : List SourceFile) : Scene where
  first := w.files
  ways σ := σ ∈ mountedWays w.files dir files
  targets σ := σ ∈ mountedTargets w.files dir files
  stream id := w.output = .file id

variable {c : Scene} {w w' : Surroundings} {f : SourceFile} {dir : String} {files : List SourceFile}

theorem mem_mountedTargets {fs : FileSystem} {σ : Slot} :
    σ ∈ mountedTargets fs dir files ↔
      ∃ f ∈ files, f.isReady = true ∧ fs.target? (Path.join dir f.name) = some σ := by
  simp only [mountedTargets, List.mem_filterMap, List.mem_filter, and_assoc]

theorem mem_mountedTargets_of_place? {fs : FileSystem} {σ : Slot} (hf : f ∈ files)
    (hr : f.isReady = true) (hσ : fs.place? (Path.join dir f.name) = some σ)
    (hd : ∀ id, fs.lookup? σ.1 σ.2 = some id → fs.isDirectory id = false) :
    σ ∈ mountedTargets fs dir files :=
  mem_mountedTargets.mpr ⟨f, hf, hr, target?_eq_some_iff.mpr ⟨hσ, hd⟩⟩

theorem mountedScene_allows (w : Surroundings) (dir : String) (hf : f ∈ files)
    (hr : f.isReady = true) :
    (mountedScene w dir files).Allows (Path.join dir f.name) where
  lookups _ hσ := List.mem_flatMap.mpr
    ⟨f, hf, List.mem_append_left _ (List.mem_append_right _ hσ)⟩
  place _ hσ := List.mem_flatMap.mpr
    ⟨f, hf, List.mem_append_right _ (Option.mem_toList.mpr hσ)⟩
  target _ hσ hd := mem_mountedTargets_of_place? hf hr hσ hd

namespace Scene

/-- What holds at every moment of a run: it belongs to the trials of a file that is ready, or no
row is printed and no destination is read. -/
structure Regular (c : Scene) (dir : String) (files : List SourceFile) (m : Moment Surroundings) :
    Prop where
  before : c.Ongoing m.before
  after : c.Ongoing m.after
  trial : Plain m.request ∨
    ∃ f ∈ files, f.isReady = true ∧ c.Sound f (Path.join dir f.name) m

theorem Passes.regular {m : Moment Surroundings} (h : c.Passes m) : c.Regular dir files m :=
  ⟨h.before, h.after, .inl (plain_of_looks h.looks)⟩

theorem Sound.regular {m : Moment Surroundings} (hf : f ∈ files) (hr : f.isReady = true)
    (h : c.Sound f (Path.join dir f.name) m) : c.Regular dir files m :=
  ⟨h.before.toOngoing, h.after.toOngoing, .inr ⟨f, hf, hr, h⟩⟩

theorem preserves_of_harmless {r : Request} (hr : Harmless r) (hp : Plain r) :
    r.Preserves Surroundings.answer (c.Regular dir files) c.Underway := by
  intro w hw
  have hafter := hw.after_harmless hr
  exact ⟨⟨hw.toOngoing, hafter.toOngoing, .inl hp⟩, hafter⟩

theorem narrates_regular : Narrates Surroundings.answer (c.Regular dir files) c.Underway where
  report _ := preserves_of_harmless trivial trivial
  header := preserves_of_harmless trivial trivial
  footer := preserves_of_harmless trivial trivial

end Scene

/-- How a run in the mounted directory starts: with settings that are accepted, the listed files as
they are found, and others who leave alone the names on the way to sources and destinations. -/
structure MountedStart (s : Settings) (dir : String) (files : List SourceFile)
    (w : Surroundings) : Prop where
  destination : s.destinationDir = some dir
  accepted : ∃ v, (mounted s).check.dialogue.result Surroundings.answer v = .ok ()
  resolved : (resolveSources s.sourceDir s.files).dialogue.result Surroundings.answer w = .ok files
  wellFormed : w.files.WellFormed
  others : ∀ k fs, Spares (· ∈ mountedWays w.files dir files) fs ((w.schedule k).change fs)
  stream : ∀ id, w.output = .file id → id < w.files.nodes.size

namespace MountedStart

variable {s : Settings}

theorem loops (h : MountedStart s dir files w) : s.loopCount ≠ 0 :=
  let ⟨_, hv⟩ := h.accepted
  loopCount_ne_zero_of_check hv

theorem ongoing (h : MountedStart s dir files w) : (mountedScene w dir files).Ongoing w where
  files := Scene.holds_first h.wellFormed
  others := h.others
  stream id hid := ⟨hid, h.stream id hid⟩

theorem ways (h : MountedStart s dir files w) :
    ∀ name ∈ s.files, ∀ σ ∈ w.files.lookups .examine (Path.join s.sourceDir name),
      (mountedScene w dir files).ways σ := by
  intro name hname σ hσ
  rw [← names_resolveSources h.resolved] at hname
  obtain ⟨f, hf, rfl⟩ := List.mem_map.mp hname
  rw [← path_of_resolveSources h.resolved f hf] at hσ
  exact List.mem_flatMap.mpr ⟨f, hf, List.mem_append_left _ (List.mem_append_left _ hσ)⟩

theorem meets_resolve (h : MountedStart s dir files w) :
    (resolveSources s.sourceDir s.files).dialogue.Meets Surroundings.answer
      (mountedScene w dir files).Passes w fun r w' => r = .ok files ∧
        files = s.files.map (w.files.source s.sourceDir) ∧
        (mountedScene w dir files).Ongoing w' ∧ w.Follows w' :=
  h.ongoing.meets_resolveSources rfl h.ways h.resolved

theorem meets_run (h : MountedStart s dir files w) (hg : w.Permits) :
    (mounted s).session.dialogue.Meets Surroundings.answer
      ((mountedScene w dir files).Regular dir files) w
      fun _ w' => (mountedScene w dir files).Underway w' := by
  have hfile : ∀ f ∈ files, f.isReady = true → ∀ w', (mountedScene w dir files).Underway w' →
      (mountedFile s f).dialogue.Meets Surroundings.answer
        ((mountedScene w dir files).Regular dir files) w'
        fun _ w' => (mountedScene w dir files).Underway w' := fun f hf hr w' hw' =>
    (Scene.meets_mountedFile h.destination h.loops hw' (mountedScene_allows w dir hf hr)).mono
      (fun m hm => hm.regular hf hr) fun _ _ hw => hw.1
  refine .attempt_bind (h.meets_resolve.mono (fun m hm => hm.regular) fun r w₁ hpost => ?_)
  obtain ⟨rfl, -, hongoing, hfollows⟩ := hpost
  have h₁ := hongoing.underway hfollows hg
  have hnarrates : Narrates Surroundings.answer ((mountedScene w dir files).Regular dir files)
      (mountedScene w dir files).Underway := Scene.narrates_regular
  obtain ⟨hkind, h₂⟩ := hnarrates.report (.startingRun .mounted files.length
    (files.filter (·.isReady)).length s.loopCount) w₁ h₁
  exact .ask hkind (hnarrates.meets_printFiles hfile h₂)

theorem files_eq (h : MountedStart s dir files w) :
    files = s.files.map (w.files.source s.sourceDir) :=
  h.meets_resolve.ends.2.1

theorem eq_of_name (h : MountedStart s dir files w) {f' : SourceFile} (hf : f ∈ files)
    (hf' : f' ∈ files) (hname : f.name = f'.name) : f = f' := by
  rw [h.files_eq] at hf hf'
  exact eq_of_mem_sources hf hf' hname

theorem bytes? (h : MountedStart s dir files w) (hf : f ∈ files) (hr : f.isReady = true) :
    ∃ x, w.files.bytes? f.path = some x ∧ f.size? = some x.size :=
  bytes?_of_ready (h.files_eq ▸ hf) hr

end MountedStart

end StorageTrials

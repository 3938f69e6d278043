import StorageTrials.Proofs.FileSystem.Opening
import StorageTrials.Proofs.Listing
import StorageTrials.Proofs.MountedTrials

namespace StorageTrials

open FileSystem Runner Surroundings

variable {c : Scene} {w : Surroundings} {s : Settings} {f : SourceFile} {dir path dest : String}
variable {fs fs' : FileSystem} {id : NodeId}

namespace FileSystem

def outlet? (fs : FileSystem) (path : String) : Option Slot :=
  match fs.locate .create path with
  | .ok (.entry dir name false) => some (dir, name)
  | _ => none

theorem outlet?_of_locate {d : NodeId} {n : String}
    (h : fs.locate .create path = .ok (.entry d n false)) : fs.outlet? path = some (d, n) := by
  simp only [outlet?, h]

end FileSystem

namespace Scene

/-- A path may be opened for writing whatever stands there: text goes where its links lead. -/
structure Opens (c : Scene) (path : String) : Prop where
  created : ∀ σ ∈ c.first.lookups .create path, c.ways σ
  examined : ∀ σ ∈ c.first.lookups .examine path, c.ways σ
  outlet : ∀ σ, c.first.outlet? path = some σ →
    c.ways σ ∧ (c.first.lookup? σ.1 σ.2 = none → c.targets σ)
  written : ∀ id, c.first.find path = .ok id → c.stream id
  made : ∀ id, c.first.nodes.size ≤ id → c.stream id

theorem Holds.outlet (h : c.Holds fs) (hw : ∀ σ ∈ c.first.lookups .create path, c.ways σ)
    {d : NodeId} {n : String} (hl : fs.locate .create path = .ok (.entry d n false)) :
    c.first.outlet? path = some (d, n) ∨ c.targets (d, n) := by
  cases (h.locate hw).spot with
  | inl hsame =>
    apply Or.inl
    apply outlet?_of_locate
    rw [← hsame.1, hl]
  | inr hcut =>
    obtain ⟨σ, -, ht, -, ⟨e, he⟩ | ⟨-, t, he⟩⟩ := hcut
    · cases hl.symm.trans he
    · cases hl.symm.trans he
      exact Or.inr ht

theorem Holds.created (h : c.Holds fs) (hw : ∀ σ ∈ c.first.lookups .examine path, c.ways σ)
    (hok : fs.create path = .ok (fs', id)) :
    c.first.find path = .ok id ∨ c.first.nodes.size ≤ id := by
  obtain ⟨d, n, hl, ⟨-, hadd⟩ | ⟨hc, -⟩⟩ := create_cases hok
  · rw [(Prod.mk.inj hadd).2]
    exact Or.inr h.size
  · have hx := locate_examine_of_create hl
    cases (h.locate hw).spot with
    | inl hsame =>
      have hfirst := hsame.1.symm.trans hx
      rw [(hsame.2 (d, n) (mem_lookups hfirst)).child] at hc
      apply Or.inl
      rw [find_of_entry hfirst, hc]
      rfl
    | inr hcut =>
      obtain ⟨σ, -, -, hr, ⟨e, he⟩ | ⟨-, t, he⟩⟩ := hcut
      · cases hx.symm.trans he
      · cases hx.symm.trans he
        exact Or.inr (hr id (child_eq_ok_iff.mp hc).2).1

theorem Holds.open (h : c.Holds fs) (hok : fs.create path = .ok (fs', id))
    (hname : ∀ d n, fs.locate .create path = .ok (.entry d n false) → fs.lookup? d n = none →
      c.targets (d, n)) (hs : c.stream id) : c.Holds fs' := by
  obtain ⟨d, n, hl, ⟨hc, hadd⟩ | ⟨-, ⟨hf, rfl⟩ | ⟨-, rfl⟩⟩⟩ := create_cases hok
  · have hfree := (child_eq_ok_iff.mp hc).2
    rw [(Prod.mk.inj hadd).1]
    exact h.add (hname d n hl hfree) hfree
  · exact h.set hs hf
  · exact h

theorem Holds.opens (h : c.Holds fs) (hp : c.Opens path) (hok : fs.create path = .ok (fs', id)) :
    c.Holds fs' ∧ c.stream id := by
  have hs : c.stream id := by
    cases h.created hp.examined hok with
    | inl hf => exact hp.written id hf
    | inr hle => exact hp.made id hle
  refine ⟨h.open hok (fun d n hl hfree => ?_) hs, hs⟩
  cases h.outlet hp.created hl with
  | inr ht => exact ht
  | inl hout =>
    -- the name was free at first, or it is one of those for copies
    obtain ⟨hway, ht⟩ := hp.outlet (d, n) hout
    cases h.slots (d, n) hway with
    | inl hk => exact ht (hk.entry.symm.trans hfree)
    | inr hr => exact hr.1

theorem Holds.saveText (h : c.Holds fs) (hp : c.Opens path) (text : String) :
    c.Holds (fs.saveText path text).1 := by
  unfold FileSystem.saveText
  split
  · exact h
  · rename_i fs₁ id hok
    obtain ⟨h₁, hs⟩ := h.opens hp hok
    split
    · exact h₁
    · exact h₁.append hs

theorem Holds.copy_opens (h : c.Holds fs) (hp : c.Opens dest) (source : String) (chunk : Nat)
    (patience : Patience) (hitches : List Hitch) :
    c.Holds (fs.copy source dest chunk patience hitches).1 := by
  unfold FileSystem.copy
  split
  · exact h
  · split
    · exact h
    · rename_i id _ _ fs₁ target hok
      obtain ⟨h₁, hs⟩ := h.opens hp hok
      rcases copyNode_files fs₁ id target chunk patience hitches with he | ⟨hf, x, he⟩
      · rw [he]
        exact h₁
      · rw [he]
        exact h₁.set hs hf

theorem Ongoing.remove (h : c.Ongoing w) (hp : c.Allows dest) :
    c.Ongoing ((answer (.remove dest)).run w).2 := by
  rcases run_remove dest w with ⟨fs, hr, he⟩ | ⟨e, -, he⟩
  · rw [he]
    exact h.turned.follow ⟨rfl, fun _ => Iff.rfl⟩ ((h.turned.files.remove hp).1 fs hr).1
  · rw [he]
    exact h.turned

theorem Ongoing.copy (h : c.Ongoing w) (hp : c.Opens dest) (source : String)
    (limit : Option Duration) :
    c.Ongoing ((answer (.trial (.copy source dest) limit)).run w).2 := by
  have htries := w.turned.tries_trial limit (w.schedule w.clock)
    (show w.turned.workOn? _ (.copy source dest) = some _ from rfl)
  rw [run_answer]
  refine h.turned.follow htries.follows ?_
  rcases htries.files with he | ⟨p, he⟩
  · exact he ▸ h.turned.files
  · exact he ▸ h.turned.files.copy_opens hp source chunkSize p _

structure During (c : Scene) (m : Moment Surroundings) : Prop where
  before : c.Ongoing m.before
  after : c.Ongoing m.after

theorem Ongoing.preserves {r : Request} (h : ∀ w, c.Ongoing w → c.Ongoing ((answer r).run w).2) :
    Request.Preserves answer c.During c.Ongoing r :=
  fun w hw => ⟨⟨hw, h w hw⟩, h w hw⟩

theorem Ongoing.preserves_harmless {r : Request} (hr : Harmless r) :
    Request.Preserves answer c.During c.Ongoing r :=
  Ongoing.preserves fun _ hw => hw.after_harmless hr

theorem Underway.preserves_harmless {r : Request} (hr : Harmless r) :
    Request.Preserves answer c.During c.Underway r := fun _ hw =>
  have hafter := hw.after_harmless hr
  ⟨⟨hw.toOngoing, hafter.toOngoing⟩, hafter⟩

theorem Ongoing.narrates : Narrates answer c.During c.Ongoing :=
  ⟨fun _ => Ongoing.preserves_harmless trivial, Ongoing.preserves_harmless trivial,
    Ongoing.preserves_harmless trivial⟩

theorem Ongoing.meets_reports (h : c.Ongoing w) {α : Type} {d : Dialogue α}
    (hd : d.Asks Request.IsReport) :
    d.Meets answer c.During w fun _ w' => c.Ongoing w' :=
  Ongoing.narrates.meets_reports hd h

/-- A copy may be put at a path where what stands there has been removed, and also where it has not,
if a removal may be refused. -/
structure Tolerates (c : Scene) (w : Surroundings) (path : String) : Prop where
  allows : c.Allows path
  opens : ¬ w.Permits → c.Opens path

theorem Ongoing.meets_mountedFile (h : c.Ongoing w) (hdir : s.destinationDir = some dir)
    (hallows : c.Allows (Path.join dir f.name)) (hopens : c.Opens (Path.join dir f.name)) :
    (mountedFile s f).dialogue.Meets answer c.During w fun _ w' => c.Ongoing w' := by
  refine Dialogue.Asks.meets (asks_mountedFile_of (fun r hr => ?_) hdir ?_ ?_ ?_ fun _ => ?_) h
  · cases r with
    | report event => exact Ongoing.preserves_harmless trivial
    | print line => exact Ongoing.preserves_harmless trivial
    | _ => exact hr.elim
  · exact Ongoing.preserves fun _ hw => hw.remove hallows
  · exact Ongoing.preserves fun _ hw => hw.copy hopens _ _
  · exact Ongoing.preserves_harmless trivial
  · exact Ongoing.preserves_harmless trivial

/-- A run stays within its scene, whatever removals are refused. -/
theorem Ongoing.meets_mountedRun (h : c.Ongoing w) (hdir : s.destinationDir = some dir)
    (hloops : s.loopCount ≠ 0)
    (htolerates : ∀ files,
      (resolveSources s.sourceDir s.files).dialogue.result answer w = .ok files →
        ∀ f ∈ files, f.isReady = true → c.Tolerates w (Path.join dir f.name)) :
    (mounted s).session.dialogue.Meets answer c.During w fun _ w' => c.Ongoing w' := by
  by_cases hg : w.Permits
  · have hnarrates : Narrates answer c.During c.Underway :=
      ⟨fun _ => Underway.preserves_harmless trivial, Underway.preserves_harmless trivial,
        Underway.preserves_harmless trivial⟩
    refine (hnarrates.meets_runAll (fun r hr => ?_) (fun files hfiles f hf hr w' hw' => ?_)
      (h.underway (.refl w) hg)).weaken fun _ _ hw' => hw'.toOngoing
    · cases r <;> first | exact hr.elim | exact Underway.preserves_harmless trivial
    · exact (Scene.meets_mountedFile hdir hloops hw' (htolerates files hfiles f hf hr).allows).mono
        (fun m hm => ⟨hm.before.toOngoing, hm.after.toOngoing⟩) fun _ _ hpost => hpost.1
  · refine Ongoing.narrates.meets_runAll (fun r hr => ?_) (fun files hfiles f hf hr w' hw' => ?_) h
    · cases r <;> first | exact hr.elim | exact Ongoing.preserves_harmless trivial
    · have htolerate := htolerates files hfiles f hf hr
      exact hw'.meets_mountedFile hdir htolerate.allows (htolerate.opens hg)

end Scene

end StorageTrials

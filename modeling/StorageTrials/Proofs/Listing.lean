import StorageTrials.Proofs.FileSystem.Sources
import StorageTrials.Proofs.RowAccounting
import StorageTrials.Proofs.Underway

namespace StorageTrials

open FileSystem Runner

variable {c : Scene} {u w : Surroundings} {dir : String} {names : List String}
variable {files : List SourceFile}

/-- Nothing has been put under any name yet. -/
structure Scene.Untouched (c : Scene) (u w : Surroundings) : Prop where
  files : (Scene.still c.first c.ways fun _ => False).Holds w.files
  follows : u.Follows w

namespace Scene

theorem Holds.of_still {fs : FileSystem}
    (h : (still c.first c.ways fun _ => False).Holds fs) : c.Holds fs where
  first := h.first
  wellFormed := h.wellFormed
  workingDir := h.workingDir
  size := h.size
  directories := h.directories
  slots σ hσ := by
    rcases h.slots σ hσ with hk | ⟨ht, -⟩
    · refine .inl ⟨hk.entry, fun id hid => ?_⟩
      rcases hk.node id hid with hn | ⟨hs, -⟩
      · exact .inl hn
      · exact hs.elim
    · exact ht.elim

theorem Untouched.ongoing (hu : c.Ongoing u) (h : c.Untouched u w) : c.Ongoing w :=
  hu.follow h.follows h.files.of_still

theorem Untouched.looks (hu : c.Ongoing u) (h : c.Untouched u w) {r : Request} (hr : Looks r) :
    ((Surroundings.answer r).run w).2 = w.turned ∧ c.Untouched u w.turned := by
  have hspares := (h.ongoing hu).spares_turned
  refine ⟨?_, h.files.spare hspares, h.follows.trans (Surroundings.follows_turned w)⟩
  cases r with
  | inspect path | probe path => rfl
  | _ => exact hr.elim

structure Passes (c : Scene) (m : Moment Surroundings) : Prop where
  before : c.Ongoing m.before
  after : c.Ongoing m.after
  looks : Looks m.request

theorem Untouched.ask {α : Type} (hu : c.Ongoing u) (h : c.Untouched u w) {r : Request}
    (hr : Looks r) {next : r.Answer → Dialogue α} {post : α → Surroundings → Prop}
    (hnext : c.Untouched u w.turned →
      (next ((Surroundings.answer r).run w).1).Meets Surroundings.answer c.Passes w.turned post) :
    (Dialogue.ask r next).Meets Surroundings.answer c.Passes w post := by
  obtain ⟨hw, hturned⟩ := h.looks hu hr
  refine .ask ⟨h.ongoing hu, hw ▸ hturned.ongoing hu, hr⟩ ?_
  rw [hw]
  exact hnext hturned

theorem meets_examine (hu : c.Ongoing u) (h : c.Untouched u w) {path : String}
    (hw : ∀ σ ∈ c.first.lookups .examine path, c.ways σ) :
    (SourceFile.examine path).Meets Surroundings.answer c.Passes w fun status w' =>
      status = c.first.status path ∧ c.Untouched u w' := by
  refine h.ask hu (r := .inspect path) trivial fun h₁ => ?_
  have hi : ((Surroundings.answer (.inspect path)).run w).1 = c.first.inspect path :=
    h₁.files.inspect_still hw
  rw [hi, status]
  cases hfound : c.first.inspect path with
  | error e => exact .done ⟨rfl, h₁⟩
  | ok found =>
    cases found with
    | directory | other => exact .done ⟨rfl, h₁⟩
    | file size =>
      refine h₁.ask hu (r := .probe path) trivial fun h₂ => ?_
      -- what has been looked at can be opened, as nobody has taken it away
      obtain ⟨id, hid, -⟩ := find_of_inspect hfound
      have hp : ((Surroundings.answer (.probe path)).run w.turned).1 = .ok () := by
        change (w.turned.turned.files.find path).map (fun _ => ()) = _
        rw [(h₂.files.find_still hw).1]
        exact congrArg (Except.map _) hid
      rw [hp]
      exact .done ⟨rfl, h₂⟩

theorem meets_ofNames (hu : c.Ongoing u) (h : c.Untouched u w)
    (hw : ∀ name ∈ names, ∀ σ ∈ c.first.lookups .examine (Path.join dir name), c.ways σ) :
    (SourceFile.ofNames dir names).Meets Surroundings.answer c.Passes w fun files w' =>
      files = names.map (c.first.source dir) ∧ c.Untouched u w' := by
  induction names generalizing w with
  | nil => exact .done ⟨rfl, h⟩
  | cons name names ih =>
    obtain ⟨hname, hnames⟩ := List.forall_mem_cons.mp hw
    refine .bind (.bind ((meets_examine hu h hname).weaken fun status w₁ hpost => .done ?_))
    obtain ⟨rfl, h₁⟩ := hpost
    refine .bind ((ih h₁ hnames).weaken fun files w₂ hpost => .done ?_)
    obtain ⟨rfl, h₂⟩ := hpost
    exact ⟨rfl, h₂⟩

theorem meets_resolveSources (hu : c.Ongoing u) (h : c.Untouched u w)
    (hw : ∀ name ∈ names, ∀ σ ∈ c.first.lookups .examine (Path.join dir name), c.ways σ) :
    (resolveSources dir names).dialogue.Meets Surroundings.answer c.Passes w fun r w' =>
      (∀ files, r = .ok files → files = names.map (c.first.source dir)) ∧ c.Untouched u w' := by
  have hdir : (checkSourceDir dir).dialogue.Meets Surroundings.answer c.Passes w
      fun _ w' => c.Untouched u w' := by
    refine h.ask hu (r := .inspect dir) trivial fun h₁ => ?_
    cases ((Surroundings.answer (.inspect dir)).run w).1 with
    | error e => exact .done h₁
    | ok found => cases found <;> exact .done h₁
  refine .attempt_bind (hdir.weaken fun r w₁ h₁ => ?_)
  cases r with
  | error e => exact ⟨fun files hf => (nomatch hf), h₁⟩
  | ok _ =>
    refine .bind ((meets_ofNames hu h₁ hw).weaken fun files w₂ hpost => .done ?_)
    obtain ⟨rfl, h₂⟩ := hpost
    refine ⟨fun files hf => ?_, h₂⟩
    cases hf
    rfl

/-- A run that finds the listed files finds what was there when it started. -/
theorem Ongoing.meets_resolveSources (h : c.Ongoing w) (hfirst : w.files = c.first)
    (hw : ∀ name ∈ names, ∀ σ ∈ c.first.lookups .examine (Path.join dir name), c.ways σ)
    (hr : (resolveSources dir names).dialogue.result Surroundings.answer w = .ok files) :
    (resolveSources dir names).dialogue.Meets Surroundings.answer c.Passes w fun r w' =>
      r = .ok files ∧ files = names.map (c.first.source dir) ∧ c.Ongoing w' ∧ w.Follows w' := by
  have hholds : (still c.first c.ways fun _ => False).Holds c.first := holds_first h.files.first
  have hstart : c.Untouched w w := ⟨hfirst ▸ hholds, .refl w⟩
  refine (Scene.meets_resolveSources h hstart hw).with_result.weaken fun r w' hpost => ?_
  obtain ⟨hok, hfiles, h'⟩ := hpost
  exact ⟨hok.trans hr, hfiles files (hok.trans hr), h'.ongoing h, h'.follows⟩

end Scene

end StorageTrials

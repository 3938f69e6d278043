import StorageTrials.Proofs.Answers
import StorageTrials.Proofs.FileSystem.Standing
import StorageTrials.SourceFile

namespace StorageTrials

open FileSystem

variable {c : Scene} {w w' : Surroundings} {f : SourceFile} {x : ByteArray}

/-- Surroundings of a run in which others leave alone what the scene says, as does the stream. -/
structure Scene.Ongoing (c : Scene) (w : Surroundings) : Prop where
  files : c.Holds w.files
  others : ∀ k fs, Spares c.ways fs ((w.schedule k).change fs)
  stream : ∀ id, w.output = .file id → c.stream id ∧ id < c.first.nodes.size

def Surroundings.Permits (w : Surroundings) : Prop := ∀ k, (w.schedule k).denial = none

structure Scene.Underway (c : Scene) (w : Surroundings) : Prop extends c.Ongoing w where
  permits : w.Permits

/-- A file that is to be copied to a destination, with its content. The way to it avoids the names
under which new files are put. -/
structure Scene.Source (c : Scene) (f : SourceFile) (x : ByteArray) : Prop where
  size : f.size? = some x.size
  node : ∃ id, c.first.find f.path = .ok id ∧ c.first.node? id = some (.file x) ∧ ¬ c.stream id
  ways : ∀ σ ∈ c.first.lookups .examine f.path, c.ways σ
  apart : ∀ σ ∈ c.first.lookups .examine f.path, ¬ c.targets σ

namespace Scene

theorem Source.bytes? (h : c.Source f x) {fs : FileSystem} (hf : c.Holds fs) :
    fs.bytes? f.path = some x := by
  obtain ⟨id, hid, hn, hs⟩ := h.node
  exact bytes?_eq_some_iff.mpr ⟨id, hf.find_file h.ways h.apart hid hn hs⟩

theorem Ongoing.follow (h : c.Ongoing w) (hw : w.Follows w') (hf : c.Holds w'.files) :
    c.Ongoing w' where
  files := hf
  others := hw.schedule ▸ h.others
  stream id hid := h.stream id ((hw.output id).mp hid)

theorem Ongoing.underway {u : Surroundings} (h : c.Ongoing w) (hu : u.Follows w) (hg : u.Permits) :
    c.Underway w :=
  ⟨h, fun k => by rw [hu.schedule, hg]⟩

theorem Underway.follow (h : c.Underway w) (hw : w.Follows w') (hf : c.Holds w'.files) :
    c.Underway w' :=
  (h.toOngoing.follow hw hf).underway hw h.permits

theorem Underway.restart (h : c.Underway w) : (c.restart w.files).Underway w where
  files := holds_first h.files.wellFormed
  others := h.others
  stream id hid :=
    let ⟨hs, hlt⟩ := h.stream id hid
    ⟨hs, Nat.lt_of_lt_of_le hlt h.files.size⟩
  permits := h.permits

theorem Ongoing.spares_turned (h : c.Ongoing w) : Spares c.ways w.files w.turned.files := by
  rw [Surroundings.files_turned]
  exact h.others _ _

theorem Ongoing.turned (h : c.Ongoing w) : c.Ongoing w.turned :=
  h.follow (Surroundings.follows_turned w) (h.files.spare h.spares_turned)

theorem Underway.turned (h : c.Underway w) : c.Underway w.turned :=
  h.follow (Surroundings.follows_turned w) (h.files.spare h.spares_turned)

def Harmless : Request → Prop
  | .inspect _ | .probe _ | .isCancelled | .print _ | .report _ | .trial (.drain _) _ => True
  | _ => False

theorem Ongoing.harmless (h : c.Ongoing w) {r : Request} (hr : Harmless r) :
    c.Drifts w.files ((Surroundings.answer r).run w).2.files ∧
      w.Follows ((Surroundings.answer r).run w).2 := by
  have hspares := h.spares_turned
  have hfollows := Surroundings.follows_turned w
  rw [Surroundings.run_answer]
  cases r with
  | inspect path | probe path | isCancelled => exact ⟨⟨_, hspares, .inl rfl⟩, hfollows⟩
  | report event =>
    exact ⟨⟨_, hspares, .inl rfl⟩, hfollows.trans ⟨rfl, fun _ => Iff.rfl⟩⟩
  | print line =>
    refine ⟨⟨_, hspares, ?_⟩, hfollows.trans (Surroundings.follows_print _ line)⟩
    rcases Surroundings.files_print w.turned line with hp | ⟨id, hid, hp⟩
    · exact .inl hp
    · obtain ⟨hs, hlt⟩ := h.turned.stream id hid
      exact .inr ⟨id, _, hs, hlt, hp⟩
  | trial work limit =>
    cases work with
    | drain path =>
      have htries := w.turned.tries_trial limit (w.schedule w.clock)
        (show w.turned.workOn? _ (.drain path) = some _ from rfl)
      refine ⟨⟨_, hspares, .inl ?_⟩, hfollows.trans htries.follows⟩
      rcases htries.files with he | ⟨p, he⟩
      · exact he
      · exact he
    | _ => exact hr.elim
  | _ => exact hr.elim

theorem Ongoing.after_harmless (h : c.Ongoing w) {r : Request} (hr : Harmless r) :
    c.Ongoing ((Surroundings.answer r).run w).2 :=
  let ⟨hd, hw⟩ := h.harmless hr
  h.follow hw (h.files.drift hd)

theorem Underway.after_harmless (h : c.Underway w) {r : Request} (hr : Harmless r) :
    c.Underway ((Surroundings.answer r).run w).2 :=
  let ⟨hd, hw⟩ := h.harmless hr
  h.follow hw (h.files.drift hd)

end Scene

end StorageTrials

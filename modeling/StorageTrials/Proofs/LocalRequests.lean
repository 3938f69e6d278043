import StorageTrials.Proofs.FileSystem.Opening
import StorageTrials.Proofs.Outcomes

namespace StorageTrials

open FileSystem Runner Surroundings

namespace FileSystem

/-- All nodes that are new or not what they were are regular files. -/
def AddsFiles (fs fs' : FileSystem) : Prop :=
  ∀ id n, fs'.node? id = some n → fs.node? id = some n ∨ ∃ x, n = .file x

variable {fs fs' fs₁ : FileSystem} {id : NodeId} {path : String} {x : ByteArray}

theorem AddsFiles.refl (fs : FileSystem) : fs.AddsFiles fs := fun _ _ => .inl

theorem AddsFiles.trans (h : fs.AddsFiles fs₁) (h' : fs₁.AddsFiles fs') : fs.AddsFiles fs' := by
  intro id n hn
  cases h' id n hn with
  | inl hn₁ => exact h id n hn₁
  | inr hx => exact .inr hx

theorem AddsFiles.directory {up : NodeId} (h : fs.AddsFiles fs')
    (hn : fs'.node? id = some (.directory up)) : fs.node? id = some (.directory up) := by
  obtain hn | ⟨x, hx⟩ := h id _ hn
  · exact hn
  · cases hx

theorem AddsFiles.device {d : Device} (h : fs.AddsFiles fs')
    (hn : fs'.node? id = some (.device d)) : fs.node? id = some (.device d) := by
  obtain hn | ⟨x, hx⟩ := h id _ hn
  · exact hn
  · cases hx

theorem addsFiles_add (fs : FileSystem) (dir : NodeId) (name : String) (x : ByteArray) :
    fs.AddsFiles (fs.add dir name (.file x)).1 := by
  intro id n hn
  by_cases hlt : id < fs.nodes.size
  · rw [node?_add_of_lt hlt] at hn
    exact .inl hn
  · have hle : id < (fs.add dir name (.file x)).1.nodes.size := lt_size_of_node? hn
    have hid : id = fs.nodes.size := by
      rw [FileSystem.add, Array.size_push] at hle
      exact Nat.le_antisymm (Nat.le_of_lt_succ hle) (Nat.le_of_not_lt hlt)
    rw [hid, node?_add_self] at hn
    exact .inr ⟨x, (Option.some.inj hn).symm⟩

theorem addsFiles_set (fs : FileSystem) (id : NodeId) (x : ByteArray) :
    fs.AddsFiles (fs.set id (.file x)) := by
  intro i n hn
  by_cases hi : i = id
  · subst hi
    have hlt : i < (fs.set i (.file x)).nodes.size := lt_size_of_node? hn
    rw [FileSystem.set, Array.size_setIfInBounds] at hlt
    rw [node?_set_self hlt] at hn
    exact .inr ⟨x, (Option.some.inj hn).symm⟩
  · rw [node?_set_of_ne hi] at hn
    exact .inl hn

theorem addsFiles_append (fs : FileSystem) (id : NodeId) (x : ByteArray) :
    fs.AddsFiles (fs.append id x).1 := by
  obtain ⟨y, -, he⟩ | he := append_eq fs id x
  · rw [he]
    exact addsFiles_set fs id _
  · rw [he]
    exact .refl fs

theorem addsFiles_create (hok : fs.create path = .ok (fs', id)) : fs.AddsFiles fs' := by
  obtain ⟨d, n, -, ⟨-, hadd⟩ | ⟨-, ⟨-, rfl⟩ | ⟨-, rfl⟩⟩⟩ := create_cases hok
  · rw [(Prod.mk.inj hadd).1]
    exact addsFiles_add fs d n .empty
  · exact addsFiles_set _ id .empty
  · exact .refl _

theorem addsFiles_remove (hok : fs.remove path = .ok fs') : fs.AddsFiles fs' := by
  have hnodes : fs'.nodes = fs.nodes := by
    cases hl : fs.locate .remove path with
    | error e =>
      rw [remove, hl] at hok
      cases hok
    | ok s =>
      cases s with
      | directory d =>
        rw [remove, hl] at hok
        cases hok
      | entry d n t =>
        rw [remove_of_entry hl] at hok
        split at hok
        · cases hok
        · cases hok
        · split at hok
          · cases hok
          · split at hok
            · cases hok
            · cases hok
              rfl
  intro id n hn
  rw [node?, hnodes] at hn
  exact .inl hn

theorem addsFiles_copy (fs : FileSystem) (source dest : String) (chunk : Nat)
    (patience : Patience) (hitches : List Hitch) :
    fs.AddsFiles (fs.copy source dest chunk patience hitches).1 := by
  cases hf : fs.find source with
  | error e =>
    rw [copy, hf]
    exact .refl fs
  | ok id =>
    cases hcreate : fs.create dest with
    | error e =>
      rw [copy, hf]
      simp only [hcreate]
      exact .refl fs
    | ok made =>
      obtain ⟨fs₁, target⟩ := made
      rw [copy, hf]
      simp only [hcreate]
      refine (addsFiles_create hcreate).trans ?_
      obtain he | ⟨-, x, he⟩ := copyNode_files fs₁ id target chunk patience hitches
      · rw [he]
        exact .refl fs₁
      · rw [he]
        exact addsFiles_set fs₁ target x

end FileSystem

def Request.IsLocal : Request → Prop
  | .inspect _ | .probe _ | .remove _ | .print _ | .report _ => True
  | .trial work _ =>
    match work with
    | .copy .. | .drain _ => True
    | _ => False
  | _ => False

theorem isLocal_of_tells {r : Request} (h : r.Tells) : r.IsLocal := by
  cases r <;> first | exact h.elim | trivial

theorem asks_mountedFile_local (s : Settings) (f : SourceFile) :
    (mountedFile s f).dialogue.Asks Request.IsLocal := by
  cases hdir : s.destinationDir with
  | none =>
    rw [mountedFile, hdir]
    trivial
  | some dir =>
    exact asks_mountedFile_of (fun _ => isLocal_of_tells) hdir trivial trivial trivial
      fun _ => trivial

variable {s : Settings} {backend : Backend} {runFile : SourceFile → Attempt Bool}

theorem asks_runFiles {kind : Request → Prop} (hreport : ∀ event, kind (.report event))
    (hfile : ∀ f, (runFile f).dialogue.Asks kind) (files : List SourceFile) (completed : Bool) :
    (runFiles backend runFile files completed).dialogue.Asks kind := by
  have hreports (r : Request) (hr : r.IsReport) : kind r := by
    cases r with
    | report event => exact hreport event
    | _ => exact hr.elim
  induction files generalizing completed with
  | nil => trivial
  | cons f fs ih =>
    rw [runFiles]
    cases f.fault? with
    | some cause => exact ⟨hreport _, fun _ => ih _⟩
    | none =>
      rw [Attempt.dialogue_lift_bind]
      refine Dialogue.asks_bind (hfile f) fun r => Attempt.asks_bind ?_ fun ok => ih _
      exact Dialogue.asks_mono hreports (asks_conclude backend f.name r)

theorem asks_runAll {kind : Request → Prop} (hlook : ∀ r, Looks r → kind r)
    (hreport : ∀ event, kind (.report event)) (hprint : ∀ line, kind (.print line))
    (hfile : ∀ f, (runFile f).dialogue.Asks kind) :
    (runAll backend s runFile).dialogue.Asks kind := by
  have hsystem (line : Line) : (Attempt.system (Ask.print line)).dialogue.Asks kind :=
    ⟨hprint line, fun r => by cases r <;> trivial⟩
  refine Attempt.asks_bind (Dialogue.asks_mono hlook (asks_resolveSources _ _)) fun files => ?_
  refine ⟨hreport _, fun _ => Attempt.asks_bind (hsystem _) fun _ => ?_⟩
  exact Attempt.asks_bind (asks_runFiles hreport hfile files true) fun completed =>
    Attempt.asks_bind (hsystem _) fun _ => trivial

theorem asks_mounted_local (s : Settings) : (mounted s).session.dialogue.Asks Request.IsLocal := by
  refine asks_runAll (fun r hr => ?_) (fun _ => trivial) (fun _ => trivial)
    (asks_mountedFile_local s)
  cases r <;> first | exact hr.elim | trivial

namespace Surroundings

variable {u w w' : Surroundings} {fs : FileSystem} {α : Type}

/-- What requests of a run in the mounted directory leave to those that follow. -/
structure Goes (w w' : Surroundings) : Prop where
  undisturbed : w'.Undisturbed
  receives : w'.Receives
  nodes : w.files.AddsFiles w'.files
  output : ∀ id, w'.output = .file id ↔ w.output = .file id

theorem Goes.trans (h : u.Goes w) (h' : w.Goes w') : u.Goes w' where
  undisturbed := h'.undisturbed
  receives := h'.receives
  nodes := h.nodes.trans h'.nodes
  output id := (h'.output id).trans (h.output id)

theorem Receives.proceed (h : w.Receives) (hw : w.Proceeds fs w') (hfs : w.files.AddsFiles fs) :
    w.Goes w' := by
  refine ⟨hw.undisturbed, ?_, hw.files ▸ hfs, fun id => by rw [hw.output]⟩
  unfold Receives at h ⊢
  rw [hw.output, hw.files]
  cases ho : w.output with
  | standard => trivial
  | kept k =>
    rw [ho] at h
    exact h
  | file id =>
    rw [ho] at h
    exact fun hn => h (hfs.device hn)

structure Served (m : Moment Surroundings) : Prop where
  printed : m.Printed
  going : ¬ m.Cancelled

theorem served_of_quiet {m : Moment Surroundings} (h : Quiet m.request) : Served m :=
  ⟨Moment.printed_of_line? (line?_of_quiet h), not_cancelled_of_quiet h⟩

theorem Receives.serve_print (h : w.Receives) (hu : w.Undisturbed) (line : Line) :
    Served (.of answer (.print line) w) ∧ w.Goes ((answer (.print line)).run w).2 := by
  obtain ⟨hok, hu', hr', -⟩ := h.print hu line
  refine ⟨⟨hok, id⟩, hu', hr', ?_, ?_⟩
  · rw [run_answer, hu.turned]
    change w.files.AddsFiles (Surroundings.print { w with clock := w.clock + 1 } line).1.files
    obtain he | ⟨id, -, he⟩ := files_print { w with clock := w.clock + 1 } line
    · rw [he]
      exact .refl _
    · rw [he]
      exact addsFiles_append _ _ _
  · rw [run_answer, hu.turned]
    exact (follows_print { w with clock := w.clock + 1 } line).output

/-- A trial on files alone may fail, but it is not cancelled. -/
theorem Receives.serve_trial (h : w.Receives) (hu : w.Undisturbed) {work : Work}
    {carried : Patience → FileSystem × Except SystemError Nat}
    (hw : w.workOn? (w.schedule w.clock).hitches work = some carried)
    (hadds : w.files.AddsFiles (carried none).1) (limit : Option Duration) :
    Served (.of answer (.trial work limit) w) ∧ w.Goes ((answer (.trial work limit)).run w).2 := by
  obtain ⟨hans, hproceeds⟩ := hu.run_trial limit hw
  refine ⟨⟨trivial, fun hc => ?_⟩, h.proceed hproceeds hadds⟩
  change ((answer (.trial work limit)).run w).1 = .error .cancelled at hc
  rw [hans] at hc
  cases hres : (carried none).2 with
  | ok n =>
    rw [hres] at hc
    cases hc
  | error e =>
    rw [hres] at hc
    cases hc

theorem Receives.serve (h : w.Receives) (hu : w.Undisturbed) {r : Request} (hr : r.IsLocal) :
    Served (.of answer r w) ∧ w.Goes ((answer r).run w).2 := by
  have hidle (hi : Idle r) : w.Goes ((answer r).run w).2 := h.proceed (hu.idle hi) (.refl _)
  cases r with
  | inspect path | probe path | report event => exact ⟨served_of_quiet trivial, hidle trivial⟩
  | remove path =>
    refine ⟨served_of_quiet trivial, ?_⟩
    obtain ⟨fs, hremove, -, hw⟩ | ⟨e, -, -, hw⟩ := hu.run_remove path
    · exact h.proceed hw (addsFiles_remove hremove)
    · exact h.proceed hw (.refl _)
  | print line => exact h.serve_print hu line
  | trial work limit =>
    cases work with
    | copy source dest => exact h.serve_trial hu rfl (addsFiles_copy _ _ _ _ _ _) limit
    | drain path => exact h.serve_trial hu rfl (.refl _) limit
    | _ => exact hr.elim
  | _ => exact hr.elim

theorem Receives.meets (h : w.Receives) (hu : w.Undisturbed) {d : Dialogue α}
    (hd : d.Asks Request.IsLocal) : d.Meets answer Served w fun _ w' => w.Goes w' := by
  have hasks : d.Asks (Request.Preserves answer Served fun w' => w.Goes w') := by
    refine Dialogue.asks_mono (fun r hr v hv => ?_) hd
    obtain ⟨hserved, hgoes⟩ := hv.receives.serve hv.undisturbed hr
    exact ⟨hserved, hv.trans hgoes⟩
  exact hasks.meets ⟨hu, h, .refl _, fun _ => Iff.rfl⟩

end Surroundings

end StorageTrials

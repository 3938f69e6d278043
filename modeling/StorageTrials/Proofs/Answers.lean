import StorageTrials.Proofs.FileSystem.Copies
import StorageTrials.Proofs.Moments

namespace StorageTrials.Surroundings

variable {w w' : Surroundings}

def turned (w : Surroundings) : Surroundings := w.pass (w.schedule w.clock)

theorem run_answer (r : Request) (w : Surroundings) :
    (answer r).run w =
      ((w.turned.answerIn (w.schedule w.clock) r).2,
        (w.turned.answerIn (w.schedule w.clock) r).1) :=
  rfl

structure Follows (w w' : Surroundings) : Prop where
  schedule : w'.schedule = w.schedule
  output : ∀ id, w'.output = .file id ↔ w.output = .file id

theorem Follows.refl (w : Surroundings) : w.Follows w := ⟨rfl, fun _ => Iff.rfl⟩

theorem Follows.trans {u v w : Surroundings} (h : u.Follows v) (h' : v.Follows w) : u.Follows w :=
  ⟨h'.schedule.trans h.schedule, fun id => (h'.output id).trans (h.output id)⟩

theorem Follows.cancelIf (h : w.Follows w') (b : Bool) : w.Follows (w'.cancelIf b) := by
  cases b with
  | true => exact h.trans ⟨rfl, fun _ => Iff.rfl⟩
  | false => exact h

theorem files_cancelIf (w : Surroundings) (b : Bool) : (w.cancelIf b).files = w.files := by
  cases b <;> rfl

theorem follows_turned (w : Surroundings) : w.Follows w.turned := by
  have h : w.Follows
      { w with files := (w.schedule w.clock).change w.files, clock := w.clock + 1 } :=
    ⟨rfl, fun _ => Iff.rfl⟩
  exact h.cancelIf _

theorem files_turned (w : Surroundings) :
    w.turned.files = (w.schedule w.clock).change w.files := files_cancelIf _ _

/-- Interrupted or not, work on files leaves what it did up to then, and a result only if it came
to its end. -/
structure Works (w w' : Surroundings) (work : Patience → FileSystem × Except SystemError Nat)
    (result : Except Fault Nat) : Prop where
  follows : w.Follows w'
  files : w'.files = w.files ∨ ∃ patience, w'.files = (work patience).1
  complete : ∀ n, result = .ok n → w'.files = (work none).1 ∧ (work none).2 = .ok n

theorem works_workOnFiles (w : Surroundings) (limit : Option Duration) (t : Turn)
    (work : Patience → FileSystem × Except SystemError Nat) :
    w.Works (w.workOnFiles work limit t).1 work (w.workOnFiles work limit t).2 := by
  unfold workOnFiles
  split
  · rename_i how patience _
    have h : w.Follows { w with files := (work (some patience)).1 } := ⟨rfl, fun _ => Iff.rfl⟩
    exact ⟨h.cancelIf _, .inr ⟨some patience, files_cancelIf _ _⟩, fun n hn => nomatch hn⟩
  · refine ⟨⟨rfl, fun _ => Iff.rfl⟩, .inr ⟨none, rfl⟩, fun n hn => ⟨rfl, ?_⟩⟩
    change (work none).2.mapError Fault.system = .ok n at hn
    cases hr : (work none).2 with
    | error e =>
      rw [hr] at hn
      cases hn
    | ok m =>
      rw [hr] at hn
      cases hn
      rfl

theorem works_nothing (w : Surroundings) (work : Patience → FileSystem × Except SystemError Nat)
    (f : Fault) :
    w.Works w work (.error f) :=
  ⟨.refl w, .inl rfl, fun _ hn => nomatch hn⟩

def workOn? (w : Surroundings) (hitches : List Hitch) :
    Work → Option (Patience → FileSystem × Except SystemError Nat)
  | .copy source dest => some fun p => w.files.copy source dest chunkSize p hitches
  | .drain path => some fun p => (w.files, w.files.drain path chunkSize p hitches)
  | .upload .. | .download .. => none

theorem works_carryOut (limit : Option Duration) (t : Turn) {work : Work}
    {carried : Patience → FileSystem × Except SystemError Nat}
    (h : w.workOn? t.hitches work = some carried) :
    w.Works (w.carryOut work limit t).1 carried (w.carryOut work limit t).2 := by
  unfold carryOut
  split
  · exact works_nothing w _ _
  · cases work with
    | copy source dest =>
      cases h
      exact works_workOnFiles w limit t _
    | drain path =>
      cases h
      exact works_workOnFiles w limit t _
    | upload store name path => cases h
    | download store name => cases h

/-- A trial of work on files that was carried out or stopped. -/
structure Tries (w w' : Surroundings) (work : Patience → FileSystem × Except SystemError Nat)
    (result : Except Fault Sample) : Prop where
  follows : w.Follows w'
  files : w'.files = w.files ∨ ∃ patience, w'.files = (work patience).1
  complete : ∀ s, result = .ok s → w'.files = (work none).1 ∧ (work none).2 = .ok s.bytes

theorem tries_trial (limit : Option Duration) (t : Turn) {work : Work}
    {carried : Patience → FileSystem × Except SystemError Nat}
    (h : w.workOn? t.hitches work = some carried) :
    w.Tries (w.trial work limit t).1 carried (w.trial work limit t).2 := by
  unfold trial
  split
  · exact ⟨.refl w, .inl rfl, fun _ hs => nomatch hs⟩
  · have hworks := works_carryOut limit t h
    refine ⟨hworks.follows, hworks.files, fun s hs => ?_⟩
    change (w.carryOut work limit t).2.map _ = .ok s at hs
    cases hr : (w.carryOut work limit t).2 with
    | error e =>
      rw [hr] at hs
      cases hs
    | ok n =>
      rw [hr] at hs
      cases hs
      exact hworks.complete n hr

theorem removeFile_keeps {β : Type} (field : Surroundings → β)
    (hfiles : ∀ v fs, field { v with files := fs } = field v) (w : Surroundings) (path : String)
    (t : Turn) : field (w.removeFile path t).1 = field w := by
  unfold removeFile
  split
  · rfl
  · split
    · exact hfiles _ _
    · rfl

theorem run_remove (path : String) (w : Surroundings) :
    (∃ fs, w.turned.files.remove path = .ok fs ∧
        (answer (.remove path)).run w = (.ok (), { w.turned with files := fs })) ∨
      ∃ e, (w.turned.files.remove path = .error e ∨ (w.schedule w.clock).denial = some e) ∧
        (answer (.remove path)).run w = (.error e, w.turned) := by
  rw [run_answer, answerIn, removeFile]
  cases hd : (w.schedule w.clock).denial with
  | some e => exact .inr ⟨e, .inr rfl, rfl⟩
  | none =>
    cases hr : w.turned.files.remove path with
    | ok fs => exact .inl ⟨fs, rfl, rfl⟩
    | error e => exact .inr ⟨e, .inl rfl, rfl⟩

theorem files_print (w : Surroundings) (line : Line) :
    (w.print line).1.files = w.files ∨
      ∃ id, w.output = .file id ∧
        (w.print line).1.files = (w.files.append id line.text.toUTF8).1 := by
  unfold print
  split
  · exact .inl rfl
  · rename_i id hid
    exact .inr ⟨id, hid, rfl⟩
  · exact .inl (files_cancelIf _ _)

theorem follows_print (w : Surroundings) (line : Line) : w.Follows (w.print line).1 := by
  unfold print
  split
  · exact ⟨rfl, fun _ => Iff.rfl⟩
  · exact ⟨rfl, fun _ => Iff.rfl⟩
  · rename_i s hs
    have h : w.Follows
        { w with
          written := w.written ++ line.text, output := .kept { s with lines := s.lines + 1 } } := by
      refine ⟨rfl, fun id => ?_⟩
      simp only [hs, reduceCtorEq]
    exact h.cancelIf _

end StorageTrials.Surroundings

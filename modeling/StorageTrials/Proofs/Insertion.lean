import Mathlib.Data.List.Forall2
import StorageTrials.Proofs.Lockstep

namespace StorageTrials

open Runner Surroundings

def SourceFile.owes (f : SourceFile) (loops : Nat) : Nat := if f.isReady then 2 * loops else 0

def Line.isRowOf (file : String) : Line → Bool
  | columns _ => false
  | record r => r.file = file

/-- The first of two dialogues prints rows of a file that the second does not print. The end tells
how many. -/
structure Dialogue.Inserts {α β : Type} (file : String) (d : Dialogue α) (d' : Dialogue β)
    (w w' : Surroundings) (post : Nat → α → Surroundings → β → Surroundings → Prop) : Prop where
  rows : (printed (d.moments answer w)).filter (fun l => !l.isRowOf file) =
    printed (d'.moments answer w')
  ends : post ((printed (d.moments answer w)).countP (·.isRowOf file)) (d.result answer w)
    (d.final answer w) (d'.result answer w') (d'.final answer w')

namespace Dialogue.Inserts

variable {α β γ δ : Type} {file : String} {d : Dialogue α} {d' : Dialogue β}
variable {w w' : Surroundings}

theorem of_abreast {post : α → Surroundings → β → Surroundings → Prop}
    (h : d.Abreast (fun l => l.isRowOf file = false) d' w w' post) :
    d.Inserts file d' w w' fun n a u a' u' => n = 0 ∧ post a u a' u' := by
  refine ⟨?_, ?_, h.ends⟩
  · rw [← h.lines]
    exact List.filter_eq_self.mpr fun l hl => by rw [h.kind l hl, Bool.not_false]
  · exact List.countP_eq_zero.mpr fun l hl => by rw [h.kind l hl]; exact Bool.false_ne_true

theorem done {a : α} {a' : β} {post : Nat → α → Surroundings → β → Surroundings → Prop}
    (h : post 0 a w a' w') : (Dialogue.done a).Inserts file (Dialogue.done a') w w' post :=
  ⟨rfl, h⟩

theorem weaken {post post' : Nat → α → Surroundings → β → Surroundings → Prop}
    (h : d.Inserts file d' w w' post)
    (hp : ∀ n a u a' u', post n a u a' u' → post' n a u a' u') :
    d.Inserts file d' w w' post' :=
  ⟨h.rows, hp _ _ _ _ _ h.ends⟩

theorem bind {f : α → Dialogue γ} {f' : β → Dialogue δ}
    {post : Nat → γ → Surroundings → δ → Surroundings → Prop}
    (h : d.Inserts file d' w w' fun n a u a' u' =>
      (f a).Inserts file (f' a') u u' fun m => post (n + m)) :
    (d.bind f).Inserts file (d'.bind f') w w' post := by
  refine ⟨?_, ?_⟩
  · rw [moments_bind, moments_bind, printed_append, printed_append, List.filter_append, h.rows,
      h.ends.rows]
  · rw [moments_bind, printed_append, List.countP_append, result_bind, final_bind, result_bind,
      final_bind]
    exact h.ends.ends

theorem attempt_bind {a : Attempt α} {a' : Attempt β} {f : α → Attempt γ} {f' : β → Attempt δ}
    {post : Nat → Except Fault γ → Surroundings → Except Fault δ → Surroundings → Prop}
    (h : a.dialogue.Inserts file a'.dialogue w w' fun n r u r' u' => ∃ x x', r = .ok x ∧
      r' = .ok x' ∧ (f x).dialogue.Inserts file (f' x').dialogue u u' fun m => post (n + m)) :
    (a >>= f).dialogue.Inserts file (a' >>= f').dialogue w w' post := by
  refine bind (h.weaken fun n r u r' u' hr => ?_)
  obtain ⟨x, x', rfl, rfl, hx⟩ := hr
  exact hx

theorem left {f : α → Dialogue γ} {post : Nat → γ → Surroundings → β → Surroundings → Prop}
    (hrows : ∀ l ∈ printed (d.moments answer w), l.isRowOf file = true)
    (h : (f (d.result answer w)).Inserts file d' (d.final answer w) w' fun m =>
      post ((printed (d.moments answer w)).length + m)) :
    (d.bind f).Inserts file d' w w' post := by
  have hnone : (printed (d.moments answer w)).filter (fun l => !l.isRowOf file) = [] :=
    List.filter_eq_nil_iff.mpr fun l hl => by rw [hrows l hl]; exact Bool.false_ne_true
  refine ⟨?_, ?_⟩
  · rw [moments_bind, printed_append, List.filter_append, hnone, List.nil_append, h.rows]
  · rw [moments_bind, printed_append, List.countP_append, List.countP_eq_length.mpr hrows,
      result_bind, final_bind]
    exact h.ends

theorem report {event : Event} {next : Unit → Dialogue α}
    {post : Nat → α → Surroundings → β → Surroundings → Prop}
    (h : (next ()).Inserts file d' ((answer (.report event)).run w).2 w' post) :
    (Dialogue.ask (.report event) next).Inserts file d' w w' post := by
  have hleft : ((Ask.report event).bind next).Inserts file d' w w' post := by
    refine left (List.forall_mem_nil _) (h.weaken fun n a u a' u' hpost => ?_)
    rwa [show printed ((Ask.report event).moments answer w) = [] from rfl, List.length_nil,
      Nat.zero_add]
  exact hleft

end Dialogue.Inserts

open Dialogue

namespace Runner

variable {runFile : SourceFile → Attempt Bool} {backend : Backend} {w w' : Surroundings}
variable {xs ys : List SourceFile} {f : SourceFile} {loops : Nat} {file : String}
variable {R R' : Surroundings → Surroundings → Prop} {a : Attempt Bool} {post : Surroundings → Prop}

theorem runFiles_append (xs ys : List SourceFile) (completed : Bool) :
    runFiles backend runFile (xs ++ ys) completed =
      runFiles backend runFile xs completed >>= runFiles backend runFile ys := by
  induction xs generalizing completed with
  | nil => rfl
  | cons f fs ih =>
    rw [List.cons_append, runFiles, runFiles]
    cases f.fault? with
    | some cause => simp only [Attempt.bind_assoc, ih]
    | none => simp only [Attempt.bind_assoc, ih]

/-- The trials of a file by themselves: they print its rows, and tell whether all are there. -/
structure Sole (loops : Nat) (file : String) (a : Attempt Bool) (w : Surroundings)
    (post : Surroundings → Prop) : Prop where
  rows : ∀ l ∈ printed (a.dialogue.moments answer w), l.isRowOf file = true
  result : a.dialogue.result answer w =
    .ok (decide ((printed (a.dialogue.moments answer w)).length = 2 * loops))
  ends : post (a.dialogue.final answer w)

theorem AccountsFile.sole (h : AccountsFile answer loops file a)
    (hm : a.dialogue.Meets answer Served w fun _ u => post u) : Sole loops file a w post := by
  obtain ⟨g, rfl, hbounded, hlines, hends⟩ := h w fun m hmem => (hm.moments m hmem).printed
  have hlength : (printed (a.dialogue.moments answer w)).length =
      g.writes.length + g.reads.length := by
    rw [printed, hlines, FileRows.lines]
    simp
  refine ⟨fun l hl => ?_, ?_, hm.ends⟩
  · rw [printed, hlines, FileRows.lines] at hl
    simp only [List.map_append, List.map_map, List.mem_append, List.mem_map] at hl
    obtain ⟨s, -, rfl⟩ | ⟨s, -, rfl⟩ := hl <;> exact decide_eq_true rfl
  · obtain ⟨-, m, hmem, hcancelled⟩ | ⟨hr, -⟩ := hends
    · exact absurd hcancelled (hm.moments m hmem).going
    · rw [hr, hlength]
      refine congrArg Except.ok (decide_eq_decide.mpr ?_)
      obtain ⟨hw, hr⟩ := hbounded
      rw [FileRows.IsFull]
      omega

/-- What is asked of a file that only one of two runs has: if it is ready, its trials print its rows
and tell whether all are there. -/
structure Extra (runFile : SourceFile → Attempt Bool) (loops : Nat) (f : SourceFile)
    (R R' : Surroundings → Surroundings → Prop) : Prop where
  skip : f.isReady = false → ∀ w w', R w w' → R' w w'
  file : f.isReady = true → ∀ w w', R w w' → Sole loops f.name (runFile f) w (R' · w')

variable {R₁ R₂ : List SourceFile → Surroundings → Surroundings → Prop}

theorem Lanes.inserts_rest (h : Lanes (fun l => l.isRowOf file = false) runFile ys R₂)
    (completed completed' : Bool) (hw : R₂ [] w w') :
    (runFiles backend runFile ys completed).dialogue.Inserts file
      (runFiles backend runFile ys completed').dialogue w w' fun n r u r' u' =>
        n = 0 ∧ (∃ b, r = .ok (completed && b) ∧ r' = .ok (completed' && b)) ∧ R₂ ys u u' :=
  .of_abreast (h.abreast_runFiles (List.forall₂_same.mpr fun _ _ => ⟨rfl, fun _ => rfl⟩)
    completed completed' hw)

theorem Lanes.inserts_file (h : Lanes (fun l => l.isRowOf f.name = false) runFile ys R₂)
    (hf : Extra runFile loops f R (R₂ [])) (completed : Bool) (hw : R w w') :
    (runFiles backend runFile (f :: ys) completed).dialogue.Inserts f.name
      (runFiles backend runFile ys completed).dialogue w w' fun n r u r' u' =>
        (∃ b, r' = .ok b ∧ r = .ok (b && decide (n = f.owes loops))) ∧ R₂ ys u u' := by
  rw [runFiles]
  cases hfault : f.fault? with
  | some cause =>
    have hnot := isReady_eq_false_of_fault? hfault
    have hafter := h.report _ (.skippingFile backend f.name cause) _ _ (hf.skip hnot w w' hw)
    refine .report ((h.inserts_rest completed completed hafter).weaken fun n r u r' u' hpost => ?_)
    obtain ⟨rfl, ⟨b, rfl, rfl⟩, hu⟩ := hpost
    exact ⟨⟨_, rfl, by simp [SourceFile.owes, hnot]⟩, hu⟩
  | none =>
    have hready := (isReady_iff_fault?_eq_none f).mpr hfault
    have hsole := hf.file hready w w' hw
    set count := (printed ((runFile f).dialogue.moments answer w)).length with hcount
    obtain ⟨e, he⟩ := conclude_ok backend f.name (decide (count = 2 * loops))
    rw [Attempt.dialogue_lift_bind]
    refine .left hsole.rows ?_
    rw [hsole.result, he]
    refine .report ((h.inserts_rest _ completed (h.report _ e _ _ hsole.ends)).weaken
      fun n r u r' u' hpost => ?_)
    obtain ⟨rfl, ⟨b, rfl, rfl⟩, hu⟩ := hpost
    refine ⟨⟨_, rfl, ?_⟩, hu⟩
    rw [← hcount, Nat.add_zero, SourceFile.owes, if_pos hready, Bool.and_right_comm]

theorem Lanes.inserts_runFiles (hxs : Lanes (fun l => l.isRowOf f.name = false) runFile xs R₁)
    (hys : Lanes (fun l => l.isRowOf f.name = false) runFile ys R₂)
    (hf : Extra runFile loops f (R₁ xs) (R₂ [])) (hw : R₁ [] w w') :
    (runFiles backend runFile (xs ++ f :: ys) true).dialogue.Inserts f.name
      (runFiles backend runFile (xs ++ ys) true).dialogue w w' fun n r u r' u' =>
        (∃ b, r' = .ok b ∧ r = .ok (b && decide (n = f.owes loops))) ∧ R₂ ys u u' := by
  rw [runFiles_append, runFiles_append]
  refine .attempt_bind ((hxs.inserts_rest true true hw).weaken fun n r u r' u' hpost => ?_)
  obtain ⟨rfl, ⟨b, rfl, rfl⟩, hu⟩ := hpost
  refine ⟨_, _, rfl, rfl, (hys.inserts_file hf _ hu).weaken fun n r v r' v' hpost => ?_⟩
  rwa [Nat.zero_add]

theorem Lanes.inserts_printFiles (hxs : Lanes (fun l => l.isRowOf f.name = false) runFile xs R₁)
    (hys : Lanes (fun l => l.isRowOf f.name = false) runFile ys R₂)
    (hf : Extra runFile loops f (R₁ xs) (R₂ [])) (hw : R₁ [] w w') :
    (printFiles backend runFile (xs ++ f :: ys)).dialogue.Inserts f.name
      (printFiles backend runFile (xs ++ ys)).dialogue w w' fun n r u r' u' =>
        (∃ b, r' = .ok b ∧ r = .ok (b && decide (n = f.owes loops))) ∧ R₂ ys u u' := by
  refine .attempt_bind ((Inserts.of_abreast (hxs.abreast_print hw rfl)).weaken
    fun n r u r' u' hpost => ?_)
  obtain ⟨rfl, rfl, rfl, hu⟩ := hpost
  refine ⟨(), (), rfl, rfl, .attempt_bind ((hxs.inserts_runFiles hys hf hu).weaken
    fun n r v r' v' hpost => ?_)⟩
  obtain ⟨⟨b, rfl, rfl⟩, hv⟩ := hpost
  refine ⟨_, _, rfl, rfl, .attempt_bind ((Inserts.of_abreast (hys.abreast_print hv rfl)).weaken
    fun m r t r' t' hpost => ?_)⟩
  obtain ⟨rfl, rfl, rfl, ht⟩ := hpost
  refine ⟨(), (), rfl, rfl, .done ⟨⟨b, rfl, ?_⟩, ht⟩⟩
  simp

end Runner

end StorageTrials

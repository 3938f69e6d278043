import StorageTrials.Invocation
import StorageTrials.Proofs.RowAccounting
import StorageTrials.Surroundings

namespace StorageTrials

def textOf (ls : List Line) : String := String.join (ls.map Line.text)

theorem textOf_append (ls ls' : List Line) : textOf (ls ++ ls') = textOf ls ++ textOf ls' := by
  rw [textOf, List.map_append, String.join_append, textOf, textOf]

theorem textOf_singleton (l : Line) : textOf [l] = l.text := by
  rw [textOf, List.map_singleton, String.join_cons, String.join_nil, String.append_empty]

/-- A file grows by the line that is printed, if there is one. -/
def Moment.Appends (out : NodeId) (m : Moment Surroundings) : Prop :=
  ∀ x, m.before.files.content? out = some x →
    m.after.files.content? out = some (x ++ (textOf m.line?.toList).toUTF8)

theorem content?_final {α : Type} {out : NodeId} {d : Dialogue α} {w : Surroundings}
    (h : ∀ m ∈ d.moments Surroundings.answer w, m.Appends out) {x : ByteArray}
    (hx : w.files.content? out = some x) :
    (d.final Surroundings.answer w).files.content? out =
      some (x ++ (textOf (linesOf (d.moments Surroundings.answer w))).toUTF8) := by
  induction d generalizing w x with
  | done a =>
    rw [Dialogue.final_done, hx]
    exact congrArg some ByteArray.append_empty.symm
  | ask r next ih =>
    rw [Dialogue.moments_ask] at h ⊢
    obtain ⟨hfirst, hrest⟩ := List.forall_mem_cons.mp h
    rw [Dialogue.final_ask, ih _ hrest (hfirst x hx), linesOf_cons, textOf_append,
      String.toUTF8_eq_toByteArray, String.toUTF8_eq_toByteArray, String.toUTF8_eq_toByteArray,
      String.toByteArray_append, ByteArray.append_assoc]

section records

variable {σ α β : Type} {answer : (r : Request) → StateM σ r.Answer} {kind : Moment σ → Prop}
variable {w : σ}

theorem Dialogue.Meets.option_bind {d : OptionT Dialogue α} {f : α → OptionT Dialogue β}
    {post : Option β → σ → Prop}
    (h : d.run.Meets answer kind w fun r w' =>
      match r with
      | some x => (f x).run.Meets answer kind w' post
      | none => post none w') :
    (d >>= f).run.Meets answer kind w post := by
  refine .bind (h.weaken fun r w' hr => ?_)
  cases r with
  | some x => exact hr
  | none => exact .done hr

theorem Dialogue.Meets.option_lift {d : Dialogue α} {f : α → OptionT Dialogue β}
    {post : Option β → σ → Prop}
    (h : d.Meets answer kind w fun a w' => (f a).run.Meets answer kind w' post) :
    ((liftM d : OptionT Dialogue α) >>= f).run.Meets answer kind w post :=
  .option_bind (.bind (h.weaken fun _ _ ha => .done ha))

theorem Dialogue.Meets.option_ask {r : Request} {f : r.Answer → OptionT Dialogue β}
    {post : Option β → σ → Prop} (hk : kind ⟨w, r, ((answer r).run w).1, ((answer r).run w).2⟩)
    (h : (f ((answer r).run w).1).run.Meets answer kind ((answer r).run w).2 post) :
    ((liftM (Dialogue.ask r .done) : OptionT Dialogue r.Answer) >>= f).run.Meets answer kind w
      post :=
  .option_lift (.ask hk (.done h))

section passes

variable {w₁ w₂ : σ} {ms ns : List (Moment σ)} {a : α} {b : Option β}

theorem Dialogue.Passes.option_bind {d : OptionT Dialogue α} {f : α → OptionT Dialogue β}
    (h : d.run.Passes answer w ms (some a) w₁) (hf : (f a).run.Passes answer w₁ ns b w₂) :
    (d >>= f).run.Passes answer w (ms ++ ns) b w₂ :=
  h.bind hf

theorem Dialogue.Passes.option_stop {d : OptionT Dialogue α} {f : α → OptionT Dialogue β}
    (h : d.run.Passes answer w ms none w₁) : (d >>= f).run.Passes answer w ms none w₁ := by
  have hstop := h.bind (f := fun
    | some a => (f a).run
    | none => .done none) .done
  rwa [List.append_nil] at hstop

theorem Dialogue.Passes.option_lift {d : Dialogue α} {f : α → OptionT Dialogue β}
    (h : d.Passes answer w ms a w₁) (hf : (f a).run.Passes answer w₁ ns b w₂) :
    ((liftM d : OptionT Dialogue α) >>= f).run.Passes answer w (ms ++ ns) b w₂ := by
  have hlift : (liftM d : OptionT Dialogue α).run.Passes answer w (ms ++ []) (some a) w₁ :=
    h.bind .done
  rw [List.append_nil] at hlift
  exact hlift.option_bind hf

theorem Dialogue.Passes.option_ask {r : Request} {f : r.Answer → OptionT Dialogue β}
    (hf : (f ((answer r).run w).1).run.Passes answer ((answer r).run w).2 ns b w₂) :
    ((liftM (Dialogue.ask r .done) : OptionT Dialogue r.Answer) >>= f).run.Passes answer w
      (.of answer r w :: ns) b w₂ :=
  (Dialogue.Passes.ask answer r w).option_lift hf

end passes

end records

end StorageTrials

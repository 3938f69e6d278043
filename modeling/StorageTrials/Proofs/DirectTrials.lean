import StorageTrials.Proofs.AllRows
import StorageTrials.Proofs.Loops
import StorageTrials.Proofs.Stream
import StorageTrials.Proofs.Underway
import StorageTrials.Proofs.Unhindered

namespace StorageTrials

open FileSystem Runner

variable {c : Scene} {w : Surroundings} {store : StoreId} {held held' : String → List StoredVersion}
variable {f : SourceFile} {files : List SourceFile} {x : ByteArray} {s : Settings}

namespace Scene

/-- A run over a store that nothing hinders, with what the store holds of each object. -/
structure Serving (c : Scene) (store : StoreId) (held : String → List StoredVersion)
    (w : Surroundings) : Prop extends c.Ongoing w where
  unhindered : w.Unhindered
  stocks : w.Stocks store held

theorem Serving.grant {r : Request} {good : r.Answer → Prop} (h : c.Serving store held w)
    (hg : w.Grants store held' r good) :
    c.Serving store held' ((Surroundings.answer r).run w).2 where
  toOngoing := h.turned.follow hg.restocked.follows (hg.restocked.files ▸ h.turned.files)
  unhindered := hg.restocked.unhindered h.unhindered.of_turned
  stocks := hg.stocks

theorem Serving.tell {r : Request} (h : c.Serving store held w) (hr : r.Tells) :
    c.Serving store held ((Surroundings.answer r).run w).2 := by
  have hturned := h.unhindered.of_turned
  have hstocks := h.stocks.of_stores (Surroundings.stores_turned w)
  cases r with
  | report event =>
    exact ⟨h.after_harmless (r := .report event) trivial,
      ⟨hturned.cancels, hturned.intervention, hturned.stream, hturned.going⟩,
      hstocks.of_stores rfl⟩
  | print line =>
    exact ⟨h.after_harmless (r := .print line) trivial, hturned.print line,
      hstocks.of_stores (Surroundings.stores_print _ line)⟩
  | _ => exact hr.elim

theorem rowFits_of_line? {m : Moment Surroundings} (h : ∀ r, m.line? ≠ some (.record r)) :
    RowFits files m := fun r hr => absurd hr (h r)

theorem Serving.ask_granted {α : Type} {r : Request} {good : r.Answer → Prop}
    {next : r.Answer → Dialogue α} {post : α → Surroundings → Prop}
    (h : c.Serving store held w) (hg : w.Grants store held' r good) (hr : ∀ line, r ≠ .print line)
    (hnext : ∀ a w', good a → c.Serving store held' w' →
      (next a).Meets (printing Surroundings.answer) (RowFits files) w' post) :
    (Dialogue.ask r next).Meets (printing Surroundings.answer) (RowFits files) w post := by
  have hsame : printing Surroundings.answer r = Surroundings.answer r := by
    cases r with
    | print line => exact absurd rfl (hr line)
    | _ => rfl
  refine .ask (rowFits_of_line? fun rec hrec => ?_) ?_
  · cases r with
    | print line => exact hr line rfl
    | _ => cases hrec
  · rw [hsame]
    exact hnext _ _ hg.answer (h.grant hg)

theorem Serving.ask_report {α : Type} {event : Event} {next : Unit → Dialogue α}
    {post : α → Surroundings → Prop} (h : c.Serving store held w)
    (hnext : ∀ w', c.Serving store held w' →
      (next ()).Meets (printing Surroundings.answer) (RowFits files) w' post) :
    (Dialogue.ask (.report event) next).Meets (printing Surroundings.answer) (RowFits files) w
      post :=
  .ask (rowFits_of_line? fun _ hrec => nomatch hrec) (hnext _ (h.tell (r := .report event) trivial))

theorem meets_settle_row (h : c.Serving store held w) (hf : f ∈ files) (hr : f.isReady = true)
    {sample : Sample} (hsize : f.size? = some sample.bytes) (place : TrialPlace)
    (hplace : place.file = f.name) (op : Operation) :
    (settle place op (.ok sample)).dialogue.Meets (printing Surroundings.answer) (RowFits files) w
      fun r w' => r = .ok true ∧ c.Serving store held w' := by
  rw [settle_ok]
  refine .ask (fun r hrow => ?_) (.done ⟨rfl, h.tell (r := .print _) trivial⟩)
  cases hrow
  exact ⟨f, hf, hr, hplace, hsize⟩

theorem Serving.meets_directWrite (h : c.Serving store held w) (hf : f ∈ files)
    (hr : f.isReady = true) (hx : c.Source f x) (i : Nat) :
    (directWrite s store f i).dialogue.Meets (printing Surroundings.answer) (RowFits files) w
      fun r w' => r = .ok true ∧
        c.Serving store (Function.update held f.name [⟨f.name, x, x.size⟩]) w' := by
  refine .lift_bind (h.ask_granted (Surroundings.grants_delete h.stocks f.name) (fun _ => nofun)
    fun r w₁ hok h₁ => .done ?_)
  obtain ⟨count, rfl⟩ := hok
  refine h₁.ask_report fun w₂ h₂ => .lift_bind ?_
  have hput := Surroundings.grants_upload h₂.unhindered h₂.stocks (hx.bytes? h₂.turned.files) f.name
    s.timeout
  rw [Function.update_self, List.nil_append, Function.update_idem] at hput
  refine h₂.ask_granted hput (fun _ => nofun) fun r w₃ hok h₃ => .done ?_
  obtain ⟨t, rfl⟩ := hok
  exact meets_settle_row h₃ hf hr hx.size _ rfl _

theorem Serving.meets_directRead (h : c.Serving store held w) (hf : f ∈ files)
    (hr : f.isReady = true) (hx : c.Source f x) (hheld : held f.name = [⟨f.name, x, x.size⟩])
    (i : Nat) :
    (directRead s store f i).dialogue.Meets (printing Surroundings.answer) (RowFits files) w
      fun r w' => r = .ok true ∧ c.Serving store held w' := by
  have hget := Surroundings.grants_download h.unhindered h.stocks hheld s.timeout
  refine .lift_bind (h.ask_granted hget (fun _ => nofun) fun r w₁ hok h₁ => .done ?_)
  obtain ⟨t, rfl⟩ := hok
  exact meets_settle_row h₁ hf hr hx.size _ rfl _

/-- All trials of a file are completed, and of its object one version is left. -/
theorem Serving.meets_directFile (h : c.Serving store held w) (hloops : s.loopCount ≠ 0)
    (hf : f ∈ files) (hr : f.isReady = true) (hx : c.Source f x) :
    (directFile s store f).dialogue.Meets (printing Surroundings.answer) (RowFits files) w
      fun r w' => r = .ok true ∧
        c.Serving store (Function.update held f.name [⟨f.name, x, x.size⟩]) w' := by
  -- before a write trial the store may hold anything of the object
  have hwrite : ∀ i w, (∃ vs, c.Serving store (Function.update held f.name vs) w) →
      (directWrite s store f i).dialogue.Meets (printing Surroundings.answer) (RowFits files) w
        fun r w' => r = .ok true ∧
          c.Serving store (Function.update held f.name [⟨f.name, x, x.size⟩]) w' := by
    rintro i w ⟨vs, hw⟩
    have hmeets := hw.meets_directWrite (s := s) hf hr hx i
    rwa [Function.update_idem] at hmeets
  have hwrites := meets_trials_ok (fun _ hw => ⟨_, hw⟩) hwrite s.loopCount 0 true
    ⟨held f.name, by rwa [Function.update_eq_self]⟩ fun hzero => absurd hzero hloops
  refine .attempt_bind (hwrites.weaken fun r w₁ hpost => ?_)
  obtain ⟨rfl, h₁⟩ := hpost
  exact meets_trials_ok (fun _ => id)
    (fun i w hw => hw.meets_directRead hf hr hx (Function.update_self ..) i) s.loopCount 0 true h₁
    fun _ => h₁

end Scene

end StorageTrials

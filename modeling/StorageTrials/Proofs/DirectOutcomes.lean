import StorageTrials.Proofs.DirectTrials
import StorageTrials.Proofs.LocalRequests

namespace StorageTrials

open FileSystem Runner Surroundings

variable {c : Scene} {w w' : Surroundings} {store : StoreId} {f : SourceFile} {s : Settings}
variable {held held' : String → List StoredVersion} {good : ByteArray → Prop} {x : ByteArray}

theorem Surroundings.Receives.unhindered (h : w.Receives) (hu : w.Undisturbed) : w.Unhindered where
  cancels := hu.cancels
  intervention := hu.intervention
  stream k hk := by
    unfold Receives at h
    rw [hk] at h
    exact h.2
  going := hu.going

namespace Scene

/-- A run that nobody disturbs over a store that nothing is planned for. -/
structure Offers (c : Scene) (store : StoreId) (held : String → List StoredVersion)
    (w : Surroundings) : Prop extends c.Attended w where
  stocks : w.Stocks store held

theorem Offers.unhindered (h : c.Offers store held w) : w.Unhindered :=
  h.receives.unhindered h.undisturbed

theorem Offers.grant {r : Request} {answered : r.Answer → Prop} (h : c.Offers store held w)
    (hg : w.Grants store held' r answered) :
    c.Offers store held' ((answer r).run w).2 ∧ ((answer r).run w).2.files = w.files ∧
      w.Logs [] ((answer r).run w).2 := by
  obtain ⟨stores, hafter⟩ := hg.restocked
  rw [h.undisturbed.turned] at hafter
  have hproceeds : w.Proceeds w.files ((answer r).run w).2 := by
    rw [hafter]
    exact ⟨rfl, rfl, h.undisturbed.congr rfl rfl rfl⟩
  obtain ⟨hattended, hlog⟩ := h.idle hproceeds
  exact ⟨⟨hattended, hg.stocks⟩, hproceeds.files, hlog⟩

theorem Offers.idle (h : c.Offers store held w) {r : Request} (hr : Idle r) :
    c.Offers store held ((answer r).run w).2 ∧ ((answer r).run w).2.files = w.files ∧
      w.Logs [] ((answer r).run w).2 := by
  have hw := h.undisturbed.idle hr
  have hstores : ((answer r).run w).2.stores = w.stores := by
    cases r <;> first | exact stores_turned w | exact hr.elim
  obtain ⟨h₁, hlog⟩ := h.toAttended.idle hw
  exact ⟨⟨h₁, h.stocks.of_stores hstores⟩, hw.files, hlog⟩

theorem Offers.prints_report (h : c.Offers store held w) (event : Event) :
    (Ask.report event).Prints w [] fun _ w' => c.Offers store held w' ∧ w'.files = w.files := by
  obtain ⟨h₁, hfiles, hlog⟩ := h.idle (r := .report event) trivial
  exact .ask rfl hlog (.done ⟨h₁, hfiles⟩)

theorem Offers.print (h : c.Offers store held w) (line : Line) :
    c.Offers store held ((answer (.print line)).run w).2 := by
  obtain ⟨-, h₁, -⟩ := h.toAttended.print line
  exact ⟨h₁, (h.stocks.of_stores (stores_turned w)).of_stores (stores_print w.turned line)⟩

theorem Offers.prints_row (h : c.Offers store held w) (place : TrialPlace) (op : Operation)
    (r : Sample) :
    (settle place op (.ok r)).dialogue.Prints w [.record ⟨place.file, op, r.bytes, .zero⟩]
      fun b w' => b = .ok true ∧ c.Offers store held w' := by
  rw [settle_ok]
  obtain ⟨hok, -, hlog⟩ := h.toAttended.print (row place.file op r)
  refine .print hlog ?_
  rw [hok]
  exact .done ⟨rfl, h.print _⟩

theorem Offers.grants_put (h : c.Offers store (Function.update held f.name []) w)
    (hx : w.files.bytes? f.path = some x) (limit : Option Duration) :
    w.Grants store (Function.update held f.name [⟨f.name, x, x.size⟩])
      (.trial (.upload store f.name f.path) limit) fun r => ∃ t, r = .ok ⟨x.size, t⟩ := by
  have hturned : w.turned.files = w.files := by rw [h.undisturbed.turned]
  have hput := grants_upload h.unhindered h.stocks (hturned ▸ hx) f.name limit
  rwa [Function.update_self, List.nil_append, Function.update_idem] at hput

/-- Whatever there was of an object, a write trial leaves one version. -/
theorem Offers.prints_write (h : c.Offers store held w) (hx : w.files.bytes? f.path = some x)
    (i : Nat) :
    (directWrite s store f i).dialogue.Prints w [.record ⟨f.name, .write, x.size, .zero⟩]
      fun r w' => r = .ok true ∧
        c.Offers store (Function.update held f.name [⟨f.name, x, x.size⟩]) w' := by
  have hdelete := grants_delete h.stocks f.name
  obtain ⟨count, hcount⟩ := hdelete.answer
  obtain ⟨h₁, hfiles₁, hlog₁⟩ := h.grant hdelete
  refine .lift_quiet (.ask rfl hlog₁ (.done ?_))
  rw [hcount]
  refine .lift_quiet ((h₁.prints_report _).weaken fun _ w₂ hpost => ?_)
  obtain ⟨h₂, hfiles₂⟩ := hpost
  have hput := h₂.grants_put (hfiles₂.trans hfiles₁ ▸ hx) s.timeout
  obtain ⟨t, ht⟩ := hput.answer
  obtain ⟨h₃, -, hlog₃⟩ := h₂.grant hput
  refine .lift_quiet (.ask rfl hlog₃ (.done ?_))
  rw [ht]
  exact h₃.prints_row _ _ _

theorem Offers.prints_read (h : c.Offers store held w)
    (hx : held f.name = [⟨f.name, x, x.size⟩]) (i : Nat) :
    (directRead s store f i).dialogue.Prints w [.record ⟨f.name, .read, x.size, .zero⟩]
      fun r w' => r = .ok true ∧ c.Offers store held w' := by
  have hget := grants_download h.unhindered h.stocks hx s.timeout
  obtain ⟨t, ht⟩ := hget.answer
  obtain ⟨h₁, -, hlog⟩ := h.grant hget
  refine .lift_quiet (.ask rfl hlog (.done ?_))
  rw [ht]
  exact h₁.prints_row _ _ _

/-- The rows of a file whose source stays what it is, and the version of it that is left. -/
theorem Offers.prints_directFile (h : c.Offers store held w) (hloops : s.loopCount ≠ 0)
    (hx : ∀ fs, c.Holds fs → fs.bytes? f.path = some x) (hsize : f.size? = some x.size) :
    (directFile s store f).dialogue.Prints w (deliveryRows s.loopCount f (some x))
      fun r w' => r = .ok true ∧
        c.Offers store (Function.update held f.name [⟨f.name, x, x.size⟩]) w' := by
  -- before a write trial the store may hold anything of the object
  have hwrite : ∀ i w, (∃ vs, c.Offers store (Function.update held f.name vs) w) →
      (directWrite s store f i).dialogue.Prints w [.record ⟨f.name, .write, x.size, .zero⟩]
        fun r w' => r = .ok true ∧
          c.Offers store (Function.update held f.name [⟨f.name, x, x.size⟩]) w' := by
    rintro i w ⟨vs, hw⟩
    have hprints := hw.prints_write (s := s) (hx _ hw.files) i
    rwa [Function.update_idem] at hprints
  have hwrites := prints_trials _ _ (fun _ hw => ⟨_, hw⟩) hwrite s.loopCount 0 true
    ⟨held f.name, by rwa [Function.update_eq_self]⟩ fun hzero => absurd hzero hloops
  rw [List.flatten_replicate_singleton] at hwrites
  have hwhole : isWhole f (some x) = true := by simp [isWhole, hsize]
  rw [deliveryRows, if_pos hwhole]
  refine .attempt_bind (hwrites.weaken fun r w₁ hpost => ⟨_, hpost.1, ?_⟩)
  have hreads := prints_trials _ _ (fun _ => id)
    (fun i w hw => Offers.prints_read (s := s) hw (Function.update_self ..) i) s.loopCount 0
    (true && (List.replicate s.loopCount true).all id) hpost.2 fun _ => hpost.2
  rw [List.flatten_replicate_singleton] at hreads
  refine hreads.weaken fun r w₂ hpost => ⟨?_, hpost.2⟩
  rw [hpost.1]
  simp

theorem Offers.ask_served {α : Type} {r : Request} {answered : r.Answer → Prop}
    {next : r.Answer → Dialogue α} {post : α → Surroundings → Prop} (h : c.Offers store held w)
    (hg : w.Grants store held' r answered)
    (hserved : ∀ a u, answered a → Served ⟨w, r, a, u⟩)
    (hnext : ∀ a w', answered a → c.Offers store held' w' → w'.files = w.files →
      (next a).Meets answer Served w' post) :
    (Dialogue.ask r next).Meets answer Served w post := by
  obtain ⟨h₁, hfiles, -⟩ := h.grant hg
  exact .ask (hserved _ _ hg.answer) (hnext _ _ hg.answer h₁ hfiles)

theorem Offers.ask_report {α : Type} {event : Event} {next : Unit → Dialogue α}
    {post : α → Surroundings → Prop} (h : c.Offers store held w)
    (hnext : ∀ w', c.Offers store held w' → w'.files = w.files →
      (next ()).Meets answer Served w' post) :
    (Dialogue.ask (.report event) next).Meets answer Served w post := by
  obtain ⟨h₁, hfiles⟩ := (h.prints_report event).ends
  exact .ask (served_of_quiet trivial) (hnext _ h₁ hfiles)

theorem Offers.meets_settle (h : c.Offers store held w) (place : TrialPlace) (op : Operation)
    (r : Sample) :
    (settle place op (.ok r)).dialogue.Meets answer Served w fun b w' =>
      b = .ok true ∧ c.Offers store held w' := by
  rw [settle_ok]
  obtain ⟨hok, -, -⟩ := h.toAttended.print (row place.file op r)
  refine .ask ⟨hok, id⟩ ?_
  rw [hok]
  exact .done ⟨rfl, h.print _⟩

theorem served_trial {work : Work} {limit : Option Duration} {r : Sample} {u u' : Surroundings} :
    Served ⟨u, .trial work limit, .ok r, u'⟩ :=
  ⟨trivial, fun hc => nomatch hc⟩

theorem Offers.meets_write (h : c.Offers store held w) (hx : w.files.bytes? f.path = some x)
    (i : Nat) :
    (directWrite s store f i).dialogue.Meets answer Served w fun r w' => r = .ok true ∧
      c.Offers store (Function.update held f.name [⟨f.name, x, x.size⟩]) w' := by
  refine .lift_bind (h.ask_served (grants_delete h.stocks f.name)
    (fun _ _ _ => served_of_quiet trivial) fun r w₁ hr h₁ hfiles₁ => .done ?_)
  obtain ⟨count, rfl⟩ := hr
  refine h₁.ask_report fun w₂ h₂ hfiles₂ => .lift_bind ?_
  have hput := h₂.grants_put (hfiles₂.trans hfiles₁ ▸ hx) s.timeout
  refine h₂.ask_served hput (fun r u hr => ?_) fun r w₃ hr h₃ _ => .done ?_
  · obtain ⟨t, rfl⟩ := hr
    exact served_trial
  · obtain ⟨t, rfl⟩ := hr
    exact h₃.meets_settle _ _ _

theorem Offers.meets_read (h : c.Offers store held w) (hx : held f.name = [⟨f.name, x, x.size⟩])
    (i : Nat) :
    (directRead s store f i).dialogue.Meets answer Served w fun r w' =>
      r = .ok true ∧ c.Offers store held w' := by
  have hget := grants_download h.unhindered h.stocks hx s.timeout
  refine .lift_bind (h.ask_served hget (fun r u hr => ?_) fun r w₁ hr h₁ _ => .done ?_)
  · obtain ⟨t, rfl⟩ := hr
    exact served_trial
  · obtain ⟨t, rfl⟩ := hr
    exact h₁.meets_settle _ _ _

theorem Offers.meets_directFile (h : c.Offers store held w) (hloops : s.loopCount ≠ 0)
    (hx : ∀ fs, c.Holds fs → ∃ x, fs.bytes? f.path = some x) :
    (directFile s store f).dialogue.Meets answer Served w fun r w' =>
      r = .ok true ∧
        ∃ x, c.Offers store (Function.update held f.name [⟨f.name, x, x.size⟩]) w' := by
  have hwrite : ∀ i w, (∃ vs, c.Offers store (Function.update held f.name vs) w) →
      (directWrite s store f i).dialogue.Meets answer Served w fun r w' => r = .ok true ∧
        ∃ x, c.Offers store (Function.update held f.name [⟨f.name, x, x.size⟩]) w' := by
    rintro i w ⟨vs, hw⟩
    obtain ⟨x, hx⟩ := hx _ hw.files
    refine (hw.meets_write hx i).weaken fun r w' hpost => ⟨hpost.1, x, ?_⟩
    have hafter := hpost.2
    rwa [Function.update_idem] at hafter
  have hwrites := meets_trials_ok (fun _ ⟨x, hw⟩ => ⟨_, hw⟩) hwrite s.loopCount 0 true
    ⟨held f.name, by rwa [Function.update_eq_self]⟩ fun hzero => absurd hzero hloops
  refine .attempt_bind (hwrites.weaken fun r w₁ hpost => ?_)
  obtain ⟨rfl, x, h₁⟩ := hpost
  have hreads := meets_trials_ok (fun _ => id)
    (fun i w hw => Offers.meets_read (s := s) hw (Function.update_self ..) i) s.loopCount 0 true h₁
    fun _ => h₁
  exact hreads.weaken fun r w₂ hpost => ⟨hpost.1, x, hpost.2⟩

end Scene

end StorageTrials

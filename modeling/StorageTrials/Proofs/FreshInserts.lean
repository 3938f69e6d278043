import StorageTrials.Proofs.Loops
import StorageTrials.Proofs.StoreAnswers

namespace StorageTrials

open Runner

variable {s : Settings} {store : StoreId} {name path : String} {f : SourceFile}
variable {w w' : Surroundings} {m : Moment Surroundings} {ms : List (Moment Surroundings)}

namespace Request

def Uploads (store : StoreId) (name path : String) (r : Request) : Prop :=
  ∃ limit, r = .trial (.upload store name path) limit

inductive Writes (store : StoreId) (name : String) : Request → Prop
  | deletes : Writes store name (.deleteVersions store name)
  | uploads (path : String) (limit : Option Duration) :
    Writes store name (.trial (.upload store name path) limit)

theorem Uploads.writes {r : Request} (h : r.Uploads store name path) : r.Writes store name := by
  obtain ⟨limit, rfl⟩ := h
  exact .uploads path limit

theorem Tells.not_writes {r : Request} (h : r.Tells) : ¬ r.Writes store name := by
  rintro (_ | _)
  · exact h
  · exact h

end Request

variable (store name ms w) in
/-- Of an object there is one whole version, a copy of what its source was when it was put in, or
none. -/
def LeavesOne : Prop :=
  w.versionsOf store name = [] ∨
    ∃ m ∈ ms, ∃ path data, m.request.Uploads store name path ∧
      Surroundings.contents? m.after.files path = some data ∧
      w.versionsOf store name = [⟨name, data, data.size⟩]

theorem LeavesOne.cons (h : LeavesOne store name w ms) : LeavesOne store name w (m :: ms) := by
  rcases h with hnone | ⟨m', hm, hone⟩
  · exact .inl hnone
  · exact .inr ⟨m', List.mem_cons_of_mem _ hm, hone⟩

namespace Surroundings.Handles

variable {r : Request}

theorem kept (h : w.Handles w' store name r) (hr : ¬ r.Writes store name) :
    w'.versionsOf store name = w.versionsOf store name := by
  cases h with
  | leaves h => exact h
  | deletes he => exact absurd (he ▸ .deletes) hr
  | puts he => exact absurd (he ▸ .uploads _ _) hr

theorem cleared (h : w.Handles w' store name (.deleteVersions store name)) :
    w'.versionsOf store name = [] := by
  cases h with
  | leaves _ hr => exact absurd rfl hr
  | deletes _ h => exact h
  | puts he => cases he

end Surroundings.Handles

theorem leavesOne_of_writes {r : Request} (h : w.Guards store) (hr : r.Writes store name)
    (hfresh : ∀ path, r.Uploads store name path → w.versionsOf store name = []) :
    LeavesOne store name ((Surroundings.answer r).run w).2 [.of Surroundings.answer r w] := by
  cases Surroundings.handles_answer h name r with
  | deletes _ hnone => exact .inl hnone
  | puts he hdata hput =>
    rw [hfresh _ ⟨_, he⟩] at hput
    exact .inr ⟨_, List.mem_cons_self, _, _, ⟨_, he⟩, hdata, hput⟩
  | leaves hsame hne =>
    cases hr with
    | deletes => exact absurd rfl hne
    | uploads path limit => exact .inl (hsame.trans (hfresh path ⟨limit, rfl⟩))

/-- If no request puts in a second version of an object, the last one to write it says what is left
of it. -/
theorem Dialogue.versionsOf_final {α : Type} (d : Dialogue α) (h : w.Guards store)
    (hfresh : ∀ m ∈ d.moments Surroundings.answer w, ∀ path,
      m.request.Uploads store name path → m.before.versionsOf store name = []) :
    (∃ m ∈ d.moments Surroundings.answer w, m.request.Writes store name) ∧
        LeavesOne store name (d.final Surroundings.answer w) (d.moments Surroundings.answer w) ∨
      (∀ m ∈ d.moments Surroundings.answer w, ¬ m.request.Writes store name) ∧
        (d.final Surroundings.answer w).versionsOf store name = w.versionsOf store name := by
  induction d generalizing w with
  | done a => exact .inr ⟨fun m hm => absurd hm List.not_mem_nil, rfl⟩
  | ask r next ih =>
    rw [Dialogue.moments_ask, Dialogue.final_ask]
    rw [Dialogue.moments_ask] at hfresh
    obtain ⟨hfirst, hrest⟩ := List.forall_mem_cons.mp hfresh
    rcases ih _ (h.answer r) hrest with ⟨⟨m, hm, hwrites⟩, hone⟩ | ⟨hnot, hsame⟩
    · exact .inl ⟨⟨m, List.mem_cons_of_mem _ hm, hwrites⟩, hone.cons⟩
    · by_cases hr : r.Writes store name
      · left
        refine ⟨⟨_, List.mem_cons_self, hr⟩, ?_⟩
        rcases leavesOne_of_writes h hr hfirst with hnone | ⟨m, hm, hone⟩
        · exact .inl (hsame.trans hnone)
        · obtain rfl := List.mem_singleton.mp hm
          obtain ⟨path, data, hup, hdata, hput⟩ := hone
          exact .inr ⟨_, List.mem_cons_self, path, data, hup, hdata, hsame.trans hput⟩
      · right
        exact ⟨List.forall_mem_cons.mpr ⟨hr, hnot⟩,
          hsame.trans ((Surroundings.handles_answer h name r).kept hr)⟩

structure Inserts (store : StoreId) (listed : SourceFile → Prop) (m : Moment Surroundings) :
    Prop where
  fresh : ∀ name path, m.request.Uploads store name path → m.before.versionsOf store name = []
  source : ∀ name, m.request.Writes store name →
    ∃ f, listed f ∧ f.name = name ∧ ∀ path, m.request.Uploads store name path → path = f.path

variable {listed : SourceFile → Prop}

theorem inserts_of_not_writes (h : ∀ name, ¬ m.request.Writes store name) :
    Inserts store listed m where
  fresh name _ hup := absurd hup.writes (h name)
  source name hwrites := absurd hwrites (h name)

theorem preserves_of_tells {r : Request} (h : r.Tells) :
    r.Preserves Surroundings.answer (Inserts store listed) (·.Guards store) :=
  fun _ hw => ⟨inserts_of_not_writes fun _ => h.not_writes, hw.answer _⟩

theorem preserves_of_looks {r : Request} (h : Looks r) :
    r.Preserves Surroundings.answer (Inserts store listed) (·.Guards store) := by
  refine fun w hw => ⟨inserts_of_not_writes fun name hwrites => ?_, hw.answer _⟩
  cases hwrites with
  | deletes => exact h
  | uploads => exact h

theorem narrates_inserts :
    Narrates Surroundings.answer (Inserts store listed) (·.Guards store) where
  report _ := preserves_of_tells trivial
  header := preserves_of_tells trivial
  footer := preserves_of_tells trivial

theorem meets_settle_inserts (hw : w.Guards store) (place : TrialPlace) (op : Operation)
    (r : Except Fault Sample) :
    (settle place op r).dialogue.Meets Surroundings.answer (Inserts store listed) w
      fun _ w' => w'.Guards store :=
  (Dialogue.asks_mono (fun _ => preserves_of_tells) (asks_settle place op r)).meets hw

theorem inserts_delete (hf : listed f) (w : Surroundings) :
    Inserts store listed (.of Surroundings.answer (.deleteVersions store f.name) w) where
  fresh _ _ hup := by
    obtain ⟨limit, he⟩ := hup
    cases he
  source name hwrites := by
    cases hwrites
    refine ⟨f, hf, rfl, fun path hup => ?_⟩
    obtain ⟨limit, he⟩ := hup
    cases he

theorem inserts_upload (hf : listed f) (hfresh : w.versionsOf store f.name = [])
    (limit : Option Duration) :
    Inserts store listed
      (.of Surroundings.answer (.trial (.upload store f.name f.path) limit) w) where
  fresh _ _ hup := by
    obtain ⟨limit', he⟩ := hup
    cases he
    exact hfresh
  source name hwrites := by
    cases hwrites
    refine ⟨f, hf, rfl, fun path hup => ?_⟩
    obtain ⟨limit', he⟩ := hup
    cases he
    rfl

theorem meets_directWrite (hf : listed f) (hw : w.Guards store) (i : Nat) :
    (directWrite s store f i).dialogue.Meets Surroundings.answer (Inserts store listed) w
      fun _ w' => w'.Guards store := by
  have h₁ := hw.answer (.deleteVersions store f.name)
  have hcleared := (Surroundings.handles_answer hw f.name (.deleteVersions store f.name)).cleared
  refine .lift_bind (.ask (inserts_delete hf w) (.done ?_))
  cases ((Surroundings.answer (.deleteVersions store f.name)).run w).1 with
  | error e =>
    obtain ⟨hreport, h₂⟩ := preserves_of_tells
      (r := .report (.cleanupFailed ⟨.direct, f.name, i⟩ e)) trivial _ h₁
    exact .ask hreport (.done h₂)
  | ok count =>
    generalize ((Surroundings.answer (.deleteVersions store f.name)).run w).2 = w₁
      at h₁ hcleared ⊢
    have hr : (Request.report (.versionsRemoved ⟨.direct, f.name, i⟩ count)).Tells := trivial
    obtain ⟨hreport, h₂⟩ := preserves_of_tells hr w₁ h₁
    have hfresh := (Surroundings.handles_answer h₁ f.name _).kept hr.not_writes
    refine .ask hreport (.lift_bind (.ask (inserts_upload hf (hfresh.trans hcleared) s.timeout)
      (.done ?_)))
    exact meets_settle_inserts (h₂.answer _) _ _ _

theorem meets_directRead (hw : w.Guards store) (i : Nat) :
    (directRead s store f i).dialogue.Meets Surroundings.answer (Inserts store listed) w
      fun _ w' => w'.Guards store := by
  refine .lift_bind (.ask (inserts_of_not_writes fun name hwrites => ?_) (.done ?_))
  · cases hwrites
  · exact meets_settle_inserts (hw.answer _) _ _ _

theorem meets_directFile (hf : listed f) (hw : w.Guards store) :
    (directFile s store f).dialogue.Meets Surroundings.answer (Inserts store listed) w
      fun _ w' => w'.Guards store := by
  have hwrites := meets_trials (fun _ => id) (fun i w hw => meets_directWrite (s := s) hf hw i)
    s.loopCount 0 true hw fun _ => hw
  refine .attempt_bind (hwrites.weaken fun r w₁ h₁ => ?_)
  cases r with
  | error e => exact h₁
  | ok written =>
    exact meets_trials (fun _ => id) (fun i w hw => meets_directRead hw i) s.loopCount 0 written h₁
      fun _ => h₁

/-- A file is one of those that the run finds ready. -/
def FoundReady (s : Settings) (w : Surroundings) (f : SourceFile) : Prop :=
  f.isReady = true ∧ ∃ files,
    (resolveSources s.sourceDir s.files).dialogue.result Surroundings.answer w = .ok files ∧
      f ∈ files

theorem meets_run_inserts (hw : w.Guards store) :
    (direct s store).session.dialogue.Meets Surroundings.answer (Inserts store (FoundReady s w)) w
      fun _ w' => w'.Guards store :=
  narrates_inserts.meets_runAll (fun _ => preserves_of_looks)
    (fun files hfiles _ hf hr _ hw => meets_directFile ⟨hr, files, hfiles, hf⟩ hw) hw

variable (s store w) in
structure InsertsAfresh : Prop where
  fresh : ∀ m ∈ ((direct s store).run .empty).moments Surroundings.answer w, ∀ name path,
    m.request.Uploads store name path → m.before.versionsOf store name = []
  source : ∀ m ∈ ((direct s store).run .empty).moments Surroundings.answer w, ∀ name,
    m.request.Writes store name → ∃ f, FoundReady s w f ∧ f.name = name ∧
      ∀ path, m.request.Uploads store name path → path = f.path
  whole : ∀ name, (∃ m ∈ ((direct s store).run .empty).moments Surroundings.answer w,
      m.request.Writes store name) →
    LeavesOne store name (((direct s store).run .empty).final Surroundings.answer w)
      (((direct s store).run .empty).moments Surroundings.answer w)
  kept : ∀ name, (∀ m ∈ ((direct s store).run .empty).moments Surroundings.answer w,
      ¬ m.request.Writes store name) →
    (((direct s store).run .empty).final Surroundings.answer w).versionsOf store name =
      w.versionsOf store name

/-- Whatever interrupts a run, it measures fresh inserts only, and never leaves versions piled up
or cut off. -/
theorem direct_run_inserts_afresh (h : w.Guards store) : InsertsAfresh s store w := by
  have hmeets : (direct s store).session.dialogue.Meets Surroundings.answer
      (Inserts store (FoundReady s w)) w _ := meets_run_inserts h
  have hinserts : ∀ m ∈ ((direct s store).run .empty).moments Surroundings.answer w,
      Inserts store (FoundReady s w) m :=
    fun m hm => hmeets.moments m (Dialogue.mem_moments_of_tallied hm)
  have hfresh : ∀ m ∈ ((direct s store).run .empty).moments Surroundings.answer w, ∀ name path,
      m.request.Uploads store name path → m.before.versionsOf store name = [] :=
    fun m hm => (hinserts m hm).fresh
  refine ⟨hfresh, fun m hm => (hinserts m hm).source, fun name hwritten => ?_,
    fun name hnot => ?_⟩
  · rcases Dialogue.versionsOf_final _ h fun m hm => hfresh m hm name with ⟨-, hone⟩ | ⟨hnot, -⟩
    · exact hone
    · obtain ⟨m, hm, hwrites⟩ := hwritten
      exact absurd hwrites (hnot m hm)
  · rcases Dialogue.versionsOf_final _ h fun m hm => hfresh m hm name with
      ⟨⟨m, hm, hwrites⟩, -⟩ | ⟨-, hsame⟩
    · exact absurd hwrites (hnot m hm)
    · exact hsame

def sampleTimed : Settings := { sampleSettings with timeout := some ⟨1000000000, by decide⟩ }

def sampleHurried : Surroundings :=
  { Surroundings.calm sampleFiles with
    stores := #[.calm sampleLittered]
    schedule := fun k =>
      if k = 24 then { Turn.calm with intervention := some (.limit 1) }
      else if k = 28 then { Turn.calm with intervention := some (.cancel 1) }
      else .calm }

theorem direct_run_inserts_afresh_hurried :
    sampleHurried.Guards 0 ∧
      (((direct sampleTimed 0).run .empty).result Surroundings.answer sampleHurried).map (·.2) =
        some (.error .cancelled) ∧
      (((direct sampleTimed 0).run .empty).final Surroundings.answer sampleHurried).versionsOf 0
        "a" = [] ∧
      (((direct sampleTimed 0).run .empty).final Surroundings.answer sampleHurried).versionsOf 0
        "b" = [⟨"b", ⟨#[8]⟩, 1⟩] ∧
      InsertsAfresh sampleTimed 0 sampleHurried := by
  have hguards : sampleHurried.Guards 0 := by
    intro m plan hm p hp
    cases hm
    cases hp
  exact ⟨hguards, by decide +kernel, by decide +kernel, by decide +kernel,
    direct_run_inserts_afresh hguards⟩

end StorageTrials

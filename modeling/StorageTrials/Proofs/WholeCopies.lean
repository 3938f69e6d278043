import StorageTrials.Proofs.MountedRun

namespace StorageTrials

open FileSystem Runner

variable {s : Settings} {dir : String} {files : List SourceFile} {w : Surroundings} {f : SourceFile}

/-- The sources are apart from what a run writes: no way to one leads by a name under which copies
are put, and none is the file of the statistics stream. -/
structure SourcesApart (dir : String) (files : List SourceFile) (w : Surroundings) : Prop where
  ways : ∀ f ∈ files, f.isReady = true → Avoids w.files dir files .examine f.path
  stream : ∀ f ∈ files, f.isReady = true →
    ∀ id, w.files.find f.path = .ok id → w.output ≠ .file id

theorem MountedStart.source (h : MountedStart s dir files w) (hf : f ∈ files)
    (hr : f.isReady = true)
    (hapart : Avoids w.files dir files .examine f.path)
    (hstream : ∀ id, w.files.find f.path = .ok id → w.output ≠ .file id) :
    ∃ x, (mountedScene w dir files).Source f x := by
  obtain ⟨x, hx, hsize⟩ := h.bytes? hf hr
  obtain ⟨id, hid, hn⟩ := bytes?_eq_some_iff.mp hx
  refine ⟨x, hsize, ⟨id, hid, hn, hstream id hid⟩, fun σ hσ => ?_, hapart⟩
  exact List.mem_flatMap.mpr ⟨f, hf, List.mem_append_left _ (List.mem_append_left _ hσ)⟩

theorem SourcesApart.source (ha : SourcesApart dir files w) (h : MountedStart s dir files w)
    (hf : f ∈ files) (hr : f.isReady = true) : ∃ x, (mountedScene w dir files).Source f x :=
  h.source hf hr (ha.ways f hf hr) (ha.stream f hf hr)

theorem row_of_regular (ha : SourcesApart dir files w) (h : MountedStart s dir files w)
    {m : Moment Surroundings} (hm : (mountedScene w dir files).Regular dir files m) {r : Record}
    (hr : m.line? = some (.record r)) :
    (∃ f ∈ files, f.isReady = true ∧ f.name = r.file) ∧
      ∀ f ∈ files, f.isReady = true → f.name = r.file → f.size? = some r.size := by
  rcases hm.trial with hplain | ⟨f, hf, hready, hsound⟩
  · obtain ⟨u, q, a, u'⟩ := m
    cases q <;> cases hr
    exact hplain.elim
  · obtain ⟨hname, hsize⟩ := hsound.row r hr
    obtain ⟨x, hx⟩ := ha.source h hf hready
    refine ⟨⟨f, hf, hready, hname.symm⟩, fun f' hf' _ hname' => ?_⟩
    rw [h.eq_of_name hf' hf (hname'.trans hname), hx.size, hsize x hx]

def IsCopy (files : FileSystem) (f : SourceFile) (dest : String) : Prop :=
  ∃ x, f.size? = some x.size ∧ files.bytes? f.path = some x ∧ files.bytes? dest = some x

theorem read_of_regular (ha : SourcesApart dir files w) (h : MountedStart s dir files w)
    {m : Moment Surroundings} (hm : (mountedScene w dir files).Regular dir files m) {path : String}
    (hp : m.work? = some (.drain path)) :
    ∃ f ∈ files, f.isReady = true ∧ path = Path.join dir f.name ∧
      IsCopy m.before.files f path ∧ IsCopy m.after.files f path := by
  rcases hm.trial with hplain | ⟨f, hf, hready, hsound⟩
  · obtain ⟨u, q, a, u'⟩ := m
    cases q <;> cases hp
    exact hplain.elim
  · obtain ⟨rfl, hread⟩ := hsound.read path hp
    obtain ⟨x, hx⟩ := ha.source h hf hready
    obtain ⟨hbefore, hafter⟩ := hread x hx
    exact ⟨f, hf, hready, rfl, ⟨x, hx.size, hx.bytes? hm.before.files, hbefore.bytes?⟩,
      ⟨x, hx.size, hx.bytes? hm.after.files, hafter.bytes?⟩⟩

def ReadsNothing : Request → Prop
  | .trial (.drain _) _ => False
  | _ => True

theorem work?_of_readsNothing {σ : Type} {m : Moment σ} (h : ReadsNothing m.request)
    (path : String) : m.work? ≠ some (.drain path) := by
  obtain ⟨u, q, a, u'⟩ := m
  intro hp
  cases q <;> cases hp
  exact h

theorem readsNothing_of_quiet {r : Request} (h : Quiet r) : ReadsNothing r := by
  cases r <;> trivial

theorem asks_mountedWrite (s : Settings) (f : SourceFile) (dest : String) (i : Nat) :
    (mountedWrite s f dest i).dialogue.Asks ReadsNothing := by
  refine asks_mountedWrite_of (fun r hr => ?_) trivial trivial i
  cases r <;> trivial

def writes (s : Settings) (f : SourceFile) (dest : String) : Attempt Bool :=
  trials (mountedWrite s f dest) s.loopCount 0 true

section destination

variable {σ : Type} {answer : (r : Request) → StateM σ r.Answer} {dest : String} {size : Nat}

theorem result_isCopied_of_ne (hsize : f.size? = some size) {u : σ}
    (hne : (Ask.inspect dest).result answer u ≠ .ok (.file size)) :
    (isCopied f dest).result answer u = false := by
  change ((answer (.inspect dest)).run u).1 ≠ _ at hne
  rw [isCopied]
  change ((Dialogue.ask (.inspect dest) fun _ => _).bind _).result answer u = _
  rw [Dialogue.bind, Dialogue.result_ask]
  cases hi : ((answer (.inspect dest)).run u).1 with
  | error e => rfl
  | ok found =>
    cases found with
    | directory | other => rfl
    | file n =>
      have hn : ¬ some n = f.size? := by
        rintro hn
        cases hn.trans hsize
        exact hne hi
      change (if some n = f.size? then (pure true : Dialogue Bool) else _).result answer _ = false
      rw [if_neg hn]
      rfl

/-- If the destination has not the size of the source after the write trials, nothing is read, and
the file is not completed. -/
theorem mountedFile_of_incomplete (hdir : s.destinationDir = some dir) (hsize : f.size? = some size)
    {u : σ} {b : Bool}
    (hw : (writes s f (Path.join dir f.name)).dialogue.result answer u = .ok b)
    (hne : (Ask.inspect (Path.join dir f.name)).result answer
      ((writes s f (Path.join dir f.name)).dialogue.final answer u) ≠ .ok (.file size)) :
    (mountedFile s f).dialogue.result answer u = .ok false ∧
      ∀ m ∈ (mountedFile s f).dialogue.moments answer u, ∀ path, m.work? ≠ some (.drain path) := by
  let dest := Path.join dir f.name
  let reads (written : Bool) : Attempt Bool := do
    if ← isCopied f dest then trials (mountedRead s f dest) s.loopCount 0 written
    else return false
  have hfile : mountedFile s f = writes s f dest >>= reads := by
    rw [mountedFile, hdir]
    rfl
  have hcopied := result_isCopied_of_ne hsize hne
  rw [hfile, Attempt.result_bind_ok answer hw, Attempt.moments_bind_ok answer hw]
  simp only [reads, Attempt.dialogue_lift_bind, Dialogue.result_bind, Dialogue.moments_bind]
  change (isCopied f dest).result answer _ = false at hcopied
  rw [hcopied]
  refine ⟨rfl, fun m hm path => work?_of_readsNothing ?_ path⟩
  rcases List.mem_append.mp hm with hm | hm
  · exact Dialogue.kind_of_mem_moments answer
      (asks_trials (asks_mountedWrite s f dest) s.loopCount 0 true) u m hm
  · rcases List.mem_append.mp hm with hm | hm
    · exact readsNothing_of_quiet
        (Dialogue.kind_of_mem_moments answer (asks_isCopied f dest) _ m hm)
    · cases hm

end destination

structure MeasuresWholeCopies (s : Settings) (dir : String) (files : List SourceFile)
    (w : Surroundings) : Prop where
  rows : ∀ m ∈ ((mounted s).run .empty).moments Surroundings.answer w, ∀ r,
    m.line? = some (.record r) →
      (∃ f ∈ files, f.isReady = true ∧ f.name = r.file) ∧
        ∀ f ∈ files, f.isReady = true → f.name = r.file → f.size? = some r.size
  reads : ∀ m ∈ ((mounted s).run .empty).moments Surroundings.answer w, ∀ path,
    m.work? = some (.drain path) →
      ∃ f ∈ files, f.isReady = true ∧ path = Path.join dir f.name ∧
        IsCopy m.before.files f path ∧ IsCopy m.after.files f path
  incomplete : ∀ f ∈ files, ∀ size, f.size? = some size → ∀ (u : Surroundings) (b : Bool),
    (writes s f (Path.join dir f.name)).dialogue.result Surroundings.answer u = .ok b →
    (Ask.inspect (Path.join dir f.name)).result Surroundings.answer
      ((writes s f (Path.join dir f.name)).dialogue.final Surroundings.answer u) ≠
        .ok (.file size) →
    (mountedFile s f).dialogue.result Surroundings.answer u = .ok false ∧
      ∀ m ∈ (mountedFile s f).dialogue.moments Surroundings.answer u, ∀ path,
        m.work? ≠ some (.drain path)

/-- Wherever trials are stopped, nothing is measured but whole copies. -/
theorem mounted_run_measures_whole_copies (h : MountedStart s dir files w) (hg : w.Permits)
    (ha : SourcesApart dir files w) : MeasuresWholeCopies s dir files w where
  rows m hm _ hr :=
    row_of_regular ha h ((h.meets_run hg).moments m (Dialogue.mem_moments_of_tallied hm)) hr
  reads m hm _ hp :=
    read_of_regular ha h ((h.meets_run hg).moments m (Dialogue.mem_moments_of_tallied hm)) hp
  incomplete _ _ _ hsize _ _ hw hne := mountedFile_of_incomplete h.destination hsize hw hne

def sampleFailing : Surroundings :=
  { Surroundings.calm sampleFiles with
    schedule := fun k =>
      if k = 9 then { Turn.calm with intervention := some (.failure .noSpace 0) } else .calm }

theorem change_sampleFailing (k : Nat) : (sampleFailing.schedule k).change = id := by
  change (if k = 9 then _ else Turn.calm).change = id
  split <;> rfl

theorem permits_sampleFailing : sampleFailing.Permits := by
  intro k
  change (if k = 9 then _ else Turn.calm).denial = none
  split <;> rfl

def sampleFound : List SourceFile :=
  [⟨"a", "src/a", .ready 3⟩, ⟨"b", "src/b", .unavailable (.inaccessible .noEntry)⟩,
    ⟨"a", "src/a", .ready 3⟩]

theorem mountedStart_sampleFailing :
    MountedStart sampleSettings "dst" sampleFound sampleFailing where
  destination := rfl
  accepted := ⟨sampleFailing, by decide +kernel⟩
  resolved := by decide +kernel
  wellFormed := ⟨by decide, by decide, by decide, by decide⟩
  others k fs := by
    rw [change_sampleFailing]
    exact .refl _ fs
  stream id hid := nomatch hid

theorem mounted_run_measures_whole_copies_failing :
    MountedStart sampleSettings "dst" sampleFound sampleFailing ∧ sampleFailing.Permits ∧
      SourcesApart "dst" sampleFound sampleFailing ∧
      MeasuresWholeCopies sampleSettings "dst" sampleFound sampleFailing := by
  have hapart : SourcesApart "dst" sampleFound sampleFailing :=
    { ways := by decide +kernel
      stream := fun _ _ _ _ _ hid => nomatch hid }
  exact ⟨mountedStart_sampleFailing, permits_sampleFailing, hapart,
    mounted_run_measures_whole_copies mountedStart_sampleFailing permits_sampleFailing hapart⟩

def sampleOntoSource : Surroundings :=
  { Surroundings.calm (sampleFiles.set 3 (.file .empty)) with output := .file 3 }

/-- The header is measured as a part of the source. -/
theorem mounted_run_measures_statistics :
    MountedStart { sampleSettings with files := ["a"] } "dst" [⟨"a", "src/a", .ready 0⟩]
        sampleOntoSource ∧ sampleOntoSource.Permits ∧
      Avoids sampleOntoSource.files "dst" [⟨"a", "src/a", .ready 0⟩] .examine "src/a" ∧
      ((linesOf (((mounted { sampleSettings with files := ["a"] }).run .empty).moments
        Surroundings.answer sampleOntoSource))[1]?.bind Line.record?).map (·.size) = some 43 := by
  refine ⟨?_, fun _ => rfl, by decide +kernel, by decide +kernel⟩
  exact
    { destination := rfl
      accepted := ⟨sampleOntoSource, by decide +kernel⟩
      resolved := by decide +kernel
      wellFormed := ⟨by decide, by decide, by decide, by decide⟩
      others := fun _ fs => .refl _ fs
      stream := fun id hid => by cases hid; decide }

end StorageTrials

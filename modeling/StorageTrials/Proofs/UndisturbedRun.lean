import StorageTrials.Proofs.UndisturbedTrials

namespace StorageTrials

open FileSystem Runner

variable {c : Scene} {w w' : Surroundings} {f : SourceFile} {path dir : String} {σ τ : Slot}
variable {x : ByteArray} {out : NodeId} {s : Settings} {fs fs' : FileSystem}
variable {files : List SourceFile}

namespace Scene

def only (c : Scene) (fs : FileSystem) (σ : Slot) : Scene :=
  { c with first := fs, targets := (· = σ) }

theorem Admits.only (ha : c.Admits path σ) (h : c.Holds fs) : (c.only fs σ).Admits path σ where
  lookups τ hτ := ha.lookups τ ((h.locate ha.lookups).lookups hτ)
  place _ hτ := by
    cases hτ.symm.trans (ha.place?_eq h)
    exact ha.place σ ha.here
  target _ hτ _ := Option.some.inj (hτ.symm.trans (ha.place?_eq h))
  here := ha.place?_eq h
  vacant _ hid := ha.isDirectory h hid
  apart _ hτ he :=
    ha.apart σ (he ▸ (h.locate ha.lookups).lookups hτ) (ha.target σ ha.here ha.vacant)

theorem Source.only (hs : c.Source f x) (h : c.Holds fs) (ht : c.targets σ) :
    (c.only fs σ).Source f x where
  size := hs.size
  node :=
    let ⟨id, hid, hn, hstream⟩ := hs.node
    let ⟨hid', hn'⟩ := h.find_file hs.ways hs.apart hid hn hstream
    ⟨id, hid', hn', hstream⟩
  ways τ hτ := hs.ways τ ((h.locate hs.ways).lookups hτ)
  apart _ hτ he := hs.apart σ (he ▸ (h.locate hs.ways).lookups hτ) ht

theorem Recording.only (h : c.Recording out w) (σ : Slot) : (c.only w.files σ).Recording out w where
  files := holds_first h.files.wellFormed
  others := h.others
  stream id hid := ⟨(h.stream id hid).1, Nat.lt_of_lt_of_le (h.stream id hid).2 h.files.size⟩
  permits := h.permits
  undisturbed := h.undisturbed
  output := h.output
  isFile := h.isFile
  streams := h.streams

theorem HoldsCopy.only (hc : c.HoldsCopy path x w.files) (h : c.Recording out w)
    (ha : c.Admits path τ) (hne : τ ≠ σ) (h' : c.Holds fs') (ho : (c.only w.files σ).Holds fs') :
    c.HoldsCopy path x fs' := by
  obtain ⟨id, hid, hle, hn⟩ := hc
  obtain ⟨τ', hτ', he⟩ := standing?_eq_some_iff.mp hid
  cases hτ'.symm.trans (ha.place?_eq h.files)
  rcases ho.slots τ (ha.place τ ha.here) with hk | ⟨he', -⟩
  · refine ⟨id, standing?_eq_some_iff.mpr ⟨τ, ha.place?_eq h', hk.entry.trans he⟩, hle, ?_⟩
    rcases hk.node id he with hn' | ⟨hstream, -⟩
    · exact hn'.trans hn
    · rw [h.streams id hstream] at hle
      exact absurd h.out_lt (Nat.not_lt.mpr hle)
  · exact absurd he' hne

/-- Copies of the ready files may be put in a directory: there is a place for each, the sources are
apart from the places, and copies to the same place are of the same content. -/
structure Serves (c : Scene) (dir : String) (files : List SourceFile) : Prop where
  admits : ∀ f ∈ files, f.isReady = true → ∃ σ, c.Admits (Path.join dir f.name) σ
  source : ∀ f ∈ files, f.isReady = true → ∃ x, c.Source f x
  same : ∀ f ∈ files, ∀ g ∈ files, f.isReady = true → g.isReady = true →
    c.first.place? (Path.join dir f.name) = c.first.place? (Path.join dir g.name) →
      c.first.bytes? f.path = c.first.bytes? g.path

def Delivered (c : Scene) (dir : String) (files : List SourceFile) (fs : FileSystem) : Prop :=
  ∀ f ∈ files, f.isReady = true → ∀ x, c.Source f x → c.HoldsCopy (Path.join dir f.name) x fs

/-- A line that is to be printed is, and a row has the size of its file. -/
structure Logs (out : NodeId) (files : List SourceFile) (m : Moment Surroundings) : Prop where
  kept : m.Kept out
  row : ∀ r, m.line? = some (.record r) →
    ∃ f ∈ files, f.isReady = true ∧ r.file = f.name ∧ f.size? = some r.size

theorem Records.logs {m : Moment Surroundings} (h : Records out f m) (hf : f ∈ files)
    (hr : f.isReady = true) : Logs out files m :=
  ⟨h.kept, fun r hrow => ⟨f, hf, hr, h.row r hrow⟩⟩

theorem logs_of_still {m : Moment Surroundings} (h : m.Still) : Logs out files m := by
  refine ⟨h.kept out, fun r hrow => ?_⟩
  cases h.line?_eq_none.symm.trans hrow

theorem Delivered.step {done : List SourceFile} (hs : c.Serves dir files) (h : c.Recording out w)
    (hd : c.Delivered dir done w.files) (hdone : done ⊆ files) (hf : f ∈ files)
    (hr : f.isReady = true) (ha : c.Admits (Path.join dir f.name) σ) (hx : c.Source f x)
    (h' : c.Holds fs') (ho : (c.only w.files σ).Holds fs')
    (hc : c.HoldsCopy (Path.join dir f.name) x fs') : c.Delivered dir (done ++ [f]) fs' := by
  intro g hg hgr y hy
  rcases List.mem_append.mp hg with hg | hg
  · obtain ⟨τ, hτ⟩ := hs.admits g (hdone hg) hgr
    by_cases he : τ = σ
    · subst he
      have hbytes := hs.same f hf g (hdone hg) hr hgr (ha.here.trans hτ.here.symm)
      have hfirst := holds_first h'.first
      rw [hx.bytes? hfirst, hy.bytes? hfirst] at hbytes
      cases hbytes
      obtain ⟨id, hid, hle, hn⟩ := hc
      refine ⟨id, ?_, hle, hn⟩
      rw [FileSystem.standing?, hτ.place?_eq h', ← ha.place?_eq h']
      exact hid
    · exact (hd g hg hgr y hy).only h hτ he h' ho
  · cases List.mem_singleton.mp hg
    have hfirst := holds_first h'.first
    cases (hx.bytes? hfirst).symm.trans (hy.bytes? hfirst)
    exact hc

theorem Delivered.pass {done : List SourceFile} (hd : c.Delivered dir done fs)
    (hr : f.isReady = false) : c.Delivered dir (done ++ [f]) fs := by
  intro g hg hgr
  rcases List.mem_append.mp hg with hg | hg
  · exact hd g hg hgr
  · rw [List.mem_singleton.mp hg, hr] at hgr
    cases hgr

theorem Recording.logs {r : Request} (h : c.Recording out w) (hr : Surroundings.Idle r) :
    Logs out files (.of Surroundings.answer r w) :=
  logs_of_still ⟨hr, (h.undisturbed.idle hr).files⟩

theorem Delivered.print {done : List SourceFile} (hs : c.Serves dir files) (h : c.Recording out w)
    (hdone : done ⊆ files) (hd : c.Delivered dir done w.files) (hw : c.Drifts w.files w'.files) :
    c.Delivered dir done w'.files := by
  intro f hf hr x hx
  obtain ⟨σ, ha⟩ := hs.admits f (hdone hf) hr
  exact (hd f hf hr x hx).drift h.files ha.toCovers hw

/-- Some of the listed files have been delivered. -/
structure Delivering (c : Scene) (dir : String) (out : NodeId) (all done : List SourceFile)
    (w : Surroundings) : Prop extends c.Recording out w where
  listed : done ⊆ all
  delivered : c.Delivered dir done w.files

theorem succeeds_mounted (hs : c.Serves dir files) (hdir : s.destinationDir = some dir)
    (hloops : s.loopCount ≠ 0) :
    Succeeds Surroundings.answer (Logs out files) (mountedFile s) files
      (c.Delivering dir out files) where
  report done event w h := by
    have hw := h.undisturbed.idle (r := .report event) trivial
    exact ⟨h.logs (r := .report event) trivial, h.idle hw, h.listed, hw.files ▸ h.delivered⟩
  columns done texts w h := by
    obtain ⟨w₁, hrun, h₁, hdrift, hkept⟩ := h.print (.columns texts)
    refine ⟨⟨hkept, fun r hr => nomatch hr⟩, ?_, ?_⟩
    · rw [hrun]
    · rw [hrun]
      exact ⟨h₁, h.listed, .print hs h.toRecording h.listed h.delivered hdrift⟩
  skip done f hf hnot w h :=
    ⟨h.toRecording, List.append_subset.mpr ⟨h.listed, by simpa using hf⟩, h.delivered.pass hnot⟩
  file done f hf hr w h := by
    obtain ⟨σ, ha⟩ := hs.admits f hf hr
    obtain ⟨x, hx⟩ := hs.source f hf hr
    -- the same trials, seen as ones for which this is the only place
    have honly := meets_file hdir hloops (h.only σ) (ha.only h.files)
      (hx.only h.files (ha.target σ ha.here ha.vacant))
    refine ((meets_file hdir hloops h.toRecording ha hx).and honly).mono
      (fun m hm => hm.1.logs hf hr) fun r w₁ hpost => ?_
    obtain ⟨⟨rfl, h₁, hc₁⟩, ⟨-, ho₁, -⟩⟩ := hpost
    exact ⟨rfl, h₁, List.append_subset.mpr ⟨h.listed, by simpa using hf⟩,
      h.delivered.step hs h.toRecording h.listed hf hr ha hx h₁.files ho₁.files hc₁⟩

/-- A run completes, and leaves a whole copy of every ready file. -/
theorem meets_run_ok (hs : c.Serves dir (s.files.map (w.files.source s.sourceDir)))
    (hdir : s.destinationDir = some dir) (hloops : s.loopCount ≠ 0)
    (hsource : w.files.inspect s.sourceDir = .ok .directory) (h : c.Recording out w) :
    (mounted s).session.dialogue.Meets Surroundings.answer
      (Logs out (s.files.map (w.files.source s.sourceDir))) w fun r w' =>
        r = .ok true ∧ c.Recording out w' ∧
          c.Delivered dir (s.files.map (w.files.source s.sourceDir)) w'.files := by
  refine .attempt_bind ((h.undisturbed.meets_resolveSources hsource s.files).mono
    (fun m hm => logs_of_still hm) fun r w₁ hpost => ?_)
  obtain ⟨rfl, hw₁⟩ := hpost
  generalize s.files.map (w.files.source s.sourceDir) = files at hs ⊢
  have hsucceeds : Succeeds Surroundings.answer (Logs out files) (mountedFile s) files
      (c.Delivering dir out files) := succeeds_mounted hs hdir hloops
  have hstart : c.Delivering dir out files [] w₁ :=
    ⟨h.idle hw₁, List.nil_subset _, fun f hf => absurd hf List.not_mem_nil⟩
  obtain ⟨hkind, h₂⟩ := hsucceeds.report [] (.startingRun .mounted files.length
    (files.filter (·.isReady)).length s.loopCount) w₁ hstart
  exact .ask hkind ((hsucceeds.meets_printFiles h₂).weaken fun r w₃ hpost =>
    ⟨hpost.1, hpost.2.toRecording, hpost.2.delivered⟩)

end Scene

end StorageTrials

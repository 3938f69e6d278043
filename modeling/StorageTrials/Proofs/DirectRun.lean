import StorageTrials.Proofs.DirectTrials
import StorageTrials.Proofs.Listing
import StorageTrials.Proofs.Undisturbed

namespace StorageTrials

open FileSystem Runner

variable {c : Scene} {w : Surroundings} {store : StoreId} {s : Settings}
variable {first held : String → List StoredVersion} {files done : List SourceFile} {f : SourceFile}
variable {x : ByteArray}

namespace Scene

/-- What a store holds when some files have been run through. -/
structure Stocked (c : Scene) (first : String → List StoredVersion) (done : List SourceFile)
    (held : String → List StoredVersion) : Prop where
  own : ∀ f ∈ done, f.isReady = true → ∀ x, c.Source f x →
    held f.name = [⟨f.name, x, x.size⟩]
  others : ∀ name, (∀ f ∈ done, f.isReady = true → f.name ≠ name) → held name = first name

theorem Stocked.pass (h : c.Stocked first done held) (hnot : f.isReady = false) :
    c.Stocked first (done ++ [f]) held where
  own g hg hr := by
    rcases List.mem_append.mp hg with hg | hg
    · exact h.own g hg hr
    · rw [List.mem_singleton.mp hg, hnot] at hr
      cases hr
  others name hname := h.others name fun g hg => hname g (List.mem_append_left _ hg)

theorem Stocked.put (h : c.Stocked first done held) (hwell : c.first.WellFormed)
    (hr : f.isReady = true) (hx : c.Source f x) (hsame : ∀ g ∈ done, g.name = f.name → g = f) :
    c.Stocked first (done ++ [f]) (Function.update held f.name [⟨f.name, x, x.size⟩]) where
  own g hg hgr y hy := by
    by_cases hname : g.name = f.name
    · have hgf : g = f := by
        rcases List.mem_append.mp hg with hg | hg
        · exact hsame g hg hname
        · exact List.mem_singleton.mp hg
      subst hgf
      cases (hx.bytes? (holds_first hwell)).symm.trans (hy.bytes? (holds_first hwell))
      exact Function.update_self ..
    · rw [Function.update_of_ne hname]
      rcases List.mem_append.mp hg with hg | hg
      · exact h.own g hg hgr y hy
      · exact absurd (congrArg SourceFile.name (List.mem_singleton.mp hg)) hname
  others name hname := by
    have hne : name ≠ f.name :=
      (hname f (List.mem_append_right _ (List.mem_singleton_self f)) hr).symm
    rw [Function.update_of_ne hne]
    exact h.others name fun g hg => hname g (List.mem_append_left _ hg)

structure Stocking (c : Scene) (store : StoreId) (first : String → List StoredVersion)
    (all done : List SourceFile) (w : Surroundings) : Prop where
  listed : done ⊆ all
  serving : ∃ held, c.Serving store held w ∧ c.Stocked first done held

theorem Stocking.tell {r : Request} (h : c.Stocking store first files done w) (hr : r.Tells) :
    c.Stocking store first files done ((Surroundings.answer r).run w).2 := by
  obtain ⟨held, hw, hstocked⟩ := h.serving
  exact ⟨h.listed, held, hw.tell hr, hstocked⟩

theorem succeeds_direct (hloops : s.loopCount ≠ 0)
    (hsource : ∀ f ∈ files, f.isReady = true → ∃ x, c.Source f x)
    (hname : ∀ f ∈ files, ∀ g ∈ files, g.name = f.name → g = f) :
    Succeeds (printing Surroundings.answer) (RowFits files) (directFile s store) files
      (c.Stocking store first files) where
  report _ _ _ h :=
    ⟨rowFits_of_line? fun _ hrec => (nomatch hrec), h.tell (r := .report _) trivial⟩
  columns _ _ _ h :=
    ⟨rowFits_of_line? fun _ hrec => (nomatch hrec), rfl, h.tell (r := .print _) trivial⟩
  skip done f hf hnot w h := by
    obtain ⟨held, hw, hstocked⟩ := h.serving
    exact ⟨List.append_subset.mpr ⟨h.listed, by simpa using hf⟩, held, hw, hstocked.pass hnot⟩
  file done f hf hr w h := by
    obtain ⟨held, hw, hstocked⟩ := h.serving
    obtain ⟨x, hx⟩ := hsource f hf hr
    refine (hw.meets_directFile hloops hf hr hx).weaken fun r w₁ hpost => ?_
    obtain ⟨rfl, h₁⟩ := hpost
    exact ⟨rfl, List.append_subset.mpr ⟨h.listed, by simpa using hf⟩, _, h₁,
      hstocked.put hw.files.first hr hx fun g hg => hname f hf g (h.listed hg)⟩

end Scene

def sourceWays (fs : FileSystem) (files : List SourceFile) : List Slot :=
  files.flatMap fun f => fs.lookups .examine f.path

def sourceScene (w : Surroundings) (files : List SourceFile) : Scene :=
  .still w.files (· ∈ sourceWays w.files files) fun id => w.output = .file id

/-- How a run over an object store starts that nothing hinders: the source directory can be used
and is left alone, by others and by the stream. -/
structure DirectStart (s : Settings) (store : StoreId) (files : List SourceFile)
    (w : Surroundings) : Prop where
  loops : s.loopCount ≠ 0
  resolved : (resolveSources s.sourceDir s.files).dialogue.result Surroundings.answer w = .ok files
  wellFormed : w.files.WellFormed
  others : ∀ k fs, Spares (· ∈ sourceWays w.files files) fs ((w.schedule k).change fs)
  stream : ∀ id, w.output = .file id → id < w.files.nodes.size ∧
    ∀ f ∈ files, f.isReady = true → w.files.find f.path ≠ .ok id
  unhindered : w.Unhindered
  connected : ∃ m, w.shelf? store = some (m, [])

namespace DirectStart

theorem ongoing (h : DirectStart s store files w) : (sourceScene w files).Ongoing w where
  files := Scene.holds_first h.wellFormed
  others := h.others
  stream id hid := ⟨hid, (h.stream id hid).1⟩

theorem mem_sourceWays {σ : Slot} {fs : FileSystem} (hf : f ∈ files)
    (hσ : σ ∈ fs.lookups .examine f.path) : σ ∈ sourceWays fs files :=
  List.mem_flatMap.mpr ⟨f, hf, hσ⟩

theorem meets_resolve (h : DirectStart s store files w) :
    (resolveSources s.sourceDir s.files).dialogue.Meets Surroundings.answer
      (sourceScene w files).Passes w fun r w' => r = .ok files ∧
        files = s.files.map (w.files.source s.sourceDir) ∧ (sourceScene w files).Ongoing w' ∧
          w.Follows w' := by
  refine h.ongoing.meets_resolveSources rfl (fun name hname σ hσ => ?_) h.resolved
  rw [← names_resolveSources h.resolved] at hname
  obtain ⟨f, hf, rfl⟩ := List.mem_map.mp hname
  rw [← path_of_resolveSources h.resolved f hf] at hσ
  exact mem_sourceWays hf hσ

theorem files_eq (h : DirectStart s store files w) :
    files = s.files.map (w.files.source s.sourceDir) :=
  h.meets_resolve.ends.2.1

theorem bytes? (h : DirectStart s store files w) (hf : f ∈ files) (hr : f.isReady = true) :
    ∃ x, w.files.bytes? f.path = some x ∧ f.size? = some x.size :=
  bytes?_of_ready (h.files_eq ▸ hf) hr

theorem source (h : DirectStart s store files w) (hf : f ∈ files) (hr : f.isReady = true)
    (hx : w.files.bytes? f.path = some x) (hsize : f.size? = some x.size) :
    (sourceScene w files).Source f x := by
  obtain ⟨id, hid, hn⟩ := bytes?_eq_some_iff.mp hx
  exact ⟨hsize, ⟨id, hid, hn, fun hout => (h.stream id hout).2 f hf hr hid⟩,
    fun _ => mem_sourceWays hf, fun _ _ => not_false⟩

theorem eq_of_name (h : DirectStart s store files w) {g : SourceFile} (hf : f ∈ files)
    (hg : g ∈ files) (hname : g.name = f.name) : g = f := by
  rw [h.files_eq] at hf hg
  exact eq_of_mem_sources hg hf hname

theorem meets_start (h : DirectStart s store files w) :
    (resolveSources s.sourceDir s.files).dialogue.Meets (printing Surroundings.answer)
      (RowFits files) w fun r w' => r = .ok files ∧
        (sourceScene w files).Serving store (w.versionsOf store) w' := by
  obtain ⟨m, hm⟩ := h.connected
  have hstocks : w.Stocks store (w.versionsOf store) :=
    ⟨m, hm, (Surroundings.Stocks.versionsOf ⟨m, hm, rfl⟩).symm⟩
  have hasks := asks_resolveSources s.sourceDir s.files
  have hlooks : ∀ r, Looks r → r.Preserves Surroundings.answer (fun _ => True)
      fun w' => w'.Unhindered ∧ w'.Stocks store (w.versionsOf store) :=
    fun _ => Surroundings.preserves_of_looks_unhindered
  have hkeeps := (Dialogue.asks_mono hlooks hasks).meets ⟨h.unhindered, hstocks⟩
  have hquiet : ∀ m ∈ (resolveSources s.sourceDir s.files).dialogue.moments Surroundings.answer w,
      m.line? = none := fun m hm =>
    line?_of_quiet (quiet_of_looks (Dialogue.kind_of_mem_moments _ hasks w m hm))
  refine (Dialogue.meets_printing_iff fun m hm => Moment.printed_of_line? (hquiet m hm)).mpr ?_
  refine ⟨fun m hm r hrow => (nomatch (hquiet m hm).symm.trans hrow), ?_⟩
  obtain ⟨hok, -, hongoing, -⟩ := h.meets_resolve.ends
  exact ⟨hok, hongoing, hkeeps.ends.1, hkeeps.ends.2⟩

theorem meets_run (h : DirectStart s store files w) :
    (direct s store).session.dialogue.Meets (printing Surroundings.answer) (RowFits files) w
      fun r w' => r = .ok true ∧
        (sourceScene w files).Stocking store (w.versionsOf store) files files w' := by
  refine .attempt_bind (h.meets_start.weaken fun r w₁ hpost => ?_)
  obtain ⟨rfl, h₁⟩ := hpost
  have hsucceeds : Succeeds (printing Surroundings.answer) (RowFits files) (directFile s store)
      files ((sourceScene w files).Stocking store (w.versionsOf store) files) := by
    refine Scene.succeeds_direct h.loops (fun f hf hr => ?_) fun f hf g hg => h.eq_of_name hf hg
    obtain ⟨x, hx, hsize⟩ := h.bytes? hf hr
    exact ⟨x, h.source hf hr hx hsize⟩
  have hstart : (sourceScene w files).Stocking store (w.versionsOf store) files [] w₁ :=
    ⟨List.nil_subset _, _, h₁, fun f hf => absurd hf List.not_mem_nil, fun _ _ => rfl⟩
  obtain ⟨hkind, h₂⟩ := hsucceeds.report [] (.startingRun .direct files.length
    (files.filter (·.isReady)).length s.loopCount) w₁ hstart
  exact .ask hkind (hsucceeds.meets_printFiles h₂)

theorem accounts (h : DirectStart s store files w) :
    ∃ groups, AllRows s.loopCount files groups ∧ Accounts s.loopCount files
      ((direct s store).session.dialogue.moments (printing Surroundings.answer) w) (.ok true)
      groups := by
  have hlooks := Dialogue.kind_of_mem_moments Surroundings.answer
    (asks_resolveSources s.sourceDir s.files) w
  have hresolved := ((resolveSources s.sourceDir s.files).dialogue.passes_printing fun m hm =>
    Moment.printed_of_line? (line?_of_quiet (quiet_of_looks (hlooks m hm)))).result
  obtain ⟨groups, hgroups⟩ := runAll_accounted (accountsFile_direct s store)
    (hresolved.trans h.resolved) (moments_printing _ (direct s store).session.dialogue w)
  change Accounts _ _ _ ((direct s store).session.dialogue.result _ w) groups at hgroups
  rw [h.meets_run.ends.1] at hgroups
  refine ⟨groups, ?_, hgroups⟩
  have hrows := h.meets_run.moments
  rw [h.files_eq] at hgroups hrows ⊢
  exact allRows_of_completed hgroups hrows

/-- The bytes of the rows can be told from the sizes of the files. -/
theorem bytesFit_iff (h : DirectStart s store files w) :
    BytesFit (recordsIn
        ((direct s store).session.dialogue.moments (printing Surroundings.answer) w)) ↔
      SizesFit s.loopCount files := by
  obtain ⟨groups, hrows, hgroups⟩ := h.accounts
  rw [recordsIn_of_printed (moments_printing _ _ w), linesOf_of_completed hgroups,
    rowsOf_linesFor]
  exact hrows.bytesFit_iff fun f hf g hg hname => h.eq_of_name hg hf hname

end DirectStart

def sampleVast : Surroundings :=
  { Surroundings.calm sampleBulky with stores := #[.calm .empty] }

def sampleGreedy : Settings :=
  { sampleSettings with
    connection := ⟨some "host", some 27017, some "db", some "fs"⟩, files := ["a", "b"]
    loopCount := 4 }

theorem undisturbed_sampleVast : sampleVast.Undisturbed :=
  ⟨fun _ => rfl, fun _ => rfl, fun _ => rfl, fun _ => rfl, rfl⟩

theorem wellFormed_sampleVast : sampleVast.files.WellFormed :=
  ⟨by decide, by decide, by decide, by decide⟩

theorem directStart_sampleVast :
    DirectStart sampleGreedy 0 [⟨"a", "src/a", .ready (2 ^ 62)⟩,
      ⟨"b", "src/b", .unavailable (.inaccessible .noEntry)⟩] sampleVast where
  loops := by decide
  resolved := by
    have hready : sampleVast.files.source "src" "a" = ⟨"a", "src/a", .ready (2 ^ 62)⟩ :=
      source_bulky (by decide +kernel) rfl
    have hmissing : sampleVast.files.source "src" "b" =
        ⟨"b", "src/b", .unavailable (.inaccessible .noEntry)⟩ := by decide +kernel
    have hsource : sampleVast.files.inspect "src" = .ok .directory := by decide +kernel
    have hresolved := (undisturbed_sampleVast.meets_resolveSources hsource ["a", "b"]).ends.1
    rw [List.map_cons, List.map_singleton, hready, hmissing] at hresolved
    exact hresolved
  wellFormed := wellFormed_sampleVast
  others := fun _ fs => .refl _ fs
  stream := fun id hid => nomatch hid
  unhindered := ⟨fun _ => rfl, fun _ => rfl, fun k hk => (nomatch hk), by decide⟩
  connected := ⟨.empty, rfl⟩

theorem not_bytesFit_sampleVast :
    ¬ BytesFit (recordsIn ((direct sampleGreedy 0).session.dialogue.moments
      (printing Surroundings.answer) sampleVast)) := by
  rw [directStart_sampleVast.bytesFit_iff]
  exact fun hfit => absurd (hfit _ List.mem_cons_self _ rfl) (by decide)

end StorageTrials

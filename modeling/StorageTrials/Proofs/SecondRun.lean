import StorageTrials.Proofs.OneRunner

namespace StorageTrials

open FileSystem Runner Surroundings

open Dialogue

variable {s : Settings} {dir path name : String} {fs last : FileSystem} {u u' v : Surroundings}
variable {purpose : Purpose} {saved? : Option String} {σ : Slot} {f : SourceFile} {id : NodeId}
variable {outfile : Option String} {targets : Slot → Prop}

/-- No way to a path leads by the destination of a listed name. -/
def Settings.Misses (s : Settings) (dir : String) (fs : FileSystem) (purpose : Purpose)
    (path : String) : Prop :=
  ∀ f ∈ s.files, ∀ σ, fs.place? (Path.join dir f) = some σ → σ ∉ fs.lookups purpose path

instance (s : Settings) (dir : String) (fs : FileSystem) (purpose : Purpose) (path : String) :
    Decidable (s.Misses dir fs purpose path) :=
  inferInstanceAs (Decidable (∀ f ∈ s.files, ∀ σ, fs.place? (Path.join dir f) = some σ →
    σ ∉ fs.lookups purpose path))

theorem Settings.Misses.opened (h : s.Misses dir fs purpose path) (hwf : fs.WellFormed) :
    s.Misses dir (fs.opened s.outfile) purpose path := by
  intro f hf σ hσ hmem
  have hopened : (ownScene s dir s.outputs fs).Holds (fs.opened s.outfile) :=
    Scene.holds_opened hwf fun _ hp => hp
  have hplace : (fs.opened s.outfile).place? (Path.join dir f) = fs.place? (Path.join dir f) ∨
      (fs.opened s.outfile).place? (Path.join dir f) = none := hopened.place? fun _ _ => trivial
  obtain he | he := hplace
  · exact h f hf σ (he ▸ hσ) ((hopened.locate fun _ _ => trivial).lookups hmem)
  · cases he.symm.trans hσ

theorem Settings.Misses.avoids (h : s.Misses dir fs purpose path) :
    Avoids fs dir (s.sources fs) purpose path := by
  intro σ hσ hmem
  obtain ⟨f, hf, -, ht⟩ := mem_mountedTargets.mp hmem
  obtain ⟨name, hname, rfl⟩ := List.mem_map.mp hf
  exact h name hname σ (target?_eq_some_iff.mp ht).1 hσ

def Settings.prepared (s : Settings) (fs : FileSystem) : FileSystem :=
  (fs.opened s.outfile).opened s.summaryPath

/-- No way that matters leads by the destination of a listed name, and the statistics, the summary
and the listed sources are different files. -/
structure Settings.Separate (s : Settings) (dir : String) (fs : FileSystem) : Prop where
  sourceDir : s.Misses dir fs .examine s.sourceDir
  destinationDir : s.Misses dir fs .examine dir
  sources : ∀ f ∈ s.files, s.Misses dir fs .examine (Path.join s.sourceDir f)
  parents : ∀ f ∈ s.files, s.Misses dir fs .remove (Path.join dir f)
  outputs : ∀ path ∈ s.outputs, ∀ purpose, s.Misses dir fs purpose path
  apart : ∀ path path', s.outfile = some path → s.summaryPath = some path' → ∀ id,
    (s.prepared fs).find path = .ok id → (s.prepared fs).find path' ≠ .ok id
  unlisted : ∀ path ∈ s.outputs, ∀ f ∈ s.files, ∀ id,
    (s.prepared fs).find path = .ok id →
      (s.prepared fs).find (Path.join s.sourceDir f) ≠ .ok id

namespace Surroundings.Opened

theorem reliable (h : Opened fs outfile u) : u.Reliable := fun k hk => absurd hk (h.ne_kept k)

theorem wellFormed (h : Opened fs outfile u) (hwf : fs.WellFormed) : u.files.WellFormed := by
  obtain ⟨_, hext⟩ := extends_opened hwf outfile
  rw [h.files]
  exact hext.holds.wellFormed

theorem inspect_directory (h : Opened fs outfile u) (hwf : fs.WellFormed)
    (hin : fs.inspect path = .ok .directory) : u.files.inspect path = .ok .directory := by
  obtain ⟨_, hext⟩ := extends_opened hwf outfile
  rw [h.files]
  exact hext.inspect_directory hin

theorem opens (h : Opened fs outfile u) (hwf : fs.WellFormed) (hp : outfile = some path) :
    ∃ id, u.files.Opens path id ∧ u.output = .file id := by
  obtain ⟨fs', id, hok, hout⟩ := h.file path hp
  refine ⟨id, ?_, hout⟩
  rw [h.files, hp, opened_of_create hok]
  exact opens_create hwf hok

theorem opens_of_output (h : Opened fs outfile u) (hwf : fs.WellFormed)
    (ho : u.output = .file id) : ∃ path, outfile = some path ∧ u.files.Opens path id := by
  cases hp : outfile with
  | none => cases (h.standard hp).symm.trans ho
  | some path =>
    obtain ⟨id', hopens, hout⟩ := h.opens hwf hp
    cases hout.symm.trans ho
    exact ⟨path, rfl, hopens⟩

theorem texts (h : Opened fs s.outfile u) (hwf : fs.WellFormed) (ho : u.output = .file id) :
    s.texts u.files id := by
  obtain ⟨path, hp, hopens⟩ := h.opens_of_output hwf ho
  exact ⟨path, Settings.outfile_mem_outputs hp, hopens.find⟩

theorem holds_run (h : Opened fs s.outfile u) (hwf : fs.WellFormed)
    (hdir : s.destinationDir = some dir) (hloops : s.loopCount ≠ 0)
    (hsource : u.files.inspect s.sourceDir = .ok .directory)
    (ht : u.Receives → ∀ σ ∈ mountedTargets u.files dir (s.sources u.files), targets σ) :
    (s.copying targets u.files).Holds (s.afterMounted u).files := by
  have hfirst : (s.copying targets u.files).Holds u.files := Scene.holds_first (h.wellFormed hwf)
  cases h.reliable.receives_or_refuses with
  | inl hr =>
    have hongoing : (s.copying targets u.files).Ongoing u :=
      { files := hfirst
        others := fun k gs => by
          rw [h.undisturbed.change]
          exact .refl _ gs
        stream := fun id hid => by
          obtain ⟨path, -, hopens⟩ := h.opens_of_output hwf hid
          exact ⟨h.texts hwf hid, (h.wellFormed hwf).lt_size_of_find hopens.find⟩ }
    refine (hongoing.meets_mountedRun hdir hloops fun files hfiles f hf hready => ?_).ends.files
    cases (h.undisturbed.meets_resolveSources hsource s.files).ends.1.symm.trans hfiles
    refine ⟨⟨⟨fun _ _ => trivial, fun _ _ => trivial⟩, fun σ hσ hd => ?_⟩, fun hnot =>
      absurd h.undisturbed.denial hnot⟩
    exact ht hr σ (mem_mountedTargets_of_place? hf hready hσ hd)
  | inr hr =>
    have hrun : (mounted s).session.dialogue.Prints u _ _ := hr.prints_runAll h.undisturbed hsource
    have hfiles : (s.afterMounted u).files = u.files := hrun.ends.2.files
    rwa [hfiles]

end Surroundings.Opened

def Settings.copies (s : Settings) (dir : String) (u : Surroundings) (σ : Slot) : Prop :=
  u.Receives ∧ σ ∈ mountedTargets u.files dir (s.sources u.files)

/-- An invocation has made its run and has left a tree, perhaps with a summary in it. -/
structure Settings.HasRun (s : Settings) (dir : String) (saved? : Option String)
    (fs : FileSystem) (u : Surroundings) (last : FileSystem) : Prop where
  wellFormed : fs.WellFormed
  destination : s.destinationDir = some dir
  acceptable : s.Acceptable fs
  separate : s.Separate dir fs
  started : Opened fs s.outfile u
  summary : ∀ path, saved? = some path → s.summaryPath = some path
  saved : ∃ text, last = (s.afterMounted u).files.saved saved? text

def Settings.between (s : Settings) (dir : String) (saved? : Option String) (u : Surroundings)
    (last : FileSystem) : Pairing :=
  Settings.Carries.pairing s (s.copies dir u) saved? u.files (s.afterMounted u).files last

namespace Settings.HasRun

theorem avoids (h : s.HasRun dir saved? fs u last) (hm : s.Misses dir fs purpose path) :
    ∀ σ ∈ u.files.lookups purpose path, ¬ s.copies dir u σ := by
  intro σ hσ hc
  have havoids := (hm.opened h.wellFormed).avoids
  rw [← h.started.files] at havoids
  exact havoids σ hσ hc.2

theorem source (h : s.HasRun dir saved? fs u last) :
    u.files.inspect s.sourceDir = .ok .directory :=
  h.started.inspect_directory h.wellFormed h.acceptable.source

theorem carries (h : s.HasRun dir saved? fs u last) :
    s.Carries (s.copies dir u) saved? u.files (s.afterMounted u).files last where
  holds := h.started.holds_run h.wellFormed h.destination h.acceptable.loops h.source
    fun hr _ hσ => ⟨hr, hσ⟩
  clear path hp purpose := h.avoids (h.separate.outputs path hp purpose)
  opens path hp := by
    obtain ⟨id, hopens, -⟩ := h.started.opens h.wellFormed hp
    exact ⟨id, hopens⟩
  vacant σ hσ := Scene.vacant_of_mem_mountedTargets hσ.2
  summary := h.summary
  saved := h.saved

theorem acceptable_last (h : s.HasRun dir saved? fs u last) : s.Acceptable last where
  files := h.acceptable.files
  loops := h.acceptable.loops
  source := h.carries.inspect_whole h.carries.holds_last h.source (h.avoids h.separate.sourceDir)
  destination := by
    obtain ⟨dir', hdir, hin⟩ := h.acceptable.destination
    cases h.destination.symm.trans hdir
    refine ⟨dir, h.destination, h.carries.inspect_whole h.carries.holds_last ?_
      (h.avoids h.separate.destinationDir)⟩
    exact h.started.inspect_directory h.wellFormed hin

theorem find_prepared (h : s.HasRun dir saved? fs u last) (hf : u.files.find path = .ok id) :
    (s.prepared fs).find path = .ok id := by
  obtain ⟨_, hext⟩ := extends_opened (h.started.wellFormed h.wellFormed) s.summaryPath
  rw [h.started.files] at hext hf
  exact (hext.find hf).1

theorem not_texts (h : s.HasRun dir saved? fs u last) (hname : name ∈ s.files)
    (hf : u.files.find (Path.join s.sourceDir name) = .ok id) : ¬ s.texts u.files id := by
  rintro ⟨path, hp, hout⟩
  exact h.separate.unlisted path hp name hname id (h.find_prepared hout) (h.find_prepared hf)

/-- No source is found where a summary has been saved. -/
theorem source_ne_savedAt (h : s.HasRun dir saved? fs u last) (hname : name ∈ s.files)
    (hσ : (s.afterMounted u).files.SavedAt saved? σ) :
    u.files.locate .examine (Path.join s.sourceDir name) ≠ .ok (.entry σ.1 σ.2 false) := by
  intro hl
  obtain ⟨path, hp, hout, hfree, -⟩ := h.carries.outlet_of_savedAt hσ
  have hwf := h.started.wellFormed h.wellFormed
  have hprepared : s.prepared fs = u.files.opened (some path) := by
    rw [Settings.prepared, h.started.files, hp]
  have hfound := find_opened_of_free hwf hout hfree
    (locate_examine_of_create (outlet?_eq_some_iff.mp hout))
  rw [← hprepared] at hfound
  refine h.separate.unlisted path (summaryPath_mem_outputs hp) name hname _ hfound ?_
  rw [hprepared]
  exact find_opened_of_free hwf hout hfree hl

theorem guides (h : s.HasRun dir saved? fs u last) (hr : u.Receives)
    (hf : f ∈ s.sources u.files) (hready : f.isReady = true) :
    (s.copying (s.copies dir u) u.files).Guides (s.between dir saved? u last) dir f := by
  obtain ⟨x, hx, -⟩ := bytes?_of_ready hf hready
  obtain ⟨i, hi, hn⟩ := bytes?_eq_some_iff.mp hx
  have htarget : ∀ σ, u.files.place? (Path.join dir f.name) = some σ →
      (∀ id, u.files.lookup? σ.1 σ.2 = some id → u.files.isDirectory id = false) →
        s.copies dir u σ :=
    fun _ hσ hd => ⟨hr, mem_mountedTargets_of_place? hf hready hσ hd⟩
  obtain ⟨name, hname, rfl⟩ := List.mem_map.mp hf
  refine ⟨⟨⟨fun _ _ => trivial, fun _ _ => trivial⟩, htarget⟩, ⟨i, hi⟩, fun id hid => ⟨?_, ?_⟩,
    h.avoids (h.separate.sources name hname), h.avoids (h.separate.parents name hname)⟩
  · cases hi.symm.trans hid
    exact isFile_iff.mpr ⟨x, hn⟩
  · exact h.not_texts hname hid

section second

variable (h : s.HasRun dir saved? fs u last) (h' : Opened last s.outfile u')
include h h'

theorem alike : (s.between dir saved? u last).Alike u.files u'.files :=
  h'.files ▸ h.carries.alike

theorem holds_second :
    (Settings.Carries.whole s (s.copies dir u) saved? u.files (s.afterMounted u).files).Holds
      u'.files :=
  h'.files ▸ h.carries.holds_reopened

theorem source_second : u'.files.inspect s.sourceDir = .ok .directory :=
  h.carries.inspect_whole (h.holds_second h') h.source (h.avoids h.separate.sourceDir)

theorem output_second : u'.output = u.output := by
  cases ho : s.outfile with
  | none => rw [h'.standard ho, h.started.standard ho]
  | some path =>
    obtain ⟨id, hopens, hout⟩ := h.started.opens h.wellFormed ho
    obtain ⟨fs₁, hok⟩ := (h.carries.opens_last ho hopens).create
    obtain ⟨fs₂, id', hok', hout'⟩ := h'.file path ho
    cases hok.symm.trans hok'
    exact hout'.trans hout.symm

theorem receives_iff : u'.Receives ↔ u.Receives := by
  unfold Receives
  rw [h.output_second h']
  cases ho : u.output with
  | standard | kept k => exact Iff.rfl
  | file id =>
    obtain ⟨path, hp, hopens⟩ := h.started.opens_of_output h.wellFormed ho
    have hmem := outfile_mem_outputs hp
    obtain ⟨-, hn | ⟨-, hf, hf'⟩⟩ := h.carries.find_whole (h.holds_second h') hopens.find
      (h.avoids (h.separate.outputs path hmem .examine))
    · have hsame : u'.files.node? id = u.files.node? id := hn
      simp only [hsame]
    · obtain ⟨x, hx⟩ : ∃ x, u.files.node? id = some (.file x) := isFile_iff.mp hf
      obtain ⟨x', hx'⟩ := isFile_iff.mp hf'
      simp [hx, hx']

theorem counterpart (hname : name ∈ s.files) :
    Counterpart (u.files.source s.sourceDir name) (u'.files.source s.sourceDir name) :=
  counterpart_of_bytes? ((h.alike h').bytes? (h.avoids (h.separate.sources name hname))
    (fun _ _ hs => h.source_ne_savedAt hname hs) fun _ hf => h.not_texts hname hf)

theorem beside (hr : u.Receives) :
    (s.copying (s.copies dir u) u.files).Beside (s.between dir saved? u last) u u' where
  holds := Scene.holds_first (h.started.wellFormed h.wellFormed)
  smooth := ⟨h.started.wellFormed h.wellFormed, h.started.undisturbed,
    fun _ hid => h.started.texts h.wellFormed hid⟩
  receives := hr
  smooth' := ⟨h'.wellFormed h.carries.holds_last.wellFormed, h'.undisturbed,
    fun _ hid => h.started.texts h.wellFormed ((h.output_second h').symm.trans hid)⟩
  receives' := (h.receives_iff h').mpr hr
  alike := h.alike h'

/-- The second run prints the same lines as the first, and it comes to the same. -/
theorem abreast :
    (mounted s).session.dialogue.Abreast (fun _ => True) (mounted s).session.dialogue u u'
      fun r v r' v' => r' = r ∧ Pairing.Alike
        { s.between dir saved? u last with apart := fun _ => False } v.files v'.files := by
  set c := s.copying (s.copies dir u) u.files
  set p := s.between dir saved? u last
  cases h.started.reliable.receives_or_refuses with
  | inl hr =>
    have hlanes : Lanes (fun _ => True) (mountedFile s) (s.sources u.files)
        fun done => c.Beside (p.after c dir done) :=
      h.carries.leads.lanes h.destination h.acceptable.loops
        (fun f hf hready => h.guides hr hf hready) fun _ _ _ _ => trivial
    have hstart : ∀ v v', u.Looked v → u'.Looked v' → c.Beside (p.after c dir []) v v' :=
      fun v v' hv hv' => (((h.beside h' hr).left hv.proceeds).right hv'.proceeds).mono
        (fun σ hσ => ⟨hσ, List.forall_mem_nil _⟩) rfl rfl rfl rfl
    have hff : List.Forall₂ Counterpart (s.sources u.files) (s.sources u'.files) := by
      refine List.forall₂_map_left_iff.mpr (List.forall₂_map_right_iff.mpr ?_)
      exact List.forall₂_same.mpr fun name hname => h.counterpart h' hname
    refine (hlanes.abreast_runAll (fun _ => trivial) h.started.undisturbed h'.undisturbed
      h.source (h.source_second h') hstart hff).weaken fun r v r' v' hpost => ?_
    obtain ⟨⟨b, rfl, rfl⟩, hbeside⟩ := hpost
    refine ⟨rfl, hbeside.alike.mono (fun σ hσ => ?_) (fun _ => id) (fun _ => id) (Nat.le_refl _)
      (Nat.le_refl _)⟩
    -- every name that is touched is the destination of a file that both have run through
    obtain ⟨f, hf, hready, ht⟩ := mem_mountedTargets.mp hσ.1.2
    exact hσ.2 f hf hready (h.guides hr hf hready).dest ht
  | inr hr =>
    have hnot : ¬ u.Receives := hr.not_receives
    have hr' : u'.Refuses := (h'.reliable.receives_or_refuses).resolve_left
      fun hreceives => hnot ((h.receives_iff h').mp hreceives)
    have hleft : (mounted s).session.dialogue.Prints u _ _ :=
      hr.prints_runAll h.started.undisturbed h.source
    have hright : (mounted s).session.dialogue.Prints u' _ _ :=
      hr'.prints_runAll h'.undisturbed (h.source_second h')
    refine (Abreast.of_prints hleft hright fun _ _ => trivial).weaken fun r v r' v' hpost => ?_
    obtain ⟨⟨rfl, hv⟩, rfl, hv'⟩ := hpost
    rw [hv.files, hv'.files]
    exact ⟨rfl, (h.alike h').mono (fun σ hσ => hnot hσ.1) (fun _ => id) (fun _ => id)
      (Nat.le_refl _) (Nat.le_refl _)⟩

theorem carries_second {last' : FileSystem}
    (hsaved : ∃ text, last' = (s.afterMounted u').files.saved saved? text) :
    s.Carries (s.copies dir u) saved? (last.opened s.outfile) (s.afterMounted u').files last' := by
  refine h.carries.again (h'.files ▸ h'.holds_run h.carries.holds_last.wellFormed h.destination
    h.acceptable.loops (h.source_second h') fun hr σ hσ => ⟨(h.receives_iff h').mp hr, ?_⟩) hsaved
  obtain ⟨f, hf, hready, ht⟩ := mem_mountedTargets.mp hσ
  obtain ⟨name, hname, rfl⟩ := List.mem_map.mp hf
  have hready' := (h.counterpart h' hname).isReady.symm.trans hready
  have hsame : u'.files.target? (Path.join dir name) = u.files.target? (Path.join dir name) :=
    (h.alike h').target? (h.avoids (h.separate.parents name hname))
  exact mem_mountedTargets.mpr ⟨_, List.mem_map_of_mem hname, hready', hsame.symm.trans ht⟩

/-- The second invocation leaves what the first has left. -/
theorem restores {last' : FileSystem}
    (hsaved : ∃ text, last' = (s.afterMounted u').files.saved saved? text) :
    s.Restores last last' :=
  h.carries.restores (h.carries_second h' hsaved) (h.abreast h').ends.2

end second

end Settings.HasRun

def Settings.Written (s : Settings) (ls : List Line) (fs : FileSystem) : Prop :=
  ∀ path, s.outfile = some path → ∃ id, fs.find path = .ok id ∧
    ∀ x, fs.content? id = some x → x = (textOf ls).toUTF8

theorem Settings.Carries.written {ls : List Line}
    (h : s.Carries targets saved? u.files v.files last) (hu : Opened fs s.outfile u)
    (hwf : fs.WellFormed) (hlogs : u.Logs ls v)
    (hapart : ∀ path path' i, s.outfile = some path → s.summaryPath = some path' →
      u.files.find path = .ok i → u.files.find path' ≠ .ok i) : s.Written ls last := by
  intro path hp
  have hmem := Settings.outfile_mem_outputs hp
  obtain ⟨id, hopens, hout⟩ := hu.opens hwf hp
  have hrun : v.files.find path = .ok id := (h.find_run hmem).trans hopens.find
  refine ⟨id, h.find_last hrun, fun x hx => ?_⟩
  have hlast : last.node? id = v.files.node? id := h.node_last hrun fun path' hs hf =>
    hapart path path' id hp (h.summary path' hs) hopens.find
      ((h.find_run (h.summary_mem hs)).symm.trans hf)
  have hx' : v.files.content? id = some x := by
    rw [content?_eq_some_iff] at hx ⊢
    exact hlast.symm.trans hx
  obtain ⟨-, hk⟩ := h.holds.find (fun _ _ => trivial) (h.clear path hmem .examine) hopens.find
  have hfile : u.files.isFile id = true := by
    cases hk with
    | inl hn => exact isFile_iff.mpr ⟨x, hn.symm.trans (content?_eq_some_iff.mp hx')⟩
    | inr hg => exact hg.2.1
  have hempty : u.files.content? id = some .empty := by
    obtain ⟨fs', id', hok, hout'⟩ := hu.file path hp
    cases hout.symm.trans hout'
    rw [hu.files, hp, opened_of_create hok] at hfile ⊢
    exact content?_create hok hfile
  obtain ⟨-, htext⟩ := hlogs id _ hout hempty
  cases hx'.symm.trans htext
  exact ByteArray.empty_append

namespace Settings.HasRun

theorem apart (h : s.HasRun dir saved? fs u last) {path' : String} (hp : s.outfile = some path)
    (hs : s.summaryPath = some path') (hf : u.files.find path = .ok id) :
    u.files.find path' ≠ .ok id := fun hf' =>
  h.separate.apart path path' hp hs id (h.find_prepared hf) (h.find_prepared hf')

theorem written (h : s.HasRun dir saved? fs u last) (h' : Opened last s.outfile u') :
    s.Written (linesOf ((mounted s).session.dialogue.moments answer u)) last :=
  h.carries.written h.started h.wellFormed (h.abreast h').logs fun _ _ _ hp hs => h.apart hp hs

theorem written_second (h : s.HasRun dir saved? fs u last) (h' : Opened last s.outfile u')
    {last' : FileSystem} (hsaved : ∃ text, last' = (s.afterMounted u').files.saved saved? text) :
    s.Written (linesOf ((mounted s).session.dialogue.moments answer u')) last' := by
  have hcarries := h.carries_second h' hsaved
  rw [← h'.files] at hcarries
  refine hcarries.written h' h.carries.holds_last.wellFormed (h.abreast h').logs'
    fun path path' i hp hs hf hf' => ?_
  obtain ⟨j, hopens, -⟩ := h.started.opens h.wellFormed hp
  have hmem := Settings.outfile_mem_outputs hp
  have hj := (h.carries.find_whole (h.holds_second h') hopens.find
    (h.avoids (h.separate.outputs path hmem .examine))).1
  cases hf.symm.trans hj
  exact h.apart hp hs hopens.find ((h.holds_second h').find_old (fun _ _ => trivial) hf'
    ((h.started.wellFormed h.wellFormed).lt_size_of_find hopens.find))

end Settings.HasRun

theorem Surroundings.Opened.records (h : Opened fs outfile u)
    (hsource : u.files.inspect s.sourceDir = .ok .directory) :
    s.mountedRecords u = rowsOf (linesOf ((mounted s).session.dialogue.moments answer u)) := by
  cases h.reliable.receives_or_refuses with
  | inl hr =>
    have hserved := hr.meets h.undisturbed (asks_mounted_local s)
    exact recordsIn_of_printed fun m hm => (hserved.moments m hm).printed
  | inr hr =>
    have hrun : (mounted s).session.dialogue.Prints u _ _ := hr.prints_runAll h.undisturbed hsource
    have hnone : rowsOf (linesOf ((mounted s).session.dialogue.moments answer u)) = [] := by
      rw [← List.map_eq_nil_iff (f := Record.untimed), ← rowsOf_untimed, ← printed, hrun.lines]
      rfl
    rw [hnone]
    exact List.sublist_nil.mp (hnone ▸ recordsIn_sublist _)

namespace Settings.HasRun

variable (h : s.HasRun dir saved? fs u last) (h' : Opened last s.outfile u')
include h h'

theorem bytesFit_iff : BytesFit (s.mountedRecords u') ↔ BytesFit (s.mountedRecords u) := by
  have hsame : (s.mountedRecords u').map Record.untimed =
      (s.mountedRecords u).map Record.untimed := by
    rw [h'.records (h.source_second h'), h.started.records h.source, ← rowsOf_untimed,
      ← rowsOf_untimed, ← printed, ← printed, (h.abreast h').lines]
  rw [← bytesFit_untimed, hsame, bytesFit_untimed]

theorem fits_iff (ht : TimesFit (s.mountedRecords u') ↔ TimesFit (s.mountedRecords u)) :
    Fits (s.mountedRecords u') ↔ Fits (s.mountedRecords u) := by
  constructor
  · exact fun hf => ⟨(h.bytesFit_iff h').mp hf.bytes, ht.mp hf.times⟩
  · exact fun hf => ⟨(h.bytesFit_iff h').mpr hf.bytes, ht.mpr hf.times⟩

end Settings.HasRun

end StorageTrials

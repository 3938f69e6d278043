import StorageTrials.Proofs.DirectRun
import StorageTrials.Proofs.DirectSideBySide
import StorageTrials.Proofs.Insertion
import StorageTrials.Proofs.SideBySide

namespace StorageTrials

open FileSystem Runner Surroundings

open Dialogue

variable {w w' u : Surroundings} {s : Settings} {backend : Backend} {dir g : String}
variable {runFile : SourceFile → Attempt Bool} {xs ys : List String} {f : SourceFile}
variable {files : List SourceFile} {c : Scene} {p : Pairing} {fs : FileSystem} {σ : Slot}
variable {R₁ R₂ : List SourceFile → Surroundings → Surroundings → Prop} {loops : Nat}

def Settings.listing (s : Settings) (names : List String) : Settings := { s with files := names }

namespace Runner

theorem inserts_runAll (hu : w.Undisturbed)
    (hsource : w.files.inspect s.sourceDir = .ok .directory)
    (hstart : ∀ u u', w.Looked u → w.Looked u' → R₁ [] u u')
    (hxs : Lanes (fun l => l.isRowOf g = false) runFile (xs.map (w.files.source s.sourceDir)) R₁)
    (hys : Lanes (fun l => l.isRowOf g = false) runFile (ys.map (w.files.source s.sourceDir)) R₂)
    (hg : Extra runFile loops (w.files.source s.sourceDir g)
      (R₁ (xs.map (w.files.source s.sourceDir))) (R₂ [])) :
    (runAll backend (s.listing (xs ++ g :: ys)) runFile).dialogue.Inserts g
      (runAll backend (s.listing (xs ++ ys)) runFile).dialogue w w fun n r u r' u' =>
        (∃ b, r' = .ok b ∧
          r = .ok (b && decide (n = (w.files.source s.sourceDir g).owes loops))) ∧
        R₂ (ys.map (w.files.source s.sourceDir)) u u' := by
  refine .attempt_bind ((Inserts.of_abreast (.of_prints
    (hu.prints_resolveSources hsource (xs ++ g :: ys))
    (hu.prints_resolveSources hsource (xs ++ ys)) (List.forall_mem_nil _))).weaken
    fun n r u r' u' hpost => ?_)
  obtain ⟨rfl, ⟨rfl, h₁⟩, rfl, h₁'⟩ := hpost
  refine ⟨_, _, rfl, rfl, ?_⟩
  rw [Attempt.dialogue_lift_bind, Attempt.dialogue_lift_bind]
  refine .bind ((Inserts.of_abreast (hxs.abreast_report (hstart u u' h₁ h₁') _ _)).weaken
    fun n _ v _ v' hpost => ?_)
  obtain ⟨rfl, hv⟩ := hpost
  rw [List.map_append, List.map_cons, List.map_append]
  refine (hxs.inserts_printFiles hys hg hv).weaken fun n r t r' t' hpost => ?_
  rwa [Nat.zero_add, Nat.zero_add]

end Runner

namespace Scene

def ofRun (w : Surroundings) (dir : String) (files : List SourceFile) : Scene :=
  ⟨w.files, fun _ => True, (· ∈ mountedTargets w.files dir files), fun id => w.output = .file id⟩

theorem Holds.target?_first (h : c.Holds fs) (hw : ∀ σ, c.ways σ)
    (ht : ∀ σ, c.targets σ → ∀ id, c.first.lookup? σ.1 σ.2 = some id →
      c.first.isDirectory id = false) {path : String} (hσ : fs.target? path = some σ) :
    c.first.target? path = some σ := by
  obtain ⟨hplace, hvacant⟩ := target?_eq_some_iff.mp hσ
  apply target?_eq_some_iff.mpr
  constructor
  · have hways : ∀ σ ∈ c.first.lookups .remove path, c.ways σ := fun σ _ => hw σ
    obtain he | he := h.place? hways
    · exact he ▸ hplace
    · cases he.symm.trans hplace
  · intro id hid
    cases h.slots σ (hw σ) with
    | inl hk =>
      rw [← (hk.node id hid).isDirectory]
      exact hvacant id (hk.entry.trans hid)
    | inr hr => exact ht σ hr.1 id hid

theorem ofRun_allows (hf : f ∈ files) (hr : f.isReady = true) :
    (ofRun w dir files).Allows (Path.join dir f.name) where
  lookups _ _ := trivial
  place _ _ := trivial
  target _ hσ hd := mem_mountedTargets_of_place? hf hr hσ hd

end Scene

def Surroundings.pairing (w : Surroundings) (apart : Slot → Prop) : Pairing :=
  ⟨apart, fun _ => False, fun id => w.output = .file id, w.files.nodes.size, w.files.nodes.size⟩

variable {apart : Slot → Prop}

namespace Scene

theorem ofRun_leads (hout : ∀ id, w.output = .file id → id < w.files.nodes.size) :
    (ofRun w dir files).Leads (w.pairing apart) where
  ways _ := trivial
  stream := rfl
  old i hi := ⟨hout i hi, hout i hi⟩
  held := hout
  soft _ hσ := hσ.elim

theorem ofRun_guides {names : List String} (hfiles : f ∈ names.map (w.files.source s.sourceDir))
    (hf : f ∈ files) (hr : f.isReady = true)
    (hstream : ∀ id, w.output = .file id → w.files.find f.path ≠ .ok id)
    (hapart : ∀ σ, apart σ → ∀ purpose, σ ∉ w.files.lookups purpose f.path ∧
      σ ∉ w.files.lookups purpose (Path.join dir f.name)) :
    (ofRun w dir files).Guides (w.pairing apart) dir f := by
  obtain ⟨x, hx, -⟩ := bytes?_of_ready hfiles hr
  obtain ⟨i, hi, hn⟩ := bytes?_eq_some_iff.mp hx
  refine ⟨ofRun_allows hf hr, ⟨i, hi⟩, fun id hid => ⟨?_, fun ho => hstream id ho hid⟩,
    fun σ hσ ha => (hapart σ ha _).1 hσ, fun σ hσ ha => (hapart σ ha _).2 hσ⟩
  cases hi.symm.trans hid
  exact isFile_iff.mpr ⟨x, hn⟩

theorem ofRun_beside (hwf : w.files.WellFormed) (hu : w.Undisturbed) (hr : w.Receives)
    (h : w.Looked u) (h' : w.Looked w') :
    (ofRun w dir files).Beside (w.pairing apart) u w' := by
  have hsmooth : w.Smooth (w.pairing apart).stream := ⟨hwf, hu, fun _ => id⟩
  have hstart : (ofRun w dir files).Beside (w.pairing apart) w w :=
    ⟨holds_first hwf, hsmooth, hr, hsmooth, hr, .refl hwf (Nat.le_refl _) (Nat.le_refl _)⟩
  exact (hstart.left h.proceeds).right h'.proceeds

theorem together_pairing {fs fs' : FileSystem} {σ? : Option Slot}
    (hout : ∀ id, w.output = .file id → id < w.files.nodes.size) :
    Pairing.Alike.Together (w.pairing fun _ => False) (w.pairing apart)
      (.around fs σ? fun id => w.output = .file id) (.around fs' none fun _ => False) where
  ways _ := ⟨trivial, trivial⟩
  targets _ hσ := nomatch hσ
  text i hi := by
    obtain hi | hi | hi := hi
    · exact hi
    · exact hi.elim
    · exact hi
  old i hi := .inl (hout i hi)
  old' _ hi := hi.elim
  apart _ ha := ha.elim
  soft _ hs := hs.elim
  newFrom := Nat.le_refl _
  newFrom' := Nat.le_refl _

theorem Beside.sole (h : (ofRun w dir files).Beside (w.pairing fun _ => False) u w')
    (hout : ∀ id, w.output = .file id → id < w.files.nodes.size) (hf : f ∈ files)
    (hr : f.isReady = true) (hdir : s.destinationDir = some dir) (hloops : s.loopCount ≠ 0)
    (hapart : ∀ σ, w.files.target? (Path.join dir f.name) = some σ → apart σ) :
    Sole s.loopCount f.name (mountedFile s f) u fun v =>
      (ofRun w dir files).Beside (w.pairing apart) v w' := by
  set dest := Path.join dir f.name
  let p := w.pairing fun _ => False
  have hl : (ofRun w dir files).Leads p := ofRun_leads hout
  let own := Scene.around u.files (u.files.target? dest) p.stream
  have hown : own.Underway u :=
    (h.smooth.attended (c := own) h.receives (holds_first h.smooth.wellFormed)
      (h.left_old hl)).toUnderway
  have hallows : own.Allows dest :=
    ⟨⟨fun _ _ => trivial, fun _ _ => trivial⟩, fun σ hσ hd => target?_eq_some_iff.mpr ⟨hσ, hd⟩⟩
  have hgoes := h.receives.meets h.smooth.undisturbed (asks_mountedFile_local s f)
  have hfile := meets_mountedFile hdir hloops hown hallows
  refine (accountsFile_mounted hloops (hdir ▸ Option.some_ne_none dir) f).sole
    ((hgoes.and hfile).mono (fun _ => And.left) fun r v hpost => ?_)
  obtain ⟨hgo, hunder, -⟩ := hpost
  have htargets : ∀ σ, u.files.target? dest = some σ →
      w.files.target? dest = some σ := fun σ hσ =>
    h.holds.target?_first hl.ways (fun τ hτ => vacant_of_mem_mountedTargets hτ) hσ
  have hsame : (Scene.around w'.files none fun _ => False).Holds w'.files :=
    holds_first h.smooth'.wellFormed
  refine ⟨h.holds.around (fun σ hσ => ?_) hunder.files,
    ⟨hunder.files.wellFormed, hgo.undisturbed, fun id hid => ?_⟩, hgo.receives, h.smooth',
    h.receives', h.alike.step (together_pairing hout) hunder.files hsame (fun σ hσ => ?_)
      fun _ _ => hgo.nodes.directory⟩
  · obtain ⟨hplace, hvacant⟩ := target?_eq_some_iff.mp hσ
    exact h.holds.targets (ofRun_allows hf hr) hplace hvacant
  · exact h.smooth.output id ((hgo.output id).mp hid)
  · have hvacant := (target?_eq_some_iff.mp hσ).2
    exact .apart (hapart σ (htargets σ hσ)) (hunder.files.vacant trivial hvacant)
      ((h.alike.vacant_iff σ).mpr hvacant)

end Scene

namespace Scene

theorem Beside.bytes?_eq (h : (ofRun w dir files).Beside (w.pairing apart) u w')
    (hout : ∀ id, w.output = .file id → id < w.files.nodes.size) {path : String}
    (hapart : ∀ σ, apart σ → σ ∉ w.files.lookups .examine path)
    (hstream : ∀ id, w.output = .file id → w.files.find path ≠ .ok id) :
    w'.files.bytes? path = u.files.bytes? path := by
  refine h.alike.bytes? (fun σ hσ ha => hapart σ ha ?_) (fun _ _ hs => hs.elim) fun i hi ho => ?_
  · exact (h.holds.locate fun _ _ => trivial).lookups hσ
  · exact hstream i ho (h.holds.find_old (fun _ _ => trivial) hi (hout i ho))

end Scene

def FileSystem.Touches (fs : FileSystem) (dir : String) (f : SourceFile) (σ : Slot) : Prop :=
  f.isReady = true ∧ fs.target? (Path.join dir f.name) = some σ

/-- The destination of a file is not on the way to any other file or its destination. -/
def Settings.Detached (s : Settings) (fs : FileSystem) (dir g : String) (names : List String) :
    Prop :=
  ∀ σ, fs.Touches dir (fs.source s.sourceDir g) σ → ∀ f ∈ names, ∀ purpose,
    σ ∉ fs.lookups purpose (Path.join s.sourceDir f) ∧ σ ∉ fs.lookups purpose (Path.join dir f)

namespace Runner

theorem lanes_mounted (apart : Slot → Prop) {names : List String} (hsub : names ⊆ xs ++ ys)
    (hout : ∀ id, w.output = .file id → id < w.files.nodes.size) (hg : g ∉ xs ++ ys)
    (hstream : ∀ f ∈ xs ++ ys, ∀ id, w.output = .file id →
      w.files.find (Path.join s.sourceDir f) ≠ .ok id)
    (hdir : s.destinationDir = some dir) (hloops : s.loopCount ≠ 0)
    (hapart : ∀ σ, apart σ → ∀ f ∈ xs ++ ys, ∀ purpose,
      σ ∉ w.files.lookups purpose (Path.join s.sourceDir f) ∧
        σ ∉ w.files.lookups purpose (Path.join dir f)) :
    Lanes (fun l => l.isRowOf g = false) (mountedFile s)
      (names.map (w.files.source s.sourceDir)) fun done =>
        (Scene.ofRun w dir ((xs ++ g :: ys).map (w.files.source s.sourceDir))).Beside
          ((w.pairing apart).after
            (Scene.ofRun w dir ((xs ++ g :: ys).map (w.files.source s.sourceDir))) dir done) := by
  have hmem : ∀ f ∈ names.map (w.files.source s.sourceDir), ∃ name ∈ xs ++ ys,
      f = w.files.source s.sourceDir name ∧
        f ∈ (xs ++ g :: ys).map (w.files.source s.sourceDir) := by
    intro f hf
    obtain ⟨name, hname, rfl⟩ := List.mem_map.mp hf
    refine ⟨name, hsub hname, rfl, List.mem_map_of_mem ?_⟩
    obtain hx | hy := List.mem_append.mp (hsub hname)
    · exact List.mem_append_left _ hx
    · exact List.mem_append_right _ (List.mem_cons_of_mem _ hy)
  refine (Scene.ofRun_leads hout).lanes hdir hloops (fun f hf hready => ?_) fun f hf r hfile => ?_
  · obtain ⟨name, hname, rfl, hlisted⟩ := hmem f hf
    exact Scene.ofRun_guides hf hlisted hready (hstream name hname) fun σ hσ =>
      hapart σ hσ name hname
  · obtain ⟨name, hname, rfl, -⟩ := hmem f hf
    refine decide_eq_false fun he => hg ?_
    rwa [← he, hfile]

theorem extra_mounted {files done : List SourceFile} {f : SourceFile} (hf : f ∈ files)
    (hout : ∀ id, w.output = .file id → id < w.files.nodes.size)
    (hdir : s.destinationDir = some dir) (hloops : s.loopCount ≠ 0) :
    Extra (mountedFile s) s.loopCount f
      ((Scene.ofRun w dir files).Beside
        ((w.pairing fun _ => False).after (Scene.ofRun w dir files) dir done))
      ((Scene.ofRun w dir files).Beside
        ((w.pairing (w.files.Touches dir f)).after (Scene.ofRun w dir files) dir [])) := by
  refine ⟨fun _ u u' h => h.mono (fun σ hσ => hσ.1.elim) rfl rfl rfl rfl, fun hready u u' h => ?_⟩
  have hstart : (Scene.ofRun w dir files).Beside (w.pairing fun _ => False) u u' :=
    h.mono (fun σ hσ => hσ.1) rfl rfl rfl rfl
  obtain ⟨hrows, hresult, hends⟩ := hstart.sole hout hf hready hdir hloops fun σ hσ =>
    (⟨hready, hσ⟩ : w.files.Touches dir f σ)
  exact ⟨hrows, hresult, hends.mono (fun σ hσ => ⟨hσ, List.forall_mem_nil _⟩) rfl rfl rfl rfl⟩

theorem inserts_mounted (hu : w.Undisturbed) (hwf : w.files.WellFormed) (hr : w.Receives)
    (hout : ∀ id, w.output = .file id → id < w.files.nodes.size) (hg : g ∉ xs ++ ys)
    (hstream : ∀ f ∈ xs ++ ys, ∀ id, w.output = .file id →
      w.files.find (Path.join s.sourceDir f) ≠ .ok id)
    (hdir : s.destinationDir = some dir) (hloops : s.loopCount ≠ 0)
    (hsource : w.files.inspect s.sourceDir = .ok .directory)
    (hdetached : s.Detached w.files dir g (xs ++ ys)) :
    (mounted (s.listing (xs ++ g :: ys))).session.dialogue.Inserts g
      (mounted (s.listing (xs ++ ys))).session.dialogue w w fun n r u r' u' =>
        (∃ b, r' = .ok b ∧
          r = .ok (b && decide (n = (w.files.source s.sourceDir g).owes s.loopCount))) ∧
        (Scene.ofRun w dir ((xs ++ g :: ys).map (w.files.source s.sourceDir))).Beside
          (w.pairing (w.files.Touches dir (w.files.source s.sourceDir g))) u u' := by
  set c := Scene.ofRun w dir ((xs ++ g :: ys).map (w.files.source s.sourceDir)) with hc
  have hbefore := lanes_mounted (fun _ => False) (List.subset_append_left xs ys) hout hg hstream
    hdir hloops fun _ => False.elim
  have hafter := lanes_mounted _ (List.subset_append_right xs ys) hout hg hstream hdir hloops
    hdetached
  have hlisted : w.files.source s.sourceDir g ∈
      (xs ++ g :: ys).map (w.files.source s.sourceDir) :=
    List.mem_map_of_mem (List.mem_append_right _ List.mem_cons_self)
  have hstart : ∀ u u', w.Looked u → w.Looked u' →
      c.Beside ((w.pairing fun _ => False).after c dir []) u u' := fun u u' h h' =>
    (Scene.ofRun_beside hwf hu hr h h').mono (fun σ hσ => ⟨hσ, List.forall_mem_nil _⟩) rfl rfl rfl
      rfl
  refine (inserts_runAll hu hsource hstart hbefore hafter
    (extra_mounted hlisted hout hdir hloops)).weaken
    fun n r u r' u' hpost => ⟨hpost.1, hpost.2.mono (fun σ hσ => hσ.1) rfl rfl rfl rfl⟩

end Runner

namespace Scene

variable {store : StoreId} {held held' : String → List StoredVersion}

theorem untouched_readable {names : List String}
    (hf : f ∈ names.map (w.files.source s.sourceDir)) (hready : f.isReady = true)
    (fs : FileSystem) (hfs : (untouched w).Holds fs) : ∃ x, fs.bytes? f.path = some x := by
  obtain ⟨x, hx, -⟩ := bytes?_of_ready hf hready
  obtain ⟨id, hid, hn⟩ := bytes?_eq_some_iff.mp hx
  obtain ⟨hfind, hk⟩ := hfs.find (fun _ _ => trivial) (fun _ _ ht => nomatch ht) hid
  obtain ⟨y, hy⟩ := isFile_iff.mp (hk.isFile (isFile_iff.mpr ⟨x, hn⟩))
  exact ⟨y, bytes?_eq_some_iff.mpr ⟨id, hfind, hy⟩⟩

/-- Two runs over stores that differ in the versions of one object at most. -/
def Sharing (w : Surroundings) (store : StoreId) (name : String) :
    Surroundings → Surroundings → Prop :=
  Offering (untouched w) (untouched w) store fun n _ => n = name

theorem Sharing.versionsOf (h : Sharing w store g u w') {name : String} (hname : name ≠ g) :
    u.versionsOf store name = w'.versionsOf store name :=
  ((Offering.versionsOf h name).resolve_right hname).symm

theorem Sharing.sole (h : Sharing w store f.name u w') (hloops : s.loopCount ≠ 0)
    (hx : ∀ fs, (untouched w).Holds fs → ∃ x, fs.bytes? f.path = some x) :
    Sole s.loopCount f.name (directFile s store f) u fun v => Sharing w store f.name v w' := by
  obtain ⟨held, held', hu, hw', hsame⟩ := h
  refine (accountsFile_direct s store f).sole ((hu.meets_directFile hloops hx).weaken
    fun r v hpost => ?_)
  obtain ⟨-, x, hv⟩ := hpost
  refine ⟨_, held', hv, hw', fun n => ?_⟩
  by_cases hn : n = f.name
  · exact .inr hn
  · rw [Function.update_of_ne hn]
    exact hsame n

end Scene

namespace Runner

theorem served_direct {store : StoreId} {held : String → List StoredVersion} (names : List String)
    (hu : w.Undisturbed) (hwf : w.files.WellFormed) (hr : w.Receives)
    (hout : ∀ id, w.output = .file id → id < w.files.nodes.size) (hloops : s.loopCount ≠ 0)
    (hsource : w.files.inspect s.sourceDir = .ok .directory) (hstocks : w.Stocks store held) :
    (direct (s.listing names) store).session.dialogue.Meets answer Served w fun _ _ => True := by
  let offers (u : Surroundings) : Prop := ∃ held, (Scene.untouched w).Offers store held u
  have hidle (d : Request) (hd : Idle d) (hquiet : Quiet d) : d.Preserves answer Served offers :=
    fun u ⟨held, hoffers⟩ => ⟨served_of_quiet hquiet, held, (hoffers.idle hd).1⟩
  have hprint (line : Line) : Request.Preserves answer Served offers (.print line) :=
    fun u ⟨held, hoffers⟩ =>
      ⟨⟨(hoffers.toAttended.print line).1, id⟩, held, hoffers.print line⟩
  have hnarrates : Narrates answer Served offers :=
    ⟨fun event => hidle (.report event) trivial trivial, hprint .header, hprint .footer⟩
  have hlook (d : Request) (hd : Looks d) : d.Preserves answer Served offers := by
    cases d with
    | inspect path => exact hidle (.inspect path) trivial trivial
    | probe path => exact hidle (.probe path) trivial trivial
    | _ => exact hd.elim
  have hstart : offers w :=
    ⟨held, Scene.untouched_offers hwf hr hout hstocks ⟨⟨rfl, rfl, hu⟩, .refl w⟩⟩
  refine (hnarrates.meets_runAll hlook (fun files hfiles f hf hready u hoffers => ?_)
    hstart).weaken fun _ _ _ => trivial
  cases (hu.meets_resolveSources hsource names).ends.1.symm.trans hfiles
  obtain ⟨held, hoffers⟩ := hoffers
  refine (hoffers.meets_directFile hloops (Scene.untouched_readable hf hready)).weaken
    fun _ v hpost => ?_
  obtain ⟨-, x, hv⟩ := hpost
  exact ⟨_, hv⟩

theorem inserts_direct {store : StoreId} {held : String → List StoredVersion}
    (hu : w.Undisturbed) (hwf : w.files.WellFormed) (hr : w.Receives)
    (hout : ∀ id, w.output = .file id → id < w.files.nodes.size) (hg : g ∉ xs ++ ys)
    (hstream : ∀ f ∈ xs ++ ys, ∀ id, w.output = .file id →
      w.files.find (Path.join s.sourceDir f) ≠ .ok id)
    (hloops : s.loopCount ≠ 0) (hsource : w.files.inspect s.sourceDir = .ok .directory)
    (hstocks : w.Stocks store held) :
    (direct (s.listing (xs ++ g :: ys)) store).session.dialogue.Inserts g
      (direct (s.listing (xs ++ ys)) store).session.dialogue w w fun n r u r' u' =>
        (∃ b, r' = .ok b ∧
          r = .ok (b && decide (n = (w.files.source s.sourceDir g).owes s.loopCount))) ∧
        Scene.Sharing w store g u u' := by
  have hlanes {names : List String} (hsub : names ⊆ xs ++ ys) :
      Lanes (fun l => l.isRowOf g = false) (directFile s store)
        (names.map (w.files.source s.sourceDir)) fun _ => Scene.Sharing w store g := by
    refine Scene.Offering.lanes hloops (fun f hf hready => ?_) fun f hf r hfile => ?_
    · obtain ⟨x, hx, hsize⟩ := bytes?_of_ready hf hready
      obtain ⟨name, hname, rfl⟩ := List.mem_map.mp hf
      have hbytes := Scene.untouched_bytes? hx (hstream name (hsub hname))
      exact ⟨x, hbytes, hbytes, hsize⟩
    · obtain ⟨name, hname, rfl⟩ := List.mem_map.mp hf
      refine decide_eq_false fun he => hg (hsub ?_)
      rwa [← he, hfile]
  have hextra : Extra (directFile s store) s.loopCount (w.files.source s.sourceDir g)
      (Scene.Sharing w store g) (Scene.Sharing w store g) := by
    refine ⟨fun _ _ _ h => h, fun hready u u' h => h.sole hloops fun fs hfs => ?_⟩
    exact Scene.untouched_readable (List.mem_map_of_mem (List.mem_singleton_self g)) hready fs hfs
  exact inserts_runAll hu hsource
    (fun u u' h h' => ⟨held, held, Scene.untouched_offers hwf hr hout hstocks h,
      Scene.untouched_offers hwf hr hout hstocks h', fun _ => .inl rfl⟩)
    (hlanes (List.subset_append_left xs ys)) (hlanes (List.subset_append_right xs ys)) hextra

end Runner

/-- A run with one file more against the run without it. Both come to their ends, the rows of the
other files are the same, and the first run comes to what the second comes to if the file has as
many rows as it should. -/
structure Isolates (file : String) (owed : Nat) (r r' : Runner) (w : Surroundings) : Prop where
  rows : (printed ((r.run .empty).moments answer w)).filter (fun l => !l.isRowOf file) =
    printed ((r'.run .empty).moments answer w)
  ends : ∃ t t' x, (r'.run .empty).result answer w = some (t', x) ∧
    (r.run .empty).result answer w = some (t, x.map (· &&
      decide ((printed ((r.run .empty).moments answer w)).countP (·.isRowOf file) = owed))) ∧
    (w.Receives → ∃ b, x = .ok b)

variable {r r' : Runner} {owed : Nat} {file : String}

/-- A run with all its bytes in range against another that prints no other rows: both come to their
ends. -/
theorem Runner.passes_both (hfit : BytesFit (rowsOf (linesOf ((r.run .empty).moments answer w))))
    (hs : (printed (r'.session.dialogue.moments answer w)).Sublist
      (printed (r.session.dialogue.moments answer w))) :
    (∃ t, (r.run .empty).Passes answer w (r.session.dialogue.moments answer w)
      (some (t, r.session.dialogue.result answer w)) (r.session.dialogue.final answer w)) ∧
    ∃ t, (r'.run .empty).Passes answer w (r'.session.dialogue.moments answer w)
      (some (t, r'.session.dialogue.result answer w)) (r'.session.dialogue.final answer w) := by
  obtain ⟨t, -, hpasses⟩ := Dialogue.passes_tallied (Dialogue.bytesFit_of_tallied hfit)
  have hrun : (r.run .empty).moments answer w = _ := hpasses.moments
  rw [hrun] at hfit
  obtain ⟨t', -, hpasses'⟩ := Dialogue.passes_tallied (bytesFit_of_printed hfit hs)
  exact ⟨⟨t, hpasses⟩, t', hpasses'⟩

theorem Runner.result_eq_none
    (hprinted : ∀ m ∈ r.session.dialogue.moments answer w, m.Printed)
    (hnot : ¬ BytesFit (rowsOf (linesOf ((r.run .empty).moments answer w)))) :
    (r.run .empty).result answer w = none := by
  refine Dialogue.result_tallied_eq_none_iff.mpr fun hfit => hnot ?_
  obtain ⟨t, -, hpasses⟩ := Dialogue.passes_tallied hfit
  rwa [run, hpasses.moments, ← recordsIn_of_printed hprinted]

theorem Dialogue.Inserts.isolates {R : Surroundings → Surroundings → Prop}
    (h : r.session.dialogue.Inserts file r'.session.dialogue w w fun n r u r' u' =>
      (∃ b, r' = .ok b ∧ r = .ok (b && decide (n = owed))) ∧ R u u')
    (hfit : BytesFit (rowsOf (linesOf ((r.run .empty).moments answer w)))) :
    Isolates file owed r r' w ∧
      R ((r.run .empty).final answer w) ((r'.run .empty).final answer w) := by
  obtain ⟨hrows, ⟨b, hr', hr⟩, hends⟩ := h
  obtain ⟨⟨t, hrun⟩, t', hrun'⟩ := Runner.passes_both hfit (hrows ▸ List.filter_sublist)
  refine ⟨⟨?_, t, t', .ok b, ?_, ?_, fun _ => ⟨b, rfl⟩⟩, ?_⟩
  · rw [hrun.moments, hrun'.moments, hrows]
  · rw [hrun'.result, hr']
  · rw [hrun.result, hrun.moments, hr]
    rfl
  · rwa [hrun.final, hrun'.final]

theorem Surroundings.Refuses.isolates (h : w.Refuses)
    (hr : r.session.dialogue.Prints w [Line.header.untimed] fun x u =>
      x = .error (.system .noSpace) ∧ w.Stays u)
    (hr' : r'.session.dialogue.Prints w [Line.header.untimed] fun x u =>
      x = .error (.system .noSpace) ∧ w.Stays u)
    (hfit : BytesFit (rowsOf (linesOf ((r.run .empty).moments answer w)))) :
    Isolates file owed r r' w ∧ w.Stays ((r.run .empty).final answer w) ∧
      w.Stays ((r'.run .empty).final answer w) := by
  have hsame : (printed (r'.session.dialogue.moments answer w)).Sublist
      (printed (r.session.dialogue.moments answer w)) := by
    rw [hr.lines, hr'.lines]
  obtain ⟨⟨t, hrun⟩, t', hrun'⟩ := Runner.passes_both hfit hsame
  refine ⟨⟨?_, t, t', .error (.system .noSpace), ?_, ?_, fun hw => absurd hw h.not_receives⟩,
    ?_, ?_⟩
  · rw [hrun.moments, hrun'.moments, hr.lines, hr'.lines]
    rfl
  · rw [hrun'.result, hr'.ends.1]
  · rw [hrun.result, hr.ends.1]
    rfl
  · exact hrun.final ▸ hr.ends.2
  · exact hrun'.final ▸ hr'.ends.2

/-- A run with one file more against the run without it. If its bytes stay in range, the file is
isolated and both runs leave the same; if not, the run has no end. -/
structure Isolated (file : String) (owed : Nat) (r r' : Runner) (w : Surroundings)
    (same : Surroundings → Surroundings → Prop) : Prop where
  fits : BytesFit (rowsOf (linesOf ((r.run .empty).moments answer w))) →
    Isolates file owed r r' w ∧
      same ((r.run .empty).final answer w) ((r'.run .empty).final answer w)
  overflow : ¬ BytesFit (rowsOf (linesOf ((r.run .empty).moments answer w))) →
    (r.run .empty).result answer w = none

theorem Surroundings.Refuses.isolated (h : w.Refuses) {same : Surroundings → Surroundings → Prop}
    (hr : r.session.dialogue.Prints w [Line.header.untimed] fun x u =>
      x = .error (.system .noSpace) ∧ w.Stays u)
    (hr' : r'.session.dialogue.Prints w [Line.header.untimed] fun x u =>
      x = .error (.system .noSpace) ∧ w.Stays u)
    (hsame : ∀ u u', w.Stays u → w.Stays u' → same u u') : Isolated file owed r r' w same := by
  refine ⟨fun hfit => ?_, fun hnot => absurd ?_ hnot⟩
  · obtain ⟨hisolates, hstays, hstays'⟩ := h.isolates hr hr' hfit
    exact ⟨hisolates, hsame _ _ hstays hstays'⟩
  · have hlines : (printed ((r.run .empty).moments answer w)).Sublist [Line.header.untimed] := by
      rw [← hr.lines]
      exact ((Dialogue.moments_tallied_prefix _ _ w).sublist.filterMap _).map _
    exact bytesFit_of_rowless (List.sublist_nil.mp (hlines.filterMap Line.record?))

/-- One file more in the list leaves the other files alone, whatever becomes of it, as long as the
bytes of the rows are in range: the rows of the other files, what is at their destinations or the
versions that are stored of them, and what the run comes to. -/
theorem inserted_file_is_isolated (hu : w.Undisturbed) (hwf : w.files.WellFormed)
    (hreliable : w.Reliable) (hout : ∀ id, w.output = .file id → id < w.files.nodes.size)
    (hg : g ∉ xs ++ ys) (hstream : ∀ f ∈ xs ++ ys, ∀ id, w.output = .file id →
      w.files.find (Path.join s.sourceDir f) ≠ .ok id) :
    (∀ dir, s.destinationDir = some dir → Accepted (s.listing (xs ++ ys)) w .mounted →
      s.Detached w.files dir g (xs ++ ys) →
      Isolated g ((w.files.source s.sourceDir g).owes s.loopCount)
        (mounted (s.listing (xs ++ g :: ys))) (mounted (s.listing (xs ++ ys))) w fun u u' =>
          ∀ f ∈ xs ++ ys,
            (∀ id, w.output = .file id → w.files.find (Path.join dir f) ≠ .ok id) →
            u.files.bytes? (Path.join dir f) = u'.files.bytes? (Path.join dir f)) ∧
    ∀ store held, Accepted (s.listing (xs ++ ys)) w .direct → w.Stocks store held →
      Isolated g ((w.files.source s.sourceDir g).owes s.loopCount)
        (direct (s.listing (xs ++ g :: ys)) store) (direct (s.listing (xs ++ ys)) store) w
          fun u u' => ∀ name, name ≠ g → u.versionsOf store name = u'.versionsOf store name := by
  constructor
  · intro dir hdir haccepted hdetached
    obtain ⟨hloops, hsource⟩ := haccepted.usable hu
    cases hreliable.receives_or_refuses with
    | inl hr =>
      have hserved := hr.meets hu (asks_mounted_local (s.listing (xs ++ g :: ys)))
      refine ⟨fun hfit => ?_, Runner.result_eq_none fun m hm => (hserved.moments m hm).printed⟩
      obtain ⟨hisolates, hbeside⟩ :=
        (inserts_mounted hu hwf hr hout hg hstream hdir hloops hsource hdetached).isolates hfit
      refine ⟨hisolates, fun f hf hne => (hbeside.bytes?_eq hout (fun σ hσ => ?_) hne).symm⟩
      exact (hdetached σ hσ f hf .examine).2
    | inr hr =>
      have hleft : (mounted (s.listing (xs ++ g :: ys))).session.dialogue.Prints w _ _ :=
        hr.prints_runAll hu hsource
      have hright : (mounted (s.listing (xs ++ ys))).session.dialogue.Prints w _ _ :=
        hr.prints_runAll hu hsource
      refine hr.isolated hleft hright fun u u' h h' f _ _ => ?_
      rw [h.files, h'.files]
  · intro store held haccepted hstocks
    obtain ⟨hloops, hsource⟩ := haccepted.usable hu
    cases hreliable.receives_or_refuses with
    | inl hr =>
      have hserved := served_direct (xs ++ g :: ys) hu hwf hr hout hloops hsource hstocks
      refine ⟨fun hfit => ?_, Runner.result_eq_none fun m hm => (hserved.moments m hm).printed⟩
      obtain ⟨hisolates, hoffering⟩ :=
        (inserts_direct hu hwf hr hout hg hstream hloops hsource hstocks).isolates hfit
      exact ⟨hisolates, fun name hname => hoffering.versionsOf hname⟩
    | inr hr =>
      have hleft : (direct (s.listing (xs ++ g :: ys)) store).session.dialogue.Prints w _ _ :=
        hr.prints_runAll hu hsource
      have hright : (direct (s.listing (xs ++ ys)) store).session.dialogue.Prints w _ _ :=
        hr.prints_runAll hu hsource
      refine hr.isolated hleft hright fun u u' h h' name _ => ?_
      rw [(hstocks.of_stores h.stores).versionsOf, (hstocks.of_stores h'.stores).versionsOf]

def sampleCrowded : FileSystem where
  nodes := #[.directory 0, .directory 0, .directory 0, .file ⟨#[1, 2, 3]⟩, .file ⟨#[4]⟩,
    .directory 2, .link "a", .file .empty]
  entries := [⟨0, "src", 1⟩, ⟨0, "dst", 2⟩, ⟨0, "rows", 7⟩, ⟨1, "a", 3⟩, ⟨1, "b", 4⟩, ⟨1, "c", 4⟩,
    ⟨2, "b", 5⟩, ⟨2, "c", 6⟩]
  workingDir := 0

def sampleSinking : Surroundings :=
  { Surroundings.calm sampleCrowded with
    stores := #[.calm sampleLittered], output := .file 7 }

theorem inserted_file_is_isolated_crowded :
    Isolates "b" 4 (mounted (sampleBoth.listing ["a", "b", "a"]))
        (mounted (sampleBoth.listing ["a", "a"])) sampleSinking ∧
      (((mounted (sampleBoth.listing ["a", "b", "a"])).run .empty).result answer
        sampleSinking).map (·.2) = some (.ok false) ∧
      (((mounted (sampleBoth.listing ["a", "a"])).run .empty).result answer
        sampleSinking).map (·.2) = some (.ok true) ∧
      Isolates "c" 4 (mounted (sampleBoth.listing ["c", "a"]))
        (mounted (sampleBoth.listing ["a"])) sampleSinking ∧
      Isolates "b" 4 (direct (sampleBoth.listing ["a", "b", "a"]) 0)
        (direct (sampleBoth.listing ["a", "a"]) 0) sampleSinking := by
  have hu : sampleSinking.Undisturbed :=
    ⟨fun _ => rfl, fun _ => rfl, fun _ => rfl, fun _ => rfl, rfl⟩
  have hwf : sampleSinking.files.WellFormed := ⟨by decide, by decide, by decide, by decide⟩
  have hreliable : sampleSinking.Reliable := fun k hk => nomatch hk
  have hout : ∀ id, sampleSinking.output = .file id → id < sampleSinking.files.nodes.size := by
    rintro id ⟨⟩
    decide
  have hstream : ∀ f ∈ ["a", "a"], ∀ id, sampleSinking.output = .file id →
      sampleSinking.files.find (Path.join sampleBoth.sourceDir f) ≠ .ok id := by
    rintro f hf id ⟨⟩
    revert f
    decide +kernel
  have haccepted : ∀ names ∈ [["a", "a"], ["a"]], ∀ b,
      Accepted (sampleBoth.listing names) sampleSinking b := by
    intro names hnames b
    unfold Accepted
    revert names
    cases b <;> decide +kernel
  have hdetached : ∀ g ∈ ["b", "c"], sampleBoth.Detached sampleCrowded "dst" g ["a", "a"] := by
    rintro g hg σ ⟨-, hσ⟩ f hf purpose
    have hnone : sampleCrowded.target? "dst/b" = none := by decide +kernel
    have hsome : sampleCrowded.target? "dst/c" = some (2, "c") := by decide +kernel
    obtain rfl | rfl : g = "b" ∨ g = "c" := by simpa using hg
    · cases hnone.symm.trans hσ
    · cases hsome.symm.trans hσ
      revert f
      cases purpose <;> decide +kernel
  have hfits : ∀ r ∈ [mounted (sampleBoth.listing ["a", "b", "a"]),
      mounted (sampleBoth.listing ["c", "a"]), direct (sampleBoth.listing ["a", "b", "a"]) 0],
      BytesFit (rowsOf (linesOf ((r.run .empty).moments answer sampleSinking))) := by
    decide +kernel
  have hb := inserted_file_is_isolated (s := sampleBoth) (g := "b") hu hwf hreliable hout
    (show "b" ∉ ["a"] ++ ["a"] by decide) hstream
  have hc := inserted_file_is_isolated (s := sampleBoth) (g := "c") hu hwf hreliable hout
    (show "c" ∉ [] ++ ["a"] by decide) fun f hf => hstream f (List.mem_cons_of_mem _ hf)
  refine ⟨?_, by decide +kernel, by decide +kernel, ?_, ?_⟩
  · have hisolated := hb.1 "dst" rfl (haccepted _ (by decide) _) (hdetached _ (by decide))
    exact (hisolated.fits (hfits _ (by simp))).1
  · have hisolated := hc.1 "dst" rfl (haccepted _ (by decide) _) fun σ hσ f hf =>
      hdetached _ (by decide) σ hσ f (List.mem_cons_of_mem _ hf)
    exact (hisolated.fits (hfits _ (by simp))).1
  · have hisolated := hb.2 0 _ (haccepted _ (by decide) _) ⟨sampleLittered, rfl, rfl⟩
    exact (hisolated.fits (hfits _ (by simp))).1

def sampleSwelling : Surroundings := { sampleSinking with output := .file 3 }

def sampleHome : Settings := { sampleBoth with destinationDir := some "." }

/-- Every copy of a source that the rows go to shows how many there were before, and so does a
destination that they go to. A file with too many bytes keeps the run from its end. -/
theorem inserted_file_shows_in_the_statistics :
    (sampleSwelling.Undisturbed ∧ sampleSwelling.files.WellFormed ∧ sampleSwelling.Reliable ∧
      "c" ∉ ["a"] ∧ (∀ b, Accepted (sampleBoth.listing ["a"]) sampleSwelling b) ∧
      sampleBoth.Detached sampleSwelling.files "dst" "c" ["a"] ∧
      ¬ Isolates "c" 4 (mounted (sampleBoth.listing ["c", "a"]))
        (mounted (sampleBoth.listing ["a"])) sampleSwelling) ∧
    (sampleSinking.Undisturbed ∧ sampleSinking.files.WellFormed ∧ sampleSinking.Reliable ∧
      "a" ∉ ["rows"] ∧ (∀ b, Accepted (sampleHome.listing ["rows"]) sampleSinking b) ∧
      sampleHome.Detached sampleSinking.files "." "a" ["rows"] ∧
      (((mounted (sampleHome.listing ["a", "rows"])).run .empty).final answer
          sampleSinking).files.bytes? "./rows" ≠
        (((mounted (sampleHome.listing ["rows"])).run .empty).final answer
          sampleSinking).files.bytes? "./rows") ∧
    sampleVast.Undisturbed ∧ sampleVast.files.WellFormed ∧ sampleVast.Reliable ∧
      "a" ∉ ["b"] ∧ Accepted (sampleGreedy.listing ["b"]) sampleVast .direct ∧
      sampleVast.Stocks 0 (sampleVast.versionsOf 0) ∧
      ¬ Isolates "a" 8 (direct (sampleGreedy.listing ["a", "b"]) 0)
        (direct (sampleGreedy.listing ["b"]) 0) sampleVast := by
  have hwf : sampleCrowded.WellFormed := ⟨by decide, by decide, by decide, by decide⟩
  have hswelling : sampleBoth.Detached sampleCrowded "dst" "c" ["a"] := by
    rintro σ ⟨-, hσ⟩ f hf purpose
    have hsome : sampleCrowded.target? "dst/c" = some (2, "c") := by decide +kernel
    cases hsome.symm.trans hσ
    revert f
    cases purpose <;> decide +kernel
  have hhome : sampleHome.Detached sampleCrowded "." "a" ["rows"] := by
    rintro σ ⟨-, hσ⟩ f hf purpose
    have hsome : sampleCrowded.target? "./a" = some (0, "a") := by decide +kernel
    cases hsome.symm.trans hσ
    revert f
    cases purpose <;> decide +kernel
  refine ⟨⟨⟨fun _ => rfl, fun _ => rfl, fun _ => rfl, fun _ => rfl, rfl⟩, hwf,
    fun k hk => (nomatch hk), by decide, fun b => ?_, hswelling, fun h => ?_⟩,
    ⟨⟨fun _ => rfl, fun _ => rfl, fun _ => rfl, fun _ => rfl, rfl⟩, hwf, fun k hk => (nomatch hk),
      by decide, fun b => ?_, hhome, by decide +kernel⟩,
    undisturbed_sampleVast, wellFormed_sampleVast, fun k hk => (nomatch hk), by decide, ?_,
    ⟨.empty, rfl, rfl⟩, fun h => ?_⟩
  · unfold Accepted
    cases b <;> decide +kernel
  · exact absurd h.rows (by decide +kernel)
  · unfold Accepted
    cases b <;> decide +kernel
  · unfold Accepted
    decide +kernel
  · obtain ⟨t, t', x, -, hends, -⟩ := h.ends
    have hstocks : sampleVast.Stocks 0 (sampleVast.versionsOf 0) := ⟨.empty, rfl, rfl⟩
    have hserved := served_direct (s := sampleGreedy) ["a", "b"] undisturbed_sampleVast
      wellFormed_sampleVast trivial (fun id hid => (nomatch hid)) (by decide) (by decide +kernel)
      hstocks
    have hprinting := ((direct sampleGreedy 0).session.dialogue.passes_printing fun m hm =>
      (hserved.moments m hm).printed).moments
    have hnot := not_bytesFit_sampleVast
    rw [hprinting] at hnot
    cases (Dialogue.result_tallied_eq_none_iff.mpr hnot).symm.trans hends

end StorageTrials

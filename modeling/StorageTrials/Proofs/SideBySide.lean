import StorageTrials.Proofs.Likeness
import StorageTrials.Proofs.Lockstep

namespace StorageTrials

open FileSystem Runner Surroundings

open Dialogue

variable {c : Scene} {p : Pairing} {w w' : Surroundings} {fs : FileSystem} {dir path : String}
variable {kind : Line → Prop} {f : SourceFile} {files : List SourceFile} {s : Settings}

namespace Scene

theorem Holds.steady (h : c.Holds fs) (hw : ∀ σ ∈ c.first.lookups .examine path, c.ways σ)
    (hold : ∀ i, c.stream i → i < c.first.nodes.size) (hs : Steady c.stream c.first path) :
    Steady c.stream fs path := by
  intro id hf
  cases (h.locate hw).spot with
  | inl hsame =>
    obtain ⟨hfind, hnode⟩ := h.find_same hsame.1 hsame.2
    have hfirst := hfind.symm.trans hf
    obtain ⟨hfile, hstream⟩ := hs id hfirst
    exact ⟨(hnode id hfirst).isFile hfile, hstream⟩
  | inr hcut =>
    obtain ⟨σ, -, -, hr, ⟨e, he⟩ | ⟨-, t, he⟩⟩ := hcut
    · cases (find_of_error he).symm.trans hf
    · obtain ⟨hle, hfile⟩ := hr id (lookup?_of_find he hf).2
      exact ⟨hfile, fun hi => absurd (hold id hi) (Nat.not_lt.mpr hle)⟩

theorem Holds.find_old (h : c.Holds fs) (hw : ∀ σ ∈ c.first.lookups .examine path, c.ways σ)
    {i : NodeId} (hf : fs.find path = .ok i) (hi : i < c.first.nodes.size) :
    c.first.find path = .ok i := by
  cases (h.locate hw).spot with
  | inl hsame => exact (h.find_same hsame.1 hsame.2).1.symm.trans hf
  | inr hcut =>
    obtain ⟨σ, -, -, hr, ⟨e, he⟩ | ⟨-, t, he⟩⟩ := hcut
    · cases (find_of_error he).symm.trans hf
    · exact absurd hi (Nat.not_lt.mpr (hr i (lookup?_of_find he hf).2).1)

theorem Holds.locate_ne_free (h : c.Holds fs)
    (hw : ∀ σ ∈ c.first.lookups .examine path, c.ways σ) {i : NodeId}
    (hi : c.first.find path = .ok i) {σ : Slot} (hfree : c.first.lookup? σ.1 σ.2 = none)
    (ht : ¬ c.targets σ) (t : Bool) : fs.locate .examine path ≠ .ok (.entry σ.1 σ.2 t) := by
  intro hl
  cases (h.locate hw).spot with
  | inl hsame =>
    have he := (lookup?_of_find (hsame.1.symm.trans hl) hi).2
    cases hfree.symm.trans he
  | inr hcut =>
    obtain ⟨τ, -, hτ, -, ⟨e, he⟩ | ⟨-, t', he⟩⟩ := hcut
    · cases hl.symm.trans he
    · obtain ⟨h₁, h₂, -⟩ := Spot.entry.inj (Except.ok.inj (he.symm.trans hl))
      exact ht (Prod.ext h₁ h₂ ▸ hτ)

theorem vacant_of_mem_mountedTargets {σ : Slot} (h : σ ∈ mountedTargets fs dir files) :
    ∀ id, fs.lookup? σ.1 σ.2 = some id → fs.isDirectory id = false := by
  obtain ⟨f, -, -, hf⟩ := mem_mountedTargets.mp h
  exact (target?_eq_some_iff.mp hf).2

theorem Holds.target? (h : c.Holds fs) (hw : ∀ σ, c.ways σ)
    (ht : ∀ σ ∈ c.first.lookups .remove path, ¬ c.targets σ) {σ : Slot}
    (hσ : c.first.target? path = some σ) : fs.target? path = some σ := by
  obtain ⟨hplace, hvacant⟩ := target?_eq_some_iff.mp hσ
  apply target?_eq_some_iff.mpr
  exact ⟨(h.place?_eq (fun σ _ => hw σ) ht).trans hplace, h.vacant (hw σ) hvacant⟩

/-- What can become of the first tree is told by a scene. -/
structure Leads (c : Scene) (p : Pairing) : Prop where
  ways : ∀ σ, c.ways σ
  stream : c.stream = p.stream
  old : p.Old
  held : ∀ i, p.stream i → i < c.first.nodes.size
  soft : ∀ σ, p.soft σ → c.first.lookup? σ.1 σ.2 = none ∧ ¬ c.targets σ

/-- The way to a file that is ready and the way to its destination are the same in both trees. -/
structure Guides (c : Scene) (p : Pairing) (dir : String) (f : SourceFile) : Prop where
  allows : c.Allows (Path.join dir f.name)
  found : ∃ i, c.first.find f.path = .ok i
  steady : Steady c.stream c.first f.path
  source : ∀ σ ∈ c.first.lookups .examine f.path, ¬ p.apart σ
  dest : ∀ σ ∈ c.first.lookups .remove (Path.join dir f.name), ¬ p.apart σ

/-- Two runs that have come equally far. -/
structure Beside (c : Scene) (p : Pairing) (w w' : Surroundings) : Prop where
  holds : c.Holds w.files
  smooth : w.Smooth p.stream
  receives : w.Receives
  smooth' : w'.Smooth p.stream
  receives' : w'.Receives
  alike : p.Alike w.files w'.files

end Scene

def Pairing.after (p : Pairing) (c : Scene) (dir : String) (files : List SourceFile) : Pairing :=
  { p with apart := fun σ => p.apart σ ∧ ∀ f ∈ files, f.isReady = true →
      (∀ τ ∈ c.first.lookups .remove (Path.join dir f.name), ¬ c.targets τ) →
        c.first.target? (Path.join dir f.name) ≠ some σ }

namespace Scene

theorem Leads.after (h : c.Leads p) (dir : String) (files : List SourceFile) :
    c.Leads (p.after c dir files) :=
  ⟨h.ways, h.stream, h.old, h.held, h.soft⟩

theorem Guides.after (h : c.Guides p dir f) (files : List SourceFile) :
    c.Guides (p.after c dir files) dir f :=
  ⟨h.allows, h.found, h.steady, fun σ hσ ha => h.source σ hσ ha.1, fun σ hσ ha => h.dest σ hσ ha.1⟩

theorem Beside.left_old (h : c.Beside p w w') (hl : c.Leads p) :
    ∀ i, p.stream i → i < w.files.nodes.size := fun i hi =>
  Nat.lt_of_lt_of_le (hl.old i hi).1 h.alike.size

theorem Beside.right_old (h : c.Beside p w w') (hl : c.Leads p) :
    ∀ i, p.stream i → i < w'.files.nodes.size := fun i hi =>
  Nat.lt_of_lt_of_le (hl.old i hi).2 h.alike.size'

theorem Beside.left {u : Surroundings} (h : c.Beside p w w') (hw : w.Proceeds w.files u) :
    c.Beside p u w' where
  holds := hw.files ▸ h.holds
  smooth := ⟨hw.files ▸ h.smooth.wellFormed, hw.undisturbed, hw.output ▸ h.smooth.output⟩
  receives := h.receives.congr hw.output fun _ _ => by rw [hw.files]
  smooth' := h.smooth'
  receives' := h.receives'
  alike := hw.files ▸ h.alike

theorem Beside.right {u : Surroundings} (h : c.Beside p w w') (hw : w'.Proceeds w'.files u) :
    c.Beside p w u where
  holds := h.holds
  smooth := h.smooth
  receives := h.receives
  smooth' := ⟨hw.files ▸ h.smooth'.wellFormed, hw.undisturbed, hw.output ▸ h.smooth'.output⟩
  receives' := h.receives'.congr hw.output fun _ _ => by rw [hw.files]
  alike := hw.files ▸ h.alike

theorem Beside.print (h : c.Beside p w w') (hl : c.Leads p) (line : Line) :
    c.Beside p ((answer (.print line)).run w).2 ((answer (.print line)).run w').2 := by
  have hattended := Surroundings.Smooth.attended (c := .around w.files none p.stream) h.smooth
    h.receives (holds_first h.smooth.wellFormed) (h.left_old hl)
  have hattended' := Surroundings.Smooth.attended (c := .around w'.files none p.stream) h.smooth'
    h.receives' (holds_first h.smooth'.wellFormed) (h.right_old hl)
  obtain ⟨-, hprinted, -⟩ := hattended.print line
  obtain ⟨-, hprinted', -⟩ := hattended'.print line
  obtain ⟨-, hgoes⟩ := h.receives.serve h.smooth.undisturbed (r := .print line) trivial
  refine ⟨?_, hprinted.smooth, hprinted.receives, hprinted'.smooth, hprinted'.receives, ?_⟩
  · exact h.holds.around (fun σ (hσ : none = some σ) => nomatch hσ) (hl.stream ▸ hprinted.files)
  · have hstep := h.alike.step (Pairing.Alike.together_around w.files w'.files hl.old)
      hprinted.files hprinted'.files (fun σ (hσ : none = some σ) => nomatch hσ)
      fun _ _ => hgoes.nodes.directory
    exact hstep.mono (fun _ => And.left) (fun _ => id) (fun _ => id) (Nat.le_refl _) (Nat.le_refl _)

theorem Holds.lookups_subset (h : c.Holds fs) (hw : ∀ σ, c.ways σ) (purpose : Purpose)
    (path : String) : fs.lookups purpose path ⊆ c.first.lookups purpose path :=
  (h.locate fun σ _ => hw σ).lookups

theorem Beside.dest_not_apart (h : c.Beside p w w') (hl : c.Leads p) (hg : c.Guides p dir f) :
    ∀ σ ∈ w.files.lookups .remove (Path.join dir f.name), ¬ p.apart σ :=
  fun σ hσ => hg.dest σ (h.holds.lookups_subset hl.ways _ _ hσ)

theorem Beside.same_delivery (h : c.Beside p w w') (hl : c.Leads p) (hg : c.Guides p dir f) :
    Steady p.stream (w.files.cleared (Path.join dir f.name)) f.path ∧
      Steady p.stream (w'.files.cleared (Path.join dir f.name)) f.path ∧
      w'.files.delivery? f.path (Path.join dir f.name) =
        w.files.delivery? f.path (Path.join dir f.name) := by
  have hcleared : c.Holds (w.files.cleared (Path.join dir f.name)) := h.holds.cleared hg.allows
  have hplace := h.dest_not_apart hl hg
  have hsoft : ∀ d n, p.soft (d, n) →
      (w.files.cleared (Path.join dir f.name)).locate .examine f.path ≠
        .ok (.entry d n false) := by
    intro d n hdn
    obtain ⟨i, hi⟩ := hg.found
    obtain ⟨hfree, ht⟩ := hl.soft (d, n) hdn
    exact hcleared.locate_ne_free (fun σ _ => hl.ways σ) hi hfree ht false
  have hsteady : Steady p.stream (w.files.cleared (Path.join dir f.name)) f.path := by
    rw [← hl.stream]
    apply hcleared.steady (fun σ _ => hl.ways σ) _ hg.steady
    rw [hl.stream]
    exact hl.held
  refine ⟨hsteady, ?_, ?_⟩
  · exact (h.alike.cleared hl.old hplace).steady hl.old
      (fun σ hσ => hg.source σ (hcleared.lookups_subset hl.ways _ _ hσ)) hsoft hsteady
  · exact h.alike.delivery? hl.old hplace
      (fun σ hσ => hg.source σ (h.holds.lookups_subset hl.ways _ _ hσ)) hsoft hsteady

/-- The same lines are printed for a file, and the same is delivered. -/
theorem Beside.abreast_file (h : c.Beside p w w') (hl : c.Leads p)
    (hg : c.Guides p dir f) (hdir : s.destinationDir = some dir) (hloops : s.loopCount ≠ 0)
    (hk : ∀ r : Record, r.file = f.name → kind (.record r)) :
    (mountedFile s f).dialogue.Abreast kind (mountedFile s f).dialogue w w' fun r u r' u' =>
      (∃ b, r = .ok b ∧ r' = .ok b) ∧ c.Beside (p.after c dir [f]) u u' := by
  obtain ⟨hsteady, hsteady', hx⟩ := h.same_delivery hl hg
  have hleft := prints_mountedFile hdir hloops h.smooth h.receives (h.left_old hl) hsteady rfl
  have hright := prints_mountedFile hdir hloops h.smooth' h.receives' (h.right_old hl)
    hsteady' hx
  have hgoes := h.receives.meets h.smooth.undisturbed (asks_mountedFile_local s f)
  refine (Abreast.of_prints (hleft.and_meets hgoes) hright ?_).weaken fun r u r' u' hpost => ?_
  · intro l hmem
    obtain ⟨r, rfl, hfile⟩ := mem_deliveryRows hmem
    exact hk r hfile
  · obtain ⟨⟨⟨hr, hsmooth, hreceives, hd⟩, hnodes⟩, hr', hsmooth', hreceives', hd'⟩ := hpost
    refine ⟨⟨_, hr, hr'⟩, ?_, hsmooth, hreceives, hsmooth', hreceives', ?_⟩
    · refine h.holds.around (fun σ hσ => ?_) (hl.stream ▸ hd.holds)
      obtain ⟨hσ, hvacant⟩ := target?_eq_some_iff.mp hσ
      exact h.holds.targets hg.allows hσ hvacant
    · have hdelivered := h.alike.delivered hl.old (h.dest_not_apart hl hg) hd hd'
        fun id up hid => hnodes.nodes.directory hid
      refine hdelivered.mono (fun σ hσ => ⟨hσ.1, ?_⟩) (fun _ => id) (fun _ => id) (Nat.le_refl _)
        (Nat.le_refl _)
      intro g hg' hready hclear hfirst
      cases List.mem_singleton.mp hg'
      exact hσ.2 (h.holds.target? hl.ways hclear hfirst)

theorem Beside.mono {q : Pairing} (h : c.Beside p w w') (ha : ∀ σ, p.apart σ → q.apart σ)
    (hs : q.soft = p.soft) (ht : q.stream = p.stream) (hn : q.newFrom = p.newFrom)
    (hn' : q.newFrom' = p.newFrom') : c.Beside q w w' where
  holds := h.holds
  smooth := ht ▸ h.smooth
  receives := h.receives
  smooth' := ht ▸ h.smooth'
  receives' := h.receives'
  alike := h.alike.mono ha (fun _ => hs ▸ id) (fun _ => ht ▸ id) (Nat.le_of_eq hn)
    (Nat.le_of_eq hn')

theorem Leads.lanes (hl : c.Leads p) (hdir : s.destinationDir = some dir) (hloops : s.loopCount ≠ 0)
    (hg : ∀ f ∈ files, f.isReady = true → c.Guides p dir f)
    (hk : ∀ f ∈ files, ∀ r : Record, r.file = f.name → kind (.record r)) :
    Lanes kind (mountedFile s) files fun done => c.Beside (p.after c dir done) where
  takes _ _ _ h := ⟨⟨h.smooth.undisturbed, h.receives⟩, h.smooth'.undisturbed, h.receives'⟩
  report _ _ _ _ h := h.left (h.smooth.undisturbed.idle (r := .report _) trivial)
  report' _ _ _ _ h := h.right (h.smooth'.undisturbed.idle (r := .report _) trivial)
  print _ line _ _ h := h.print (hl.after ..) line
  skip done f hf hnot w w' h := by
    refine h.mono (fun σ hσ => ⟨hσ.1, List.forall_mem_append.mpr ⟨hσ.2, ?_⟩⟩) rfl rfl rfl rfl
    refine List.forall_mem_singleton.mpr fun hr => ?_
    cases hnot.symm.trans hr
  file done f hf hr w w' h := by
    have hfile := h.abreast_file (hl.after ..) ((hg f hf hr).after done) hdir hloops (hk f hf)
    refine hfile.weaken fun r u r' u' hpost => ⟨hpost.1, ?_⟩
    exact hpost.2.mono (fun σ hσ => ⟨hσ.1.1, List.forall_mem_append.mpr ⟨hσ.1.2, hσ.2⟩⟩) rfl rfl
      rfl rfl

end Scene

end StorageTrials

import StorageTrials.Proofs.AllRows
import StorageTrials.Proofs.FileSystem.Opening
import StorageTrials.Proofs.Grouping
import StorageTrials.Proofs.MountedRun
import StorageTrials.Proofs.UndisturbedRun

namespace StorageTrials

open FileSystem Runner

variable {c : Scene} {w w' : Surroundings} {f : SourceFile} {path dir outfile : String}
variable {x : ByteArray} {out id : NodeId} {s : Settings} {fs fs' : FileSystem}
variable {files : List SourceFile}

namespace Scene

theorem meets_run_rows (hs : c.Serves dir (s.files.map (w.files.source s.sourceDir)))
    (hdir : s.destinationDir = some dir) (hloops : s.loopCount ≠ 0)
    (hsource : w.files.inspect s.sourceDir = .ok .directory) (h : c.Recording out w)
    (hx : w.files.content? out = some x) :
    ∃ groups, AllRows s.loopCount (s.files.map (w.files.source s.sourceDir)) groups ∧
      recordsIn ((mounted s).session.dialogue.moments Surroundings.answer w) =
        groups.flatMap (·.records) ∧
      (mounted s).session.dialogue.Meets Surroundings.answer (fun _ => True) w fun r w' =>
        r = .ok true ∧ c.Recording out w' ∧
          c.Delivered dir (s.files.map (w.files.source s.sourceDir)) w'.files ∧
          w'.files.content? out = some (x ++ (textOf (linesFor groups)).toUTF8) := by
  have hmeets := meets_run_ok hs hdir hloops hsource h
  have hprinted : ∀ m ∈ (mounted s).session.dialogue.moments Surroundings.answer w, m.Printed :=
    fun m hm => (hmeets.moments m hm).kept.printed
  have hfiles := (h.undisturbed.meets_resolveSources hsource s.files).ends.1
  obtain ⟨hok, hrest⟩ := hmeets.ends
  obtain ⟨groups, hgroups⟩ := runAll_accounted (accountsFile_mounted hloops
    (hdir ▸ Option.some_ne_none dir)) hfiles hprinted
  change Accounts _ _ _ ((mounted s).session.dialogue.result _ w) groups at hgroups
  rw [hok] at hgroups
  have hlines := linesOf_of_completed hgroups
  refine ⟨groups, allRows_of_completed hgroups fun m hm => (hmeets.moments m hm).row, ?_,
    fun _ _ => trivial, hok, hrest.1, hrest.2, ?_⟩
  · rw [recordsIn_of_printed hprinted]
    exact (congrArg _ hlines).trans (rowsOf_linesFor groups)
  · rw [content?_final (fun m hm => (hmeets.moments m hm).kept.appends) hx]
    exact congrArg (fun ls => some (x ++ (textOf ls).toUTF8)) hlines

end Scene

def Settings.sources (s : Settings) (fs : FileSystem) : List SourceFile :=
  s.files.map (fs.source s.sourceDir)

/-- Every ready file can be copied, and no way that matters leads by a name under which copies are
put. The file of the statistics is neither a source nor the file of the summary. All of this is
asked of the tree in which that file has been opened, as only then the sources are looked at. -/
structure Deliverable (s : Settings) (dir outfile : String) (fs : FileSystem) (out : NodeId) :
    Prop where
  places : ∀ f ∈ s.sources fs, f.isReady = true →
    ∃ σ, fs.place? (Path.join dir f.name) = some σ ∧
      ∀ id, fs.lookup? σ.1 σ.2 = some id → fs.isDirectory id = false
  same : ∀ f ∈ s.sources fs, ∀ g ∈ s.sources fs, f.isReady = true → g.isReady = true →
    fs.place? (Path.join dir f.name) = fs.place? (Path.join dir g.name) →
      fs.bytes? f.path = fs.bytes? g.path
  sources : ∀ f ∈ s.sources fs, f.isReady = true →
    Avoids fs dir (s.sources fs) .examine f.path ∧ fs.find f.path ≠ .ok out
  parents : ∀ f ∈ s.sources fs, f.isReady = true →
    Avoids fs dir (s.sources fs) .remove (Path.join dir f.name)
  output : Avoids fs dir (s.sources fs) .examine outfile
  summary : ∀ path, s.summaryPath = some path →
    Avoids fs dir (s.sources fs) .examine path ∧ fs.find path ≠ .ok out

def copyScene (fs : FileSystem) (dir : String) (files : List SourceFile) (out : NodeId) : Scene :=
  ⟨fs, fun _ => True, (· ∈ mountedTargets fs dir files), (· = out)⟩

namespace Deliverable

theorem source (h : Deliverable s dir outfile fs out) (hf : f ∈ s.sources fs)
    (hr : f.isReady = true) : ∃ x, (copyScene fs dir (s.sources fs) out).Source f x := by
  obtain ⟨x, hx, hsize⟩ := bytes?_of_ready hf hr
  obtain ⟨id, hid, hn⟩ := bytes?_eq_some_iff.mp hx
  obtain ⟨hapart, hne⟩ := h.sources _ hf hr
  exact ⟨x, hsize, ⟨id, hid, hn, fun he => hne (he ▸ hid)⟩, fun _ _ => trivial, hapart⟩

theorem admits (h : Deliverable s dir outfile fs out) (hf : f ∈ s.sources fs)
    (hr : f.isReady = true) :
    ∃ σ, (copyScene fs dir (s.sources fs) out).Admits (Path.join dir f.name) σ := by
  obtain ⟨σ, hσ, hd⟩ := h.places f hf hr
  refine ⟨σ, ⟨⟨fun _ _ => trivial, fun _ _ => trivial⟩, fun τ hτ _ => ?_⟩, hσ, hd,
    h.parents f hf hr⟩
  cases hσ.symm.trans hτ
  exact mem_mountedTargets_of_place? hf hr hσ hd

theorem serves (h : Deliverable s dir outfile fs out) :
    (copyScene fs dir (s.sources fs) out).Serves dir (s.sources fs) where
  admits _ hf hr := h.admits hf hr
  source _ hf hr := h.source hf hr
  same := h.same

end Deliverable

namespace Scene

/-- Whole copies stand in the directory, and the file of the statistics holds a text. -/
structure Leaves (c : Scene) (dir : String) (files : List SourceFile) (outfile : String)
    (out : NodeId) (text : ByteArray) (fs : FileSystem) : Prop where
  delivered : c.Delivered dir files fs
  found : fs.find outfile = .ok out
  content : fs.content? out = some text

variable {text : ByteArray}

theorem Holds.create (h : c.Holds fs) (hw : ∀ σ ∈ c.first.lookups .examine path, c.ways σ)
    (ht : ∀ σ ∈ c.first.lookups .examine path, ¬ c.targets σ)
    (hok : fs.create path = .ok (fs', id)) :
    c.first.find path = .ok id ∧ id < c.first.nodes.size ∨ fs.nodes.size ≤ id := by
  obtain ⟨d, n, hl, ⟨-, hadd⟩ | ⟨hc, -⟩⟩ := create_cases hok
  · exact .inr (Nat.le_of_eq (Prod.mk.inj hadd).2.symm)
  · rcases (h.locate hw).spot with ⟨hsame, hk⟩ | ⟨σ, hσ, hσ', -⟩
    · have hfirst := hsame.symm.trans (locate_examine_of_create hl)
      rw [(hk (d, n) (mem_lookups hfirst)).child] at hc
      refine .inl ⟨?_, h.first.lt_size (child_eq_ok_iff.mp hc).2⟩
      rw [find_of_entry hfirst, hc]
      rfl
    · exact absurd hσ' (ht σ hσ)

theorem Leaves.saveText (hl : c.Leaves dir files outfile out text fs) (h : c.Holds fs)
    (hw : ∀ σ ∈ c.first.lookups .examine path, c.ways σ)
    (ht : ∀ σ ∈ c.first.lookups .examine path, ¬ c.targets σ) (hne : c.first.find path ≠ .ok out)
    (summary : String) : c.Leaves dir files outfile out text (fs.saveText path summary).1 := by
  rcases saveText_cases h.wellFormed path summary with he | ⟨fs₁, id, hok, hext⟩
  · rw [he]
    exact hl
  · have hid := h.create hw ht hok
    have hout : out ≠ id := by
      rintro rfl
      rcases hid with ⟨hf, -⟩ | hle
      · exact hne hf
      · exact absurd (lt_size_of_node? (content?_eq_some_iff.mp hl.content)) (Nat.not_lt.mpr hle)
    refine ⟨fun f hf hr x hx => ?_, (hext.find hl.found).1, ?_⟩
    · obtain ⟨i, hi, hle, hn⟩ := hl.delivered f hf hr x hx
      have hne : i ≠ id := by
        rintro rfl
        rcases hid with ⟨-, hlt⟩ | hle'
        · exact absurd hlt (Nat.not_lt.mpr hle)
        · exact absurd (lt_size_of_node? hn) (Nat.not_lt.mpr hle')
      obtain ⟨hi', hn'⟩ := hext.standing? hi
      exact ⟨i, hi', hle, (hn' hne).trans hn⟩
    · rcases (hext.find hl.found).2 with hn | ⟨hs, -⟩
      · exact content?_eq_some_iff.mpr (hn.trans (content?_eq_some_iff.mp hl.content))
      · exact absurd hs hout

end Scene

end StorageTrials

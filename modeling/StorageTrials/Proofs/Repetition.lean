import StorageTrials.Proofs.Isolation
import StorageTrials.Proofs.SecondRun

namespace StorageTrials

open FileSystem Invocation Runner Surroundings

/-- What is seen of an invocation from outside. -/
structure Account where
  lines : List Line
  code? : Option Int
  files : FileSystem

def Invocation.account (i : Invocation) (w : Surroundings) : Account where
  lines := linesOf (i.run.run.moments answer w)
  code? := (i.run.run.result answer w).map (·.1)
  files := (i.run.run.final answer w).files

/-- A second invocation ends as the first did. Both leave their own lines in the file of the
statistics, if that can be opened, and the second leaves the tree as the first has left it. -/
structure Settings.Repeats (s : Settings) (w : Surroundings) (a a' : Account) : Prop where
  code : a'.code? = a.code?
  written : ¬ CannotOpen w s.outfile → s.Written a.lines a.files ∧ s.Written a'.lines a'.files
  restores : s.Restores a.files a'.files

variable {s : Settings} {dir : String} {w w' u u' : Surroundings} {a a' : Account}
variable {saved? saved?' : Option String} {store : StoreId}

namespace Settings

theorem Comes.of_cannotOpen (h : s.Comes w a.lines a.code? a.files)
    (hcannot : CannotOpen w s.outfile) :
    a.lines = [] ∧ a.code? = some notRunnable ∧ a.files = w.files := by
  have hopened {u : Surroundings} (hu : Opened w.files s.outfile u) : False := by
    obtain ⟨path, e, hp, hcreate⟩ := hcannot
    obtain ⟨fs', id, hok, -⟩ := hu.file path hp
    cases hcreate.symm.trans hok
  cases h with
  | refused h hl hc hfiles => exact ⟨hl, hc, hfiles⟩
  | carried u saved? hu => exact (hopened hu).elim
  | broken u hu => exact (hopened hu).elim

/-- An invocation with rows whose bytes leave their range has no end. -/
theorem Comes.code_eq_none (h : s.Comes w a.lines a.code? a.files) (hwf : w.files.WellFormed)
    (ha : s.Acceptable w.files) (hnot : ¬ BytesFit (rowsOf a.lines)) : a.code? = none := by
  cases h with
  | refused h hl hc hfiles =>
    rw [hl] at hnot
    exact absurd (fun _ => Nat.two_pow_pos 64) hnot
  | carried u saved? hu hfit hl hend =>
    rw [hl, ← hu.records (hu.inspect_directory hwf ha.source)] at hnot
    exact absurd hfit hnot
  | broken u hu hfull hrows hc => exact hc

theorem HasRun.can_open (h : s.HasRun dir saved? w.files u w'.files) :
    ¬ CannotOpen w' s.outfile := by
  rintro ⟨path, e, hp, hcreate⟩
  obtain ⟨id, hopens, -⟩ := h.started.opens h.wellFormed hp
  obtain ⟨fs', hok⟩ := (h.carries.opens_last hp hopens).create
  cases hcreate.symm.trans hok

theorem HasRun.ends_alike (h : s.HasRun dir saved? w.files u w'.files)
    (h' : Opened w'.files s.outfile u') (hend : s.Ends u saved? a.code? a.files)
    (hend' : s.Ends u' saved?' a'.code? a'.files)
    (ht : TimesFit (s.mountedRecords u') ↔ TimesFit (s.mountedRecords u)) :
    a'.code? = a.code? ∧ saved?' = saved? := by
  by_cases hfit : Fits (s.mountedRecords u)
  · have hmissed : s.missed u' = s.missed u := by
      unfold Settings.missed
      rw [(h.abreast h').ends.1]
    obtain ⟨hc, hs⟩ := hend.fits hfit
    obtain ⟨hc', hs'⟩ := hend'.fits ((h.fits_iff h' ht).mpr hfit)
    rw [hc, hs, hc', hs', hmissed]
    exact ⟨rfl, rfl⟩
  · obtain ⟨hc, hs⟩ := hend.overflow hfit
    obtain ⟨hc', hs'⟩ := hend'.overflow fun hf => hfit ((h.fits_iff h' ht).mp hf)
    rw [hc, hs, hc', hs']
    exact ⟨rfl, rfl⟩

theorem HasRun.repeats (h : s.HasRun dir saved? w.files u w'.files)
    (h' : Opened w'.files s.outfile u') (hfiles : w'.files = a.files)
    (hl : a.lines = linesOf ((mounted s).session.dialogue.moments answer u))
    (hl' : a'.lines = linesOf ((mounted s).session.dialogue.moments answer u'))
    (hend : s.Ends u saved? a.code? a.files) (hend' : s.Ends u' saved?' a'.code? a'.files) :
    a'.lines.map Line.untimed = a.lines.map Line.untimed ∧
      ((TimesFit (rowsOf a'.lines) ↔ TimesFit (rowsOf a.lines)) → s.Repeats w a a') := by
  have hrows : s.mountedRecords u = rowsOf a.lines := by rw [h.started.records h.source, hl]
  have hrows' : s.mountedRecords u' = rowsOf a'.lines := by
    rw [h'.records (h.source_second h'), hl']
  constructor
  · rw [hl, hl', ← printed, ← printed, (h.abreast h').lines]
  · intro ht
    rw [← hrows, ← hrows'] at ht
    obtain ⟨hcode, rfl⟩ := h.ends_alike h' hend hend' ht
    have hwritten := h.written h'
    have hrestores := h.restores h' hend'.saved
    rw [hfiles, ← hl] at hwritten
    rw [hfiles] at hrestores
    exact ⟨hcode, fun _ => ⟨hwritten, hl' ▸ h.written_second h' hend'.saved⟩, hrestores⟩

theorem Comes.repeats (h : s.Comes w a.lines a.code? a.files) (hwf : w.files.WellFormed)
    (hdir : s.destinationDir = some dir) (ha : s.Acceptable w.files) (hs : s.Separate dir w.files)
    (hfiles : w'.files = a.files)
    (h' : s.Acceptable w'.files → s.Comes w' a'.lines a'.code? a'.files)
    (hbytes : BytesFit (rowsOf a.lines)) :
    a'.lines.map Line.untimed = a.lines.map Line.untimed ∧
      ((TimesFit (rowsOf a'.lines) ↔ TimesFit (rowsOf a.lines)) → s.Repeats w a a') := by
  cases h with
  | refused hcannot hl hc hsame =>
    have hsame' : w'.files = w.files := hfiles.trans hsame
    have hcannot' : CannotOpen w' s.outfile := by
      unfold CannotOpen
      rwa [hsame']
    obtain ⟨hl', hc', hkept⟩ := (h' (hsame' ▸ ha)).of_cannotOpen hcannot'
    refine ⟨by rw [hl', hl], fun _ => ⟨hc'.trans hc.symm, fun hnot => absurd hcannot hnot, ?_⟩⟩
    rw [hkept, hfiles]
    exact .refl s a.files
  | broken u hu hfull hrows hc => exact absurd hbytes hrows
  | carried u saved? hu hfit hl hend =>
    have hrun : s.HasRun dir saved? w.files u w'.files :=
      ⟨hwf, hdir, ha, hs, hu, fun _ => hend.summary, hfiles ▸ hend.saved⟩
    cases h' hrun.acceptable_last with
    | refused hcannot => exact absurd hcannot hrun.can_open
    | broken u' hu' hfull hrows hc => exact absurd ((hrun.bytesFit_iff hu').mpr hfit) hfull
    | carried u' saved?' hu' hfit' hl' hend' => exact hrun.repeats hu' hfiles hl hl' hend hend'

end Settings

/-- An invocation for the mounted directory repeats what the one before it did, and a run over a
store repeats what the run before it did, whether or not all files could be tried, as long as the
bytes of their rows stay in range. -/
theorem second_run_repeats_the_first :
    (∀ i i' : Invocation, i.settings = some s → i'.settings = some s → w.Undisturbed →
      w'.Undisturbed → w.files.WellFormed → s.mode = .mounted → s.destinationDir = some dir →
      Accepted s w .mounted → s.Separate dir w.files → w'.files = (i.account w).files →
      (BytesFit (rowsOf (i.account w).lines) →
        (i'.account w').lines.map Line.untimed = (i.account w).lines.map Line.untimed ∧
        ((TimesFit (rowsOf (i'.account w').lines) ↔ TimesFit (rowsOf (i.account w).lines)) →
          s.Repeats w (i.account w) (i'.account w'))) ∧
      (¬ BytesFit (rowsOf (i.account w).lines) → (i.account w).code? = none)) ∧
    (s.Begins store w → s.Begins store w' →
      (∀ f ∈ s.files, w'.files.bytes? (Path.join s.sourceDir f) =
        w.files.bytes? (Path.join s.sourceDir f)) →
      (w'.Receives ↔ w.Receives) →
      w'.versionsOf store = (((direct s store).run .empty).final answer w).versionsOf store →
      BytesFit (rowsOf (linesOf (((direct s store).run .empty).moments answer w))) →
      printed (((direct s store).run .empty).moments answer w') =
        printed (((direct s store).run .empty).moments answer w) ∧
      (((direct s store).run .empty).result answer w').map (·.2) =
        (((direct s store).run .empty).result answer w).map (·.2) ∧
      (((direct s store).run .empty).final answer w').versionsOf store =
        (((direct s store).run .empty).final answer w).versionsOf store) := by
  constructor
  · intro i i' hi hi' hu hu' hwf hmode hdir haccepted hseparate hfiles
    have hacceptable := ((hu.meets_checkFor s).ends.1).mp haccepted
    have hcomes : s.Comes w (i.account w).lines (i.account w).code? (i.account w).files :=
      puts_run hu hmode hacceptable hi
    refine ⟨hcomes.repeats hwf hdir hacceptable hseparate hfiles fun hacceptable' => ?_,
      hcomes.code_eq_none hwf hacceptable⟩
    exact puts_run hu' hmode hacceptable' hi'
  · intro hbegins hbegins' hsources hreceives hheld hbytes
    obtain ⟨t, -, hrun⟩ := Dialogue.passes_tallied (Dialogue.bytesFit_of_tallied hbytes)
    rw [Runner.run, hrun.final] at hheld
    rw [Runner.run, hrun.moments] at hbytes
    have hagain := hbegins.again hbegins' hsources hreceives hheld
    have hsame : (printed ((direct s store).session.dialogue.moments answer w')).Sublist
        (printed ((direct s store).session.dialogue.moments answer w)) := by
      rw [hagain.lines]
    obtain ⟨t', -, hrun'⟩ := Dialogue.passes_tallied (bytesFit_of_printed hbytes hsame)
    rw [Runner.run, hrun.moments, hrun.result, hrun.final, hrun'.moments, hrun'.result, hrun'.final]
    exact ⟨hagain.lines.symm, congrArg some hagain.ends.1, hagain.ends.2⟩

def sampleAgain : Settings :=
  { sampleSettings with
    files := ["a", "b", "c", "d"], outfile := some "rows", summaryPath := some "gone/summary" }

def sampleLeft : Surroundings :=
  .calm ((idle.configure sampleAgain).account (.calm sampleCrowded)).files

theorem files_sampleLeft :
    sampleLeft.files = ((idle.configure sampleAgain).account (.calm sampleCrowded)).files := by
  rw [sampleLeft, Surroundings.calm]

def sampleShelved (m : MemoryStore) : Surroundings :=
  { Surroundings.calm sampleCrowded with stores := #[.calm m] }

theorem files_sampleShelved (m : MemoryStore) : (sampleShelved m).files = sampleCrowded := rfl

theorem versionsOf_sampleShelved (m : MemoryStore) :
    (sampleShelved m).versionsOf 0 = m.versionsOf := rfl

theorem receives_sampleShelved (m : MemoryStore) : (sampleShelved m).Receives := trivial

def sampleStored : MemoryStore :=
  (((direct sampleAgain 0).run .empty).final answer (sampleShelved sampleLittered)).memory 0

theorem versionsOf_sampleStored :
    (((direct sampleAgain 0).run .empty).final answer (sampleShelved sampleLittered)).versionsOf 0 =
      sampleStored.versionsOf := rfl

theorem wellFormed_sampleCrowded : sampleCrowded.WellFormed :=
  ⟨by decide, by decide, by decide, by decide⟩

theorem separate_sampleAgain : sampleAgain.Separate "dst" sampleCrowded where
  sourceDir := by decide +kernel
  destinationDir := by decide +kernel
  sources := by decide +kernel
  parents := by decide +kernel
  outputs path hp purpose := by
    revert path
    cases purpose <;> decide +kernel
  apart path path' hp hs id hid := by
    have hnone : (sampleAgain.prepared sampleCrowded).find "gone/summary" = .error .noEntry := by
      decide +kernel
    cases hs
    rw [hnone]
    exact fun h => (nomatch h)
  unlisted path hp f hf id hid hid' := by
    have hother : ∀ path ∈ sampleAgain.outputs, ∀ f ∈ sampleAgain.files,
        (sampleAgain.prepared sampleCrowded).find path = .error .noEntry ∨
          (sampleAgain.prepared sampleCrowded).find path ≠
            (sampleAgain.prepared sampleCrowded).find (Path.join "src" f) := by decide +kernel
    obtain hnone | hne := hother path hp f hf
    · cases hid.symm.trans hnone
    · exact hne (hid.trans hid'.symm)

theorem accepted_sampleAgain : Accepted sampleAgain (.calm sampleCrowded) .mounted := by
  unfold Accepted
  decide +kernel

theorem begins_sampleAgain (m : MemoryStore) : sampleAgain.Begins 0 (sampleShelved m) where
  undisturbed := ⟨fun _ => rfl, fun _ => rfl, fun _ => rfl, fun _ => rfl, rfl⟩
  wellFormed := wellFormed_sampleCrowded
  loops := by decide
  source := show sampleCrowded.inspect "src" = .ok .directory by decide +kernel
  reliable _ hk := nomatch hk
  output _ hid := nomatch hid
  stream _ _ _ hid := nomatch hid
  stocks := ⟨m, rfl, rfl⟩

theorem second_run_repeats_the_first_crowded :
    sampleAgain.Repeats (.calm sampleCrowded)
        ((idle.configure sampleAgain).account (.calm sampleCrowded))
        ((idle.configure sampleAgain).account sampleLeft) ∧
      ((idle.configure sampleAgain).account sampleLeft).code? = some 1 ∧
      (rowsOf ((idle.configure sampleAgain).account sampleLeft).lines).map (·.file) =
        ["a", "a", "a", "a", "c", "c", "c", "c"] ∧
      (((direct sampleAgain 0).run .empty).final answer (sampleShelved sampleStored)).versionsOf 0 =
        sampleStored.versionsOf := by
  have hrepeats := (@second_run_repeats_the_first sampleAgain "dst" (.calm sampleCrowded) sampleLeft
    0).1 (idle.configure sampleAgain) (idle.configure sampleAgain) rfl rfl (undisturbed_calm _)
    (undisturbed_calm _) wellFormed_sampleCrowded rfl rfl accepted_sampleAgain separate_sampleAgain
    files_sampleLeft
  have hstore := (@second_run_repeats_the_first sampleAgain "dst" (sampleShelved sampleLittered)
    (sampleShelved sampleStored) 0).2 (begins_sampleAgain _) (begins_sampleAgain _)
    (fun _ _ => by rw [files_sampleShelved, files_sampleShelved])
    (iff_of_true (receives_sampleShelved _) (receives_sampleShelved _))
    ((versionsOf_sampleShelved _).trans versionsOf_sampleStored.symm) (by decide +kernel)
  have hlines : ((idle.configure sampleAgain).account sampleLeft).lines =
      ((idle.configure sampleAgain).account (.calm sampleCrowded)).lines := by decide +kernel
  refine ⟨(hrepeats.1 (by decide +kernel)).2 ?_, by decide +kernel, by decide +kernel,
    hstore.2.2.trans versionsOf_sampleStored⟩
  rw [hlines]

def sampleTired (fs : FileSystem) : Surroundings :=
  { Surroundings.calm fs with
    schedule := fun _ => { Turn.calm with elapsed := ⟨2 ^ 63 * 1000000000, by decide⟩ } }

theorem undisturbed_sampleTired (fs : FileSystem) : (sampleTired fs).Undisturbed :=
  ⟨fun _ => rfl, fun _ => rfl, fun _ => rfl, fun _ => rfl, rfl⟩

theorem separate_sampleLavish : sampleLavish.Separate "dst" sampleBulky where
  sourceDir := by decide +kernel
  destinationDir := by decide +kernel
  sources := by decide +kernel
  parents := by decide +kernel
  outputs path hp purpose := by
    revert path
    cases purpose <;> decide +kernel
  apart path path' hp hs := nomatch hs
  unlisted path hp f hf id hid hid' := by
    have hother : ∀ path ∈ sampleLavish.outputs, ∀ f ∈ sampleLavish.files,
        (sampleLavish.prepared sampleBulky).find path ≠
          (sampleLavish.prepared sampleBulky).find (Path.join "src" f) := by decide +kernel
    exact hother path hp f hf (hid.trans hid'.symm)

theorem code?_sampleLavish :
    ((idle.configure sampleLavish).account (.calm sampleBulky)).code? = none := by
  simp only [Invocation.account, result_sampleBulky, Option.map_none]

/-- A second invocation has no end if its times can no longer be added up, and even a first one has
none if the bytes of its rows cannot. -/
theorem second_run_may_have_no_end :
    (Surroundings.calm sampleCrowded).Undisturbed ∧ sampleCrowded.WellFormed ∧
      sampleAgain.mode = .mounted ∧ sampleAgain.destinationDir = some "dst" ∧
      Accepted sampleAgain (.calm sampleCrowded) .mounted ∧
      sampleAgain.Separate "dst" sampleCrowded ∧
      ((idle.configure sampleAgain).account (.calm sampleCrowded)).code? = some 1 ∧
      (sampleTired sampleLeft.files).Undisturbed ∧
      sampleLeft.files = ((idle.configure sampleAgain).account (.calm sampleCrowded)).files ∧
      ((idle.configure sampleAgain).account (sampleTired sampleLeft.files)).code? = none ∧
    (Surroundings.calm sampleBulky).Undisturbed ∧ sampleBulky.WellFormed ∧
      sampleLavish.mode = .mounted ∧ sampleLavish.destinationDir = some "dst" ∧
      Accepted sampleLavish (.calm sampleBulky) .mounted ∧
      sampleLavish.Separate "dst" sampleBulky ∧
      ((idle.configure sampleLavish).account (.calm sampleBulky)).code? = none :=
  ⟨undisturbed_calm _, wellFormed_sampleCrowded, rfl, rfl, accepted_sampleAgain,
    separate_sampleAgain, by decide +kernel, undisturbed_sampleTired _, files_sampleLeft,
    by decide +kernel, undisturbed_calm _, undisturbedStart_sampleBulky.wellFormed, rfl, rfl,
    undisturbedStart_sampleBulky.accepted, separate_sampleLavish,
    code?_sampleLavish⟩

end StorageTrials

import StorageTrials.Proofs.MountedTrials
import StorageTrials.Proofs.Stream
import StorageTrials.Proofs.Undisturbed

namespace StorageTrials

open FileSystem Runner

variable {c : Scene} {w w' : Surroundings} {f : SourceFile} {dest : String} {σ : Slot}
variable {x : ByteArray} {out : NodeId} {s : Settings}

structure Moment.Kept (out : NodeId) (m : Moment Surroundings) : Prop where
  printed : m.Printed
  appends : m.Appends out

theorem Moment.kept_of_quiet {m : Moment Surroundings} (hq : m.line? = none)
    (hn : m.after.files.content? out = m.before.files.content? out) : m.Kept out := by
  refine ⟨printed_of_line? hq, fun x hx => ?_⟩
  rw [hn, hx, hq]
  exact congrArg some ByteArray.append_empty.symm

theorem Moment.Still.line?_eq_none {m : Moment Surroundings} (h : m.Still) : m.line? = none := by
  obtain ⟨u, r, a, u'⟩ := m
  cases r with
  | print line => exact h.idle.elim
  | _ => rfl

theorem Moment.Still.kept {m : Moment Surroundings} (h : m.Still) (out : NodeId) : m.Kept out :=
  kept_of_quiet h.line?_eq_none (congrArg (·.content? out) h.files)

theorem Surroundings.Undisturbed.run_copy (h : w.Undisturbed) {source : String}
    (hx : w.files.bytes? source = some x) (hp : w.files.place? dest = some σ)
    (hfree : w.files.lookup? σ.1 σ.2 = none) (limit : Option Duration) :
    ∃ t w', (Surroundings.answer (.trial (.copy source dest) limit)).run w =
        (.ok ⟨x.size, t⟩, w') ∧ w.Proceeds (w.files.add σ.1 σ.2 (.file x)).1 w' := by
  obtain ⟨id, hf, hn⟩ := bytes?_eq_some_iff.mp hx
  obtain ⟨hans, hw⟩ := h.run_trial limit (show w.workOn? _ (.copy source dest) = some _ from rfl)
  simp only [copy_complete hf hn hp hfree (show 0 < chunkSize by decide)] at hans hw
  exact ⟨_, _, Prod.ext hans rfl, hw⟩

theorem Surroundings.Undisturbed.run_drain (h : w.Undisturbed)
    (hx : w.files.bytes? dest = some x) (limit : Option Duration) :
    ∃ t w', (Surroundings.answer (.trial (.drain dest) limit)).run w = (.ok ⟨x.size, t⟩, w') ∧
      w.Proceeds w.files w' := by
  obtain ⟨hans, hw⟩ := h.run_trial limit (show w.workOn? _ (.drain dest) = some _ from rfl)
  simp only [drain_complete hx (show 0 < chunkSize by decide)] at hans hw
  exact ⟨_, _, Prod.ext hans rfl, hw⟩

namespace Scene

/-- A run that nobody disturbs, with its stream in a file. -/
structure Recording (c : Scene) (out : NodeId) (w : Surroundings) : Prop extends c.Underway w where
  undisturbed : w.Undisturbed
  output : w.output = .file out
  isFile : w.files.isFile out
  streams : ∀ id, c.stream id → id = out

/-- A copy may be put at the end of a path, under a name where no directory stands; no way there
leads by names under which copies are put. -/
structure Admits (c : Scene) (path : String) (σ : Slot) : Prop extends c.Allows path where
  here : c.first.place? path = some σ
  vacant : ∀ id, c.first.lookup? σ.1 σ.2 = some id → c.first.isDirectory id = false
  apart : ∀ τ ∈ c.first.lookups .remove path, ¬ c.targets τ

variable {fs : FileSystem} {id : NodeId}

theorem Admits.place?_eq (ha : c.Admits dest σ) (h : c.Holds fs) : fs.place? dest = some σ :=
  (h.place?_eq ha.lookups ha.apart).trans ha.here

theorem Admits.isDirectory (ha : c.Admits dest σ) (h : c.Holds fs)
    (hid : fs.lookup? σ.1 σ.2 = some id) : fs.isDirectory id = false :=
  h.vacant (ha.place σ ha.here) ha.vacant id hid

theorem Recording.proceed (h : c.Recording out w) (hw : w.Proceeds fs w') (hfs : c.Holds fs)
    (hf : fs.isFile out) : c.Recording out w' where
  files := hw.files ▸ hfs
  others k fs := by
    rw [hw.undisturbed.change]
    exact .refl _ fs
  stream id hid := h.stream id (hw.output ▸ hid)
  permits := hw.undisturbed.denial
  undisturbed := hw.undisturbed
  output := hw.output.trans h.output
  isFile := hw.files ▸ hf
  streams := h.streams

theorem Recording.out_lt (h : c.Recording out w) : out < c.first.nodes.size :=
  (h.stream out h.output).2

theorem Recording.idle (h : c.Recording out w) (hw : w.Proceeds w.files w') :
    c.Recording out w' :=
  h.proceed hw h.files h.isFile

theorem Recording.remove (h : c.Recording out w) (ha : c.Admits dest σ) :
    ∃ r w', (Surroundings.answer (.remove dest)).run w = (r, w') ∧
      (r = .ok () ∨ r = .error .noEntry) ∧ c.Recording out w' ∧
      w'.files.lookup? σ.1 σ.2 = none ∧ w'.files.content? out = w.files.content? out := by
  have hplace := ha.place?_eq h.files
  refine ⟨_, _, (Prod.eta _).symm, ?_⟩
  rcases h.undisturbed.run_remove dest with ⟨fs, hr, hok, hw⟩ | ⟨e, hr, herr, hw⟩
  · obtain ⟨τ, id, hτ, he, hd, rfl⟩ := remove_eq_ok h.files.wellFormed hr
    cases hplace.symm.trans hτ
    have hdrop := h.files.drop (ha.target σ ha.here ha.vacant)
    refine ⟨.inl hok, h.proceed hw hdrop ?_, ?_, ?_⟩
    · exact h.isFile
    · rw [hw.files]
      exact lookup?_drop_self _ _ _
    · rw [hw.files]
      rfl
  · cases he : w.files.lookup? σ.1 σ.2 with
    | some id =>
      rw [remove_of_standing hplace he (ha.isDirectory h.files he)] at hr
      cases hr
    | none =>
      rw [remove_of_free hplace he] at hr
      cases hr
      refine ⟨.inr herr, h.idle hw, ?_, ?_⟩
      · rw [hw.files, he]
      · rw [hw.files]

theorem Recording.copyTo (h : c.Recording out w) (ha : c.Admits dest σ) (hs : c.Source f x)
    (hfree : w.files.lookup? σ.1 σ.2 = none) (limit : Option Duration) :
    ∃ t w', (Surroundings.answer (.trial (.copy f.path dest) limit)).run w =
        (.ok ⟨x.size, t⟩, w') ∧ c.Recording out w' ∧ c.HoldsCopy dest x w'.files ∧
      w'.files.content? out = w.files.content? out := by
  have hplace := ha.place?_eq h.files
  obtain ⟨t, w', hrun, hw⟩ := h.undisturbed.run_copy (hs.bytes? h.files) hplace hfree limit
  have hadd := h.files.add (ha.target σ ha.here ha.vacant) hfree (x := x)
  have hout : (w.files.add σ.1 σ.2 (.file x)).1.node? out = w.files.node? out :=
    node?_add_of_lt (Nat.lt_of_lt_of_le h.out_lt h.files.size)
  refine ⟨t, w', hrun, h.proceed hw hadd ?_, ?_, ?_⟩
  · rw [isFile_congr hout]
    exact h.isFile
  · rw [hw.files]
    exact ⟨_, standing?_add h.files.wellFormed hplace hfree, h.files.size, node?_add_self⟩
  · rw [hw.files, content?, hout, content?]

theorem Recording.print (h : c.Recording out w) (line : Line) :
    ∃ w', (Surroundings.answer (.print line)).run w = (.ok (), w') ∧ c.Recording out w' ∧
      c.Drifts w.files w'.files ∧
      Moment.Kept out ⟨w, .print line, ((Surroundings.answer (.print line)).run w).1,
        ((Surroundings.answer (.print line)).run w).2⟩ := by
  obtain ⟨x, hx⟩ := Option.isSome_iff_exists.mp h.isFile
  have hn := content?_eq_some_iff.mp hx
  obtain ⟨hans, hw⟩ := h.undisturbed.run_print h.output hx line
  obtain ⟨hs, hlt⟩ := h.stream out h.output
  have happend : (w.files.append out line.text.toUTF8).1 =
      w.files.set out (.file (x ++ line.text.toUTF8)) := by
    rw [FileSystem.append, hn]
  have hnew := node?_set_self (n := .file (x ++ line.text.toUTF8)) (lt_size_of_node? hn)
  refine ⟨_, Prod.ext hans rfl, h.proceed hw (h.files.append hs) ?_, ?_, hans, fun y hy => ?_⟩
  · rw [happend]
    exact isFile_iff.mpr ⟨_, hnew⟩
  · rw [hw.files]
    exact ⟨w.files, .refl _ _, .inr ⟨out, _, hs, hlt, rfl⟩⟩
  · cases hx.symm.trans hy
    change _ = some (x ++ (textOf [line]).toUTF8)
    rw [hw.files, happend, textOf_singleton]
    exact content?_eq_some_iff.mpr hnew

structure Records (out : NodeId) (f : SourceFile) (m : Moment Surroundings) : Prop where
  kept : m.Kept out
  row : ∀ r, m.line? = some (.record r) → r.file = f.name ∧ f.size? = some r.size

theorem records_of_kept {m : Moment Surroundings} (hq : m.line? = none) (hk : m.Kept out) :
    Records out f m :=
  ⟨hk, fun _ hr => nomatch hq.symm.trans hr⟩

theorem Still.records {m : Moment Surroundings} (h : m.Still) : Records out f m :=
  records_of_kept h.line?_eq_none (h.kept out)

theorem meets_clear (h : c.Recording out w) (ha : c.Admits dest σ) :
    (removeIfPresent dest).Meets Surroundings.answer (Records out f) w fun _ w' =>
      c.Recording out w' ∧ w'.files.lookup? σ.1 σ.2 = none := by
  obtain ⟨r, w₁, hrun, hr, h₁, hfree, hout⟩ := h.remove ha
  refine .ask_bind (records_of_kept rfl (Moment.kept_of_quiet rfl ?_)) ?_
  · rw [hrun]
    exact hout
  · rw [hrun]
    rcases hr with rfl | rfl <;> exact .done ⟨h₁, hfree⟩

theorem meets_row (h : c.Recording out w) {P : FileSystem → Prop} (hs : c.Stable P)
    (hP : P w.files) (place : TrialPlace) (hplace : place.file = f.name) (op : Operation)
    {r : Sample} (hr : f.size? = some r.bytes) :
    (settle place op (.ok r)).dialogue.Meets Surroundings.answer (Records out f) w fun b w' =>
      b = .ok true ∧ c.Recording out w' ∧ P w'.files := by
  rw [settle_ok]
  obtain ⟨w₁, hrun, h₁, hdrift, hkept⟩ := h.print (row place.file op r)
  refine .ask ⟨hkept, fun row hrow => ?_⟩ ?_
  · cases hrow
    exact ⟨hplace, hr⟩
  · rw [hrun]
    exact .done ⟨rfl, h₁, hs _ _ h.files hP hdrift⟩

theorem meets_write (h : c.Recording out w) (ha : c.Admits dest σ) (hs : c.Source f x)
    (s : Settings) (i : Nat) :
    (mountedWrite s f dest i).dialogue.Meets Surroundings.answer (Records out f) w fun r w' =>
      r = .ok true ∧ c.Recording out w' ∧ c.HoldsCopy dest x w'.files := by
  refine .lift_bind ((meets_clear h ha).weaken fun _ w₁ hpost => ?_)
  obtain ⟨h₁, hfree⟩ := hpost
  obtain ⟨t, w₂, hrun, h₂, hcopy, hout⟩ := h₁.copyTo ha hs hfree s.timeout
  refine .lift_bind (.ask (records_of_kept rfl (Moment.kept_of_quiet rfl ?_)) (.done ?_))
  · rw [hrun]
    exact hout
  · rw [hrun]
    exact meets_row h₂ (stable_holdsCopy ha.toCovers x) hcopy _ rfl _ hs.size

theorem meets_read (h : c.Recording out w) (ha : c.Admits dest σ) (hs : c.Source f x)
    (hc : c.HoldsCopy dest x w.files) (s : Settings) (i : Nat) :
    (mountedRead s f dest i).dialogue.Meets Surroundings.answer (Records out f) w fun r w' =>
      r = .ok true ∧ c.Recording out w' ∧ c.HoldsCopy dest x w'.files := by
  obtain ⟨t, w₁, hrun, hw⟩ := h.undisturbed.run_drain hc.bytes? s.timeout
  refine .lift_bind (.ask (records_of_kept rfl (Moment.kept_of_quiet rfl ?_)) (.done ?_))
  · rw [hrun, hw.files]
  · rw [hrun]
    exact meets_row (h.idle hw) (stable_holdsCopy ha.toCovers x) (hw.files ▸ hc) _ rfl _ hs.size

theorem meets_copied (h : c.Recording out w) (hs : c.Source f x)
    (hc : c.HoldsCopy dest x w.files) :
    (isCopied f dest).Meets Surroundings.answer (Records out f) w fun b w' =>
      b = true ∧ c.Recording out w' ∧ c.HoldsCopy dest x w'.files := by
  have hw := h.undisturbed.idle (r := .inspect dest) trivial
  refine .ask_bind (Still.records ⟨trivial, hw.files⟩) ?_
  rw [h.undisturbed.run_inspect, inspect_of_bytes? hc.bytes?]
  change (if some x.size = f.size? then (pure true : Dialogue Bool) else _).Meets _ _ _ _
  rw [if_pos hs.size.symm]
  exact .done ⟨rfl, h.idle hw, hw.files ▸ hc⟩

/-- Every trial of a file comes to its end, and a whole copy is left. -/
theorem meets_file {dir : String} (hdir : s.destinationDir = some dir) (hloops : s.loopCount ≠ 0)
    (h : c.Recording out w) (ha : c.Admits (Path.join dir f.name) σ) (hs : c.Source f x) :
    (mountedFile s f).dialogue.Meets Surroundings.answer (Records out f) w fun r w' =>
      r = .ok true ∧ c.Recording out w' ∧ c.HoldsCopy (Path.join dir f.name) x w'.files := by
  rw [mountedFile, hdir]
  have hwrites := meets_trials_ok (fun _ hw => hw.1)
    (fun i w hw => meets_write hw ha hs s i) s.loopCount 0 true h
    fun hzero => absurd hzero hloops
  refine .attempt_bind (hwrites.weaken fun r w₁ hpost => ?_)
  obtain ⟨rfl, h₁, hc₁⟩ := hpost
  refine .lift_bind ((meets_copied h₁ hs hc₁).weaken fun b w₂ hpost => ?_)
  obtain ⟨rfl, h₂⟩ := hpost
  exact meets_trials_ok (fun _ => id) (fun i w hw => meets_read hw.1 ha hs hw.2 s i) s.loopCount 0
    true h₂ fun _ => h₂

end Scene

end StorageTrials

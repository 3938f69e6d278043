import StorageTrials.Proofs.Loops
import StorageTrials.Proofs.Underway

namespace StorageTrials

open FileSystem Runner

variable {c : Scene} {w w' : Surroundings} {f : SourceFile} {dest : String} {x : ByteArray}

namespace Scene

/-- What holds at every moment of the trials of a file: a row has the size of the source, and only
a copy of the source is read. -/
structure Sound (c : Scene) (f : SourceFile) (dest : String) (m : Moment Surroundings) : Prop where
  before : c.Underway m.before
  after : c.Underway m.after
  row : ∀ r, m.line? = some (.record r) →
    r.file = f.name ∧ ∀ x, c.Source f x → r.size = x.size
  read : ∀ path, m.work? = some (.drain path) →
    path = dest ∧ ∀ x, c.Source f x → c.HoldsCopy dest x m.before.files ∧
      c.HoldsCopy dest x m.after.files

def Plain : Request → Prop
  | .print (.record _) | .trial (.drain _) _ => False
  | _ => True

theorem plain_of_looks {r : Request} (h : Looks r) : Plain r := by
  cases r <;> trivial

theorem sound_of_plain {m : Moment Surroundings} (hr : Plain m.request) (hb : c.Underway m.before)
    (ha : c.Underway m.after) : c.Sound f dest m := by
  obtain ⟨w, r, a, w'⟩ := m
  refine ⟨hb, ha, fun rec hrec => ?_, fun path hpath => ?_⟩
  · cases r <;> cases hrec
    exact hr.elim
  · cases r <;> cases hpath
    exact hr.elim

def Stable (c : Scene) (P : FileSystem → Prop) : Prop :=
  ∀ fs fs', c.Holds fs → P fs → c.Drifts fs fs' → P fs'

theorem Underway.stable_harmless {P : FileSystem → Prop} (h : c.Underway w) (hs : c.Stable P)
    (hP : P w.files) {r : Request} (hr : Harmless r) :
    P ((Surroundings.answer r).run w).2.files :=
  hs _ _ h.files hP (h.harmless hr).1

theorem stable_stands (hp : c.Covers dest) (P : ByteArray → Prop) :
    c.Stable (c.Stands dest P) := fun _ _ h hP hd => hP.drift h hp hd

theorem stable_holdsCopy (hp : c.Covers dest) (x : ByteArray) :
    c.Stable (c.HoldsCopy dest x) := fun _ _ h hP hd => hP.drift h hp hd

theorem meets_report (h : c.Underway w) {P : FileSystem → Prop} (hs : c.Stable P) (hP : P w.files)
    (event : Event) :
    (Ask.report event).Meets Surroundings.answer (c.Sound f dest) w
      fun _ w' => c.Underway w' ∧ P w'.files := by
  have hafter := h.after_harmless (r := .report event) trivial
  refine .ask (sound_of_plain trivial h hafter) (.done ⟨hafter, ?_⟩)
  exact h.stable_harmless hs hP (r := .report event) trivial

theorem Underway.remove (h : c.Underway w) (hp : c.Allows dest) :
    c.Underway ((Surroundings.answer (.remove dest)).run w).2 ∧
      c.Stands dest (fun _ => False) ((Surroundings.answer (.remove dest)).run w).2.files := by
  obtain ⟨hremoved, hkept⟩ := h.turned.files.remove hp
  rcases Surroundings.run_remove dest w with ⟨fs, hr, he⟩ | ⟨e, hr | hdenied, he⟩
  · obtain ⟨hfs, hstands⟩ := hremoved fs hr
    rw [he]
    exact ⟨h.turned.follow ⟨rfl, fun _ => Iff.rfl⟩ hfs, hstands⟩
  · rw [he]
    exact ⟨h.turned, hkept e hr⟩
  · cases (h.permits _).symm.trans hdenied

theorem meets_removeIfPresent (h : c.Underway w) (hp : c.Allows dest) :
    (removeIfPresent dest).Meets Surroundings.answer (c.Sound f dest) w
      fun _ w' => c.Underway w' ∧ c.Stands dest (fun _ => False) w'.files := by
  obtain ⟨hafter, hstands⟩ := h.remove hp
  refine .ask_bind (sound_of_plain trivial h hafter) ?_
  split
  · exact .done ⟨hafter, hstands⟩
  · split
    · exact .done ⟨hafter, hstands⟩
    · exact meets_report hafter (stable_stands hp.toCovers _) hstands _

theorem meets_settle (h : c.Underway w) {P : FileSystem → Prop} (hs : c.Stable P) (hP : P w.files)
    (place : TrialPlace) (hplace : place.file = f.name) (op : Operation)
    {result : Except Fault Sample}
    (hr : ∀ s, result = .ok s → ∀ x, c.Source f x → s.bytes = x.size) :
    (settle place op result).dialogue.Meets Surroundings.answer (c.Sound f dest) w
      fun _ w' => c.Underway w' ∧ P w'.files := by
  cases result with
  | ok s =>
    rw [settle_ok]
    have hafter := h.after_harmless (r := .print (row place.file op s)) trivial
    have hP' := h.stable_harmless hs hP (r := .print (row place.file op s)) trivial
    refine .ask ⟨h, hafter, fun r hrow => ?_, fun path hpath => nomatch hpath⟩ ?_
    · cases hrow
      exact ⟨hplace, hr s rfl⟩
    · split <;> exact .done ⟨hafter, hP'⟩
  | error e =>
    by_cases he : e = .cancelled
    · rw [he]
      exact .done ⟨h, hP⟩
    · rw [settle_of_ne_cancelled place op he]
      have hafter := h.after_harmless (r := .report (.trialFailed place op e)) trivial
      refine .ask (sound_of_plain trivial h hafter) (.done ⟨hafter, ?_⟩)
      exact h.stable_harmless hs hP (r := .report (.trialFailed place op e)) trivial

theorem Underway.copy (h : c.Underway w) (hp : c.Allows dest)
    (hs : c.Stands dest (fun _ => False) w.files) (source : String) (limit : Option Duration) :
    let (result, w') := (Surroundings.answer (.trial (.copy source dest) limit)).run w
    c.Underway w' ∧ c.Stands dest (fun _ => True) w'.files ∧
      ∀ x, (∀ fs, c.Holds fs → fs.bytes? source = some x) →
        c.Stands dest (IsPrefix · x) w'.files ∧ ∀ s, result = .ok s → s.bytes = x.size := by
  have hturned := h.turned
  have hclear : c.Stands dest (fun _ => False) w.turned.files :=
    stable_stands hp.toCovers _ _ _ h.files hs ⟨_, h.spares_turned, .inl rfl⟩
  have htries := w.turned.tries_trial limit (w.schedule w.clock)
    (show w.turned.workOn? _ (.copy source dest) = some _ from rfl)
  rw [Surroundings.run_answer]
  refine ⟨hturned.follow htries.follows ?_, ?_, fun x hx => ⟨?_, fun s hs => ?_⟩⟩
  · rcases htries.files with he | ⟨p, he⟩
    · exact he ▸ hturned.files
    · exact he ▸ (hturned.files.copy hp hclear source chunkSize p _).1
  · rcases htries.files with he | ⟨p, he⟩
    · exact he ▸ hclear.mono fun _ => False.elim
    · exact he ▸ (hturned.files.copy hp hclear source chunkSize p _).2
  · rcases htries.files with he | ⟨p, he⟩
    · exact he ▸ hclear.mono fun _ => False.elim
    · exact he ▸ hturned.files.stands_copy hclear (hx _ hturned.files) (by decide) p _
  · obtain ⟨id, hf, hn⟩ := bytes?_eq_some_iff.mp (hx _ hturned.files)
    obtain ⟨-, hok⟩ := htries.complete s hs
    have hchunk : 0 < chunkSize := by decide
    rcases copy_cases hturned.files.wellFormed hf hn hchunk hclear.isDirectory none
      (w.schedule w.clock).hitches with
      ⟨e, he⟩ | ⟨σ, y, r, -, -, he, -, hall⟩
    · rw [he] at hok
      cases hok
    · rw [he] at hok
      exact (hall _ hok).2

/-- What is known of a destination once something has been written there. -/
structure Written (c : Scene) (f : SourceFile) (dest : String) (fs : FileSystem) : Prop where
  stands : c.Stands dest (fun _ => True) fs
  begun : ∀ x, c.Source f x → c.Stands dest (IsPrefix · x) fs

theorem stable_written (hp : c.Covers dest) : c.Stable (c.Written f dest) := fun _ _ h hw hd =>
  ⟨stable_stands hp _ _ _ h hw.stands hd, fun x hx => stable_stands hp _ _ _ h (hw.begun x hx) hd⟩

theorem meets_mountedWrite (h : c.Underway w) (hp : c.Allows dest) (s : Settings) (i : Nat) :
    (mountedWrite s f dest i).dialogue.Meets Surroundings.answer (c.Sound f dest) w
      fun _ w' => c.Underway w' ∧ c.Written f dest w'.files := by
  refine .lift_bind ((meets_removeIfPresent h hp).weaken fun _ w₁ hpost => ?_)
  obtain ⟨h₁, hs₁⟩ := hpost
  obtain ⟨h₂, hstands, hcopy⟩ := h₁.copy hp hs₁ f.path s.timeout
  refine .lift_bind (.ask (sound_of_plain trivial h₁ h₂) (.done ?_))
  refine meets_settle h₂ (stable_written hp.toCovers) ⟨hstands, fun x hx => ?_⟩ _ rfl _
    fun r hr x hx => ?_
  · exact (hcopy x fun _ => hx.bytes?).1
  · exact (hcopy x fun _ => hx.bytes?).2 r hr

structure Copied (c : Scene) (f : SourceFile) (dest : String) (fs : FileSystem) : Prop where
  stands : c.Stands dest (fun _ => True) fs
  whole : ∀ x, c.Source f x → c.HoldsCopy dest x fs

theorem stable_copied (hp : c.Covers dest) : c.Stable (c.Copied f dest) := by
  intro _ _ h hw hd
  refine ⟨stable_stands hp _ _ _ h hw.stands hd, fun x hx => ?_⟩
  exact stable_holdsCopy hp x _ _ h (hw.whole x hx) hd

theorem meets_mountedRead (h : c.Underway w) (hp : c.Covers dest) (hc : c.Copied f dest w.files)
    (s : Settings) (i : Nat) :
    (mountedRead s f dest i).dialogue.Meets Surroundings.answer (c.Sound f dest) w
      fun _ w' => c.Underway w' ∧ c.Copied f dest w'.files := by
  have hstable := stable_copied (f := f) hp
  have hafter := h.after_harmless (r := .trial (.drain dest) s.timeout) trivial
  have hcopies := h.stable_harmless hstable hc (r := .trial (.drain dest) s.timeout) trivial
  refine .lift_bind (.ask ⟨h, hafter, fun r hr => (nomatch hr), fun path hpath => ?_⟩ (.done ?_))
  · cases hpath
    exact ⟨rfl, fun x hx => ⟨hc.whole x hx, hcopies.whole x hx⟩⟩
  · refine meets_settle hafter hstable hcopies _ rfl _ fun r hr x hx => ?_
    have htries := w.turned.tries_trial s.timeout (w.schedule w.clock)
      (show w.turned.workOn? _ (.drain dest) = some _ from rfl)
    obtain ⟨-, hok⟩ := htries.complete r hr
    have hturned := stable_holdsCopy hp x _ _ h.files (hc.whole x hx)
      ⟨_, h.spares_turned, .inl rfl⟩
    exact drain_eq_ok hturned.bytes? (by decide) hok

/-- If the destination has the size of the source, it is a copy. -/
theorem meets_isCopied (h : c.Underway w) (hp : c.Covers dest) (hs : c.Written f dest w.files) :
    (isCopied f dest).Meets Surroundings.answer (c.Sound f dest) w fun b w' =>
      c.Underway w' ∧ c.Written f dest w'.files ∧ (b = true → c.Copied f dest w'.files) := by
  have hstable := stable_written (f := f) hp
  have hafter := h.after_harmless (r := .inspect dest) trivial
  have hwritten := h.stable_harmless hstable hs (r := .inspect dest) trivial
  have hreported (event : Event) : ((Ask.report event).bind fun _ => .done false).Meets
      Surroundings.answer (c.Sound f dest) ((Surroundings.answer (.inspect dest)).run w).2
      fun b w' =>
        c.Underway w' ∧ c.Written f dest w'.files ∧ (b = true → c.Copied f dest w'.files) :=
    .bind ((meets_report hafter hstable hwritten event).weaken fun _ w' hw' =>
      .done ⟨hw'.1, hw'.2, fun hb => nomatch hb⟩)
  refine .ask_bind (sound_of_plain trivial h hafter) ?_
  cases hi : ((Surroundings.answer (.inspect dest)).run w).1 with
  | error e => exact hreported _
  | ok found =>
    cases found with
    | directory | other => exact hreported _
    | file size =>
      by_cases hsize : some size = f.size?
      · have hturned : c.Holds w.turned.files := h.turned.files
        have hcopy : ∀ x, c.Source f x → c.HoldsCopy dest x w.turned.files := by
          intro x hx
          obtain ⟨y, hy, rfl⟩ := bytes?_of_inspect hi
          obtain ⟨hcopy, hprefix⟩ := (hwritten.begun x hx).holdsCopy hturned hy
          have hyx : y.size = x.size := Option.some.inj (hsize.trans hx.size)
          exact hprefix.eq_of_size (Nat.le_of_eq hyx.symm) ▸ hcopy
        change (if some size = f.size? then (pure true : Dialogue Bool) else _).Meets _ _ _ _
        rw [if_pos hsize]
        exact .done ⟨hafter, hwritten, fun _ => ⟨hwritten.stands, hcopy⟩⟩
      · change (if some size = f.size? then (pure true : Dialogue Bool) else _).Meets _ _ _ _
        rw [if_neg hsize]
        exact hreported _

theorem meets_mountedFile {s : Settings} {dir : String} (hdir : s.destinationDir = some dir)
    (hloops : s.loopCount ≠ 0) (h : c.Underway w) (hp : c.Allows (Path.join dir f.name)) :
    (mountedFile s f).dialogue.Meets Surroundings.answer (c.Sound f (Path.join dir f.name)) w
      fun _ w' => c.Underway w' ∧ c.Stands (Path.join dir f.name) (fun _ => True) w'.files := by
  rw [mountedFile, hdir]
  have hwrites := meets_trials (fun _ hw => hw.1)
    (fun i w hw => meets_mountedWrite (f := f) hw hp s i) s.loopCount 0 true h
    fun hzero => absurd hzero hloops
  refine .attempt_bind (hwrites.weaken fun r w₁ hpost => ?_)
  obtain ⟨h₁, hw₁⟩ := hpost
  cases r with
  | error e => exact ⟨h₁, hw₁.stands⟩
  | ok written =>
    refine .lift_bind ((meets_isCopied h₁ hp.toCovers hw₁).weaken fun b w₂ hpost => ?_)
    obtain ⟨h₂, hw₂, hc₂⟩ := hpost
    cases b with
    | false => exact .done ⟨h₂, hw₂.stands⟩
    | true =>
      have hreads := meets_trials (fun _ hw => hw)
        (fun i w hw => meets_mountedRead hw.1 hp.toCovers hw.2 s i) s.loopCount 0 written
        ⟨h₂, hc₂ rfl⟩ fun _ => ⟨h₂, hc₂ rfl⟩
      exact hreads.weaken fun _ _ hw => ⟨hw.1, hw.2.stands⟩

end Scene

end StorageTrials

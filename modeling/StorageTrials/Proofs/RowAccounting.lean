import StorageTrials.Proofs.Tallies
import StorageTrials.Runner.Direct
import StorageTrials.Runner.Mounted

namespace StorageTrials.Runner

open StorageTrials

structure FileRows where
  file : String
  writes : List Sample
  reads : List Sample

def row (file : String) (op : Operation) (s : Sample) : Line := .record (.ofSample file op s)

namespace FileRows

def lines (g : FileRows) : List Line :=
  g.writes.map (row g.file .write) ++ g.reads.map (row g.file .read)

def blank (f : SourceFile) : FileRows := ⟨f.name, [], []⟩

def IsFull (loops : Nat) (g : FileRows) : Prop :=
  g.writes.length = loops ∧ g.reads.length = loops

instance (loops : Nat) (g : FileRows) : Decidable (g.IsFull loops) :=
  inferInstanceAs (Decidable (_ ∧ _))

def IsBounded (loops : Nat) (g : FileRows) : Prop :=
  g.writes.length ≤ loops ∧ g.reads.length ≤ loops

end FileRows

variable {σ : Type} (answer : (r : Request) → StateM σ r.Answer)

def Quiet : Request → Prop
  | .print _ | .trial .. => False
  | _ => True

/-- Trials end by the cancelling of the run, or else with the given answer. -/
def Ends (ms : List (Moment σ)) (r : Except Fault Bool) (completed : Bool) : Prop :=
  (r = .error .cancelled ∧ ∃ m ∈ ms, m.Cancelled) ∨ (r = .ok completed ∧ ∀ m ∈ ms, ¬ m.Cancelled)

theorem not_cancelled_of_quiet {m : Moment σ} (h : Quiet m.request) : ¬ m.Cancelled := by
  obtain ⟨w, r, a, w'⟩ := m
  cases r <;> simp_all [Quiet, Moment.Cancelled]

theorem line?_of_quiet {m : Moment σ} (h : Quiet m.request) : m.line? = none := by
  obtain ⟨w, r, a, w'⟩ := m
  cases r <;> simp_all [Quiet, Moment.line?]

theorem linesOf_quiet {ms : List (Moment σ)} (h : ∀ m ∈ ms, Quiet m.request) :
    linesOf ms = [] :=
  List.filterMap_eq_nil_iff.mpr fun m hm => line?_of_quiet (h m hm)

theorem Ends.quiet_append {ms ns : List (Moment σ)} {r : Except Fault Bool} {b : Bool}
    (hq : ∀ m ∈ ms, Quiet m.request) (h : Ends ns r b) : Ends (ms ++ ns) r b := by
  rcases h with ⟨hr, m, hm, hc⟩ | ⟨hr, hn⟩
  · exact .inl ⟨hr, m, List.mem_append_right _ hm, hc⟩
  · refine .inr ⟨hr, fun m hm => ?_⟩
    rcases List.mem_append.mp hm with hm | hm
    · exact not_cancelled_of_quiet (hq m hm)
    · exact hn m hm

theorem Ends.append {ms ns : List (Moment σ)} {r : Except Fault Bool} {b : Bool}
    (hm : ∀ m ∈ ms, ¬ m.Cancelled) (h : Ends ns r b) : Ends (ms ++ ns) r b := by
  rcases h with ⟨hr, m, hn, hc⟩ | ⟨hr, hn⟩
  · exact .inl ⟨hr, m, List.mem_append_right _ hn, hc⟩
  · refine .inr ⟨hr, fun m hmem => ?_⟩
    rcases List.mem_append.mp hmem with h | h
    · exact hm m h
    · exact hn m h

theorem Ends.cons {m : Moment σ} {ms : List (Moment σ)} {r : Except Fault Bool} {b : Bool}
    (hm : ¬ m.Cancelled) (h : Ends ms r b) : Ends (m :: ms) r b :=
  h.append (List.forall_mem_singleton.mpr hm)

theorem Ends.quiet_cons {m : Moment σ} {ms : List (Moment σ)} {r : Except Fault Bool} {b : Bool}
    (hq : Quiet m.request) (h : Ends ms r b) : Ends (m :: ms) r b :=
  h.cons (not_cancelled_of_quiet hq)

/-- Over a stream that takes its lines, `a` prints at most `count` rows of a kind and nothing
else, and answers whether there are so many, given that all was completed before. -/
def PrintsRows (a : Attempt Bool) (file : String) (op : Operation) (count : Nat)
    (completed : Bool) : Prop :=
  ∀ w, (∀ m ∈ a.dialogue.moments answer w, m.Printed) →
    ∃ xs : List Sample, xs.length ≤ count ∧
      linesOf (a.dialogue.moments answer w) = xs.map (row file op) ∧
      Ends (a.dialogue.moments answer w) (a.dialogue.result answer w)
        (completed && decide (xs.length = count))

variable {answer}

theorem PrintsRows.after_quiet {γ : Type} {d : Dialogue γ} {f : γ → Attempt Bool}
    {file : String} {op : Operation} {count : Nat} {completed : Bool} (hd : d.Asks Quiet)
    (hf : ∀ x, PrintsRows answer (f x) file op count completed) :
    PrintsRows answer (liftM d >>= f) file op count completed := by
  intro w hp
  have hq := Dialogue.kind_of_mem_moments answer hd w
  simp only [Attempt.dialogue_lift_bind, Dialogue.moments_bind, Dialogue.result_bind] at hp ⊢
  obtain ⟨xs, hlen, hlines, hends⟩ :=
    hf _ _ fun m hm => hp m (List.mem_append_right _ hm)
  refine ⟨xs, hlen, ?_, hends.quiet_append hq⟩
  rw [linesOf_append, linesOf_quiet hq, hlines, List.nil_append]

theorem settle_of_ne_cancelled (place : TrialPlace) (op : Operation) {f : Fault}
    (h : f ≠ .cancelled) :
    (settle place op (.error f)).dialogue =
      .ask (.report (.trialFailed place op f)) fun _ => .done (.ok false) := by
  cases f <;> first | rfl | exact absurd rfl h

theorem settle_ok (place : TrialPlace) (op : Operation) (s : Sample) :
    (settle place op (.ok s)).dialogue =
      .ask (.print (row place.file op s)) fun
        | .ok () => .done (.ok true)
        | .error e => .done (.error (.system e)) := by
  refine congrArg (Dialogue.ask _) (funext fun x => ?_)
  cases x <;> rfl

theorem printsRows_settle (place : TrialPlace) (op : Operation) (work : Work)
    (limit : Option Duration) :
    PrintsRows answer (do settle place op (← Ask.trial work limit)) place.file op 1 true := by
  intro w hp
  simp only [Attempt.dialogue_lift_bind, Ask.trial, Dialogue.bind, Dialogue.moments_ask,
    Dialogue.result_ask] at hp ⊢
  generalize (answer (.trial work limit)).run w = x at hp ⊢
  obtain ⟨r, w'⟩ := x
  rcases r with f | s
  · by_cases hf : f = .cancelled
    · subst hf
      exact ⟨[], by simp, rfl, .inl ⟨rfl, _, List.mem_cons_self, rfl⟩⟩
    · simp only [settle_of_ne_cancelled place op hf, Dialogue.moments_ask, Dialogue.result_ask,
        Dialogue.moments_done, Dialogue.result_done] at hp ⊢
      refine ⟨[], by simp, rfl, .inr ⟨rfl, fun m hm => ?_⟩⟩
      simp only [List.mem_cons, List.not_mem_nil, or_false] at hm
      rcases hm with rfl | rfl
      · exact fun h => hf (Except.error.inj h)
      · exact id
  · simp only [settle_ok, Dialogue.moments_ask, Dialogue.result_ask] at hp ⊢
    have hprinted := hp _ (List.mem_cons_of_mem _ List.mem_cons_self)
    simp only [Moment.Printed] at hprinted
    simp only [hprinted, Dialogue.moments_done, Dialogue.result_done]
    refine ⟨[s], by simp, rfl, .inr ⟨rfl, ?_⟩⟩
    simp [Moment.Cancelled]

theorem printsRows_trials {trial : Nat → Attempt Bool} {file : String} {op : Operation}
    (h : ∀ i, PrintsRows answer (trial i) file op 1 true) (count i : Nat) (completed : Bool) :
    PrintsRows answer (trials trial count i completed) file op count completed := by
  induction count generalizing i completed with
  | zero =>
    intro w _
    exact ⟨[], Nat.le_refl _, rfl, .inr ⟨by simp [trials, pure], by simp [trials, pure]⟩⟩
  | succ n ih =>
    intro w hp
    rw [trials] at hp ⊢
    obtain ⟨xs, hlen, hlines, hends⟩ :=
      h i w fun m hm => hp m (Attempt.mem_moments_bind answer hm)
    rcases hends with ⟨hr, hc⟩ | ⟨hr, hn⟩
    · rw [Attempt.moments_bind_error answer hr, Attempt.result_bind_error answer hr]
      exact ⟨xs, by omega, hlines, .inl ⟨rfl, hc⟩⟩
    · rw [Attempt.moments_bind_ok answer hr] at hp ⊢
      rw [Attempt.result_bind_ok answer hr]
      obtain ⟨ys, hlen', hlines', hends'⟩ :=
        ih (i + 1) _ _ fun m hm => hp m (List.mem_append_right _ hm)
      have hall : (completed && decide (xs.length = 1) && decide (ys.length = n)) =
          (completed && decide ((xs ++ ys).length = n + 1)) := by
        rw [Bool.and_assoc, ← Bool.decide_and, List.length_append]
        congr 2
        exact propext (by omega)
      refine ⟨xs ++ ys, ?_, ?_, ?_⟩
      · rw [List.length_append]
        omega
      · rw [linesOf_append, hlines, hlines', List.map_append]
      · rw [← hall, ← Bool.true_and (decide (xs.length = 1))]
        exact hends'.append hn

variable (answer) in
/-- Over a stream that takes its lines, the trials of a file print the rows of that file, and
answer whether every trial has its row. -/
def AccountsFile (loops : Nat) (file : String) (a : Attempt Bool) : Prop :=
  ∀ w, (∀ m ∈ a.dialogue.moments answer w, m.Printed) →
    ∃ g : FileRows, g.file = file ∧ g.IsBounded loops ∧
      linesOf (a.dialogue.moments answer w) = g.lines ∧
      Ends (a.dialogue.moments answer w) (a.dialogue.result answer w) (decide (g.IsFull loops))

theorem accountsFile_bind {loops : Nat} {file : String} {writes : Attempt Bool}
    {reads : Bool → Attempt Bool} (hw : PrintsRows answer writes file .write loops true)
    (hr : ∀ b, PrintsRows answer (reads b) file .read loops b) :
    AccountsFile answer loops file (writes >>= reads) := by
  intro w hp
  obtain ⟨xs, hxs, hlines, hends⟩ := hw w fun m hm => hp m (Attempt.mem_moments_bind answer hm)
  rcases hends with ⟨hres, hc⟩ | ⟨hres, hn⟩
  · rw [Attempt.moments_bind_error answer hres, Attempt.result_bind_error answer hres]
    exact ⟨⟨file, xs, []⟩, rfl, ⟨hxs, by simp⟩, by simp [hlines, FileRows.lines], .inl ⟨rfl, hc⟩⟩
  · rw [Attempt.moments_bind_ok answer hres] at hp ⊢
    rw [Attempt.result_bind_ok answer hres]
    obtain ⟨ys, hys, hlines', hends'⟩ := hr _ _ fun m hm => hp m (List.mem_append_right _ hm)
    refine ⟨⟨file, xs, ys⟩, rfl, ⟨hxs, hys⟩, ?_, ?_⟩
    · rw [linesOf_append, hlines, hlines', FileRows.lines]
    · rw [Bool.true_and, ← Bool.decide_and] at hends'
      exact hends'.append hn

theorem printsRows_none {loops : Nat} (hloops : loops ≠ 0) (file : String) (op : Operation)
    (completed : Bool) : PrintsRows answer (pure false) file op loops completed := by
  intro w _
  refine ⟨[], by simp, rfl, .inr ⟨?_, by simp [pure]⟩⟩
  simp [pure, Ne.symm hloops]

theorem asks_removeIfPresent_of {kind : Request → Prop} {path : String}
    (hremove : kind (.remove path)) (hreport : ∀ event, kind (.report event)) :
    (removeIfPresent path).Asks kind := by
  refine ⟨hremove, fun x => ?_⟩
  rcases x with e | _
  · change (if e.kind = .notFound then _ else _ : Dialogue Unit).Asks kind
    split
    · trivial
    · exact ⟨hreport _, fun _ => trivial⟩
  · trivial

theorem asks_removeIfPresent (path : String) : (removeIfPresent path).Asks Quiet :=
  asks_removeIfPresent_of trivial fun _ => trivial

theorem asks_isCopied_of {kind : Request → Prop} (hinspect : ∀ path, kind (.inspect path))
    (hreport : ∀ event, kind (.report event)) (f : SourceFile) (dest : String) :
    (isCopied f dest).Asks kind := by
  refine ⟨hinspect dest, fun x => ?_⟩
  rcases x with e | (size | _ | _)
  · exact ⟨hreport _, fun _ => trivial⟩
  · change (if some size = f.size? then _ else _ : Dialogue Bool).Asks kind
    split
    · trivial
    · exact ⟨hreport _, fun _ => trivial⟩
  · exact ⟨hreport _, fun _ => trivial⟩
  · exact ⟨hreport _, fun _ => trivial⟩

theorem asks_isCopied (f : SourceFile) (dest : String) : (isCopied f dest).Asks Quiet :=
  asks_isCopied_of (fun _ => trivial) (fun _ => trivial) f dest

theorem printsRows_mountedWrite (s : Settings) (f : SourceFile) (dest : String) (i : Nat) :
    PrintsRows answer (mountedWrite s f dest i) f.name .write 1 true :=
  .after_quiet (asks_removeIfPresent dest) fun _ =>
    printsRows_settle ⟨.mounted, f.name, i⟩ .write (.copy f.path dest) s.timeout

theorem printsRows_mountedRead (s : Settings) (f : SourceFile) (dest : String) (i : Nat) :
    PrintsRows answer (mountedRead s f dest i) f.name .read 1 true :=
  printsRows_settle ⟨.mounted, f.name, i⟩ .read (.drain dest) s.timeout

theorem accountsFile_mounted {s : Settings} (hloops : s.loopCount ≠ 0)
    (hdest : s.destinationDir ≠ none) (f : SourceFile) :
    AccountsFile answer s.loopCount f.name (mountedFile s f) := by
  obtain ⟨dir, hdir⟩ := Option.ne_none_iff_exists'.mp hdest
  have hreads : ∀ written : Bool, PrintsRows answer (do
      if ← isCopied f (Path.join dir f.name) then
        trials (mountedRead s f (Path.join dir f.name)) s.loopCount 0 written
      else return false) f.name .read s.loopCount written := by
    intro written
    refine .after_quiet (asks_isCopied f _) fun copied => ?_
    cases copied with
    | true => exact printsRows_trials (printsRows_mountedRead s f _) _ _ _
    | false => exact printsRows_none hloops _ _ _
  simp only [mountedFile, hdir]
  exact accountsFile_bind (printsRows_trials (printsRows_mountedWrite s f _) _ _ _) hreads

theorem printsRows_directWrite (s : Settings) (store : StoreId) (f : SourceFile) (i : Nat) :
    PrintsRows answer (directWrite s store f i) f.name .write 1 true := by
  refine .after_quiet (d := Ask.deleteVersions store f.name) ⟨trivial, fun _ => trivial⟩
    fun x => ?_
  cases x with
  | error e =>
    exact .after_quiet (d := Ask.report (.cleanupFailed ⟨.direct, f.name, i⟩ e))
      ⟨trivial, fun _ => trivial⟩ fun _ => printsRows_none Nat.one_ne_zero _ _ _
  | ok count =>
    exact .after_quiet (d := Ask.report (.versionsRemoved ⟨.direct, f.name, i⟩ count))
      ⟨trivial, fun _ => trivial⟩ fun _ =>
        printsRows_settle ⟨.direct, f.name, i⟩ .write (.upload store f.name f.path) s.timeout

theorem printsRows_directRead (s : Settings) (store : StoreId) (f : SourceFile) (i : Nat) :
    PrintsRows answer (directRead s store f i) f.name .read 1 true :=
  printsRows_settle ⟨.direct, f.name, i⟩ .read (.download store f.name) s.timeout

theorem accountsFile_direct (s : Settings) (store : StoreId) (f : SourceFile) :
    AccountsFile answer s.loopCount f.name (directFile s store f) :=
  accountsFile_bind (printsRows_trials (printsRows_directWrite s store f) _ _ _)
    fun _ => printsRows_trials (printsRows_directRead s store f) _ _ _

theorem isReady_iff_fault?_eq_none (f : SourceFile) : f.isReady = true ↔ f.fault? = none := by
  obtain ⟨name, path, status⟩ := f
  cases status <;> simp [SourceFile.isReady, SourceFile.size?, SourceFile.fault?]

theorem isReady_eq_false_of_fault? {f : SourceFile} {cause : Fault} (h : f.fault? = some cause) :
    f.isReady = false := by
  rw [Bool.eq_false_iff, Ne, isReady_iff_fault?_eq_none, h]
  exact Option.some_ne_none _

theorem flatMap_lines_blank (fs : List SourceFile) :
    (fs.map FileRows.blank).flatMap (·.lines) = [] := by
  simp [List.flatMap_map, FileRows.blank, FileRows.lines]

theorem moments_conclude_cancelled (backend : Backend) (file : String) (k : Bool → Attempt Bool)
    (w : σ) :
    (conclude backend file (.error .cancelled) >>= k).dialogue.moments answer w = [] := rfl

theorem conclude_ok (backend : Backend) (file : String) (b : Bool) :
    ∃ e, conclude backend file (.ok b) = ⟨.ask (.report e) fun _ => .done (.ok b)⟩ := by
  cases b <;> exact ⟨_, rfl⟩

structure AccountsFiles (loops : Nat) (files : List SourceFile) (completed : Bool)
    (ms : List (Moment σ)) (r : Except Fault Bool) (groups : List FileRows) : Prop where
  files : groups.map (·.file) = (files.filter (·.isReady)).map (·.name)
  bounded : ∀ g ∈ groups, g.IsBounded loops
  lines : linesOf ms = groups.flatMap (·.lines)
  ends : Ends ms r (completed && decide (∀ g ∈ groups, g.IsFull loops))

section AccountsFiles

variable {loops : Nat} {f : SourceFile} {fs : List SourceFile} {completed : Bool} {m : Moment σ}
  {ms ns : List (Moment σ)} {r : Except Fault Bool} {g : FileRows} {groups : List FileRows}

theorem AccountsFiles.skip (h : AccountsFiles loops fs completed ms r groups)
    (hf : ¬ f.isReady = true) (hq : Quiet m.request) :
    AccountsFiles loops (f :: fs) completed (m :: ms) r groups where
  files := by rw [List.filter_cons_of_neg hf, h.files]
  bounded := h.bounded
  lines := h.lines ▸ List.filterMap_cons_none (line?_of_quiet hq)
  ends := h.ends.quiet_cons hq

/-- A file that is cut short leaves no rows to the files after it. -/
theorem AccountsFiles.cut (hf : f.isReady = true) (hfile : g.file = f.name)
    (hbound : g.IsBounded loops) (hlines : linesOf ms = g.lines) (hc : ∃ m ∈ ms, m.Cancelled) :
    AccountsFiles loops (f :: fs) completed ms (.error .cancelled)
      (g :: (fs.filter (·.isReady)).map .blank) where
  files := by simp [List.filter_cons_of_pos hf, hfile, FileRows.blank]
  bounded := by
    refine List.forall_mem_cons.mpr ⟨hbound, List.forall_mem_map.mpr fun _ _ => ?_⟩
    exact ⟨Nat.zero_le _, Nat.zero_le _⟩
  lines := by rw [hlines, List.flatMap_cons, flatMap_lines_blank, List.append_nil]
  ends := .inl ⟨rfl, hc⟩

theorem AccountsFiles.next
    (h : AccountsFiles loops fs (completed && decide (g.IsFull loops)) ns r groups)
    (hf : f.isReady = true) (hfile : g.file = f.name) (hbound : g.IsBounded loops)
    (hlines : linesOf ms = g.lines) (hn : ∀ m ∈ ms, ¬ m.Cancelled) (hq : Quiet m.request) :
    AccountsFiles loops (f :: fs) completed (ms ++ m :: ns) r (g :: groups) where
  files := by rw [List.filter_cons_of_pos hf, List.map_cons, List.map_cons, hfile, h.files]
  bounded := List.forall_mem_cons.mpr ⟨hbound, h.bounded⟩
  lines := by
    have hrest : linesOf (m :: ns) = groups.flatMap (·.lines) :=
      h.lines ▸ List.filterMap_cons_none (line?_of_quiet hq)
    rw [linesOf_append, hlines, hrest, List.flatMap_cons]
  ends := by
    have hall : (completed && decide (g.IsFull loops) &&
        decide (∀ g ∈ groups, g.IsFull loops)) =
          (completed && decide (∀ g' ∈ g :: groups, g'.IsFull loops)) := by
      simp [Bool.and_assoc]
    rw [← hall]
    exact (h.ends.quiet_cons hq).append hn

end AccountsFiles

theorem runFiles_accounted {backend : Backend} {runFile : SourceFile → Attempt Bool}
    {loops : Nat} (h : ∀ f, AccountsFile answer loops f.name (runFile f))
    (files : List SourceFile) (completed : Bool) (w : σ)
    (hp : ∀ m ∈ (runFiles backend runFile files completed).dialogue.moments answer w,
      m.Printed) :
    ∃ groups, AccountsFiles loops files completed
      ((runFiles backend runFile files completed).dialogue.moments answer w)
      ((runFiles backend runFile files completed).dialogue.result answer w) groups := by
  induction files generalizing completed w with
  | nil =>
    exact ⟨[], rfl, by simp, rfl, .inr ⟨by simp [runFiles, pure], by simp [runFiles, pure]⟩⟩
  | cons f fs ih =>
    rw [runFiles] at hp ⊢
    cases hf : f.fault? with
    | some cause =>
      have hnot := Bool.eq_false_iff.mp (isReady_eq_false_of_fault? hf)
      simp only [hf, Attempt.dialogue_lift_bind, Ask.report, Dialogue.bind, Dialogue.moments_ask,
        Dialogue.result_ask] at hp ⊢
      obtain ⟨groups, hgroups⟩ := ih completed _ fun m hm => hp m (List.mem_cons_of_mem _ hm)
      exact ⟨groups, hgroups.skip hnot trivial⟩
    | none =>
      have hready : f.isReady = true := (isReady_iff_fault?_eq_none f).mpr hf
      simp only [hf, Attempt.dialogue_lift_bind, Dialogue.moments_bind,
        Dialogue.result_bind] at hp ⊢
      obtain ⟨g, hfile, hbound, hlines, hends⟩ :=
        h f w fun m hm => hp m (List.mem_append_left _ hm)
      obtain ⟨hr, hc⟩ | ⟨hr, hn⟩ := hends
      · rw [hr, moments_conclude_cancelled, List.append_nil]
        exact ⟨_, .cut hready hfile hbound hlines hc⟩
      · obtain ⟨e, hconclude⟩ := conclude_ok backend f.name (decide (g.IsFull loops))
        rw [hr, hconclude] at hp ⊢
        obtain ⟨groups, hgroups⟩ :=
          ih _ _ fun m hm => hp m (List.mem_append_right _ (List.mem_cons_of_mem _ hm))
        exact ⟨g :: groups, hgroups.next hready hfile hbound hlines hn trivial⟩

def Looks : Request → Prop
  | .inspect _ | .probe _ => True
  | _ => False

theorem quiet_of_looks {r : Request} (h : Looks r) : Quiet r := by
  cases r <;> simp_all [Quiet, Looks]

theorem asks_examine (path : String) : (SourceFile.examine path).Asks Looks := by
  refine ⟨trivial, fun x => ?_⟩
  rcases x with e | (size | _ | _)
  · trivial
  · refine ⟨trivial, fun y => ?_⟩
    cases y <;> trivial
  · trivial
  · trivial

theorem asks_ofNames (dir : String) (names : List String) :
    (SourceFile.ofNames dir names).Asks Looks := by
  induction names with
  | nil => trivial
  | cons name names ih =>
    refine Dialogue.asks_bind ?_ fun f => Dialogue.asks_bind ih fun fs => trivial
    exact Dialogue.asks_bind (asks_examine _) fun status => trivial

theorem asks_resolveSources (dir : String) (names : List String) :
    (resolveSources dir names).dialogue.Asks Looks := by
  refine Dialogue.asks_bind ⟨trivial, fun x => ?_⟩ fun r => ?_
  · rcases x with e | (size | _ | _) <;> trivial
  · cases r with
    | error e => trivial
    | ok _ => exact Dialogue.asks_bind (asks_ofNames dir names) fun fs => trivial

theorem named_ofNames (dir : String) (names : List String) (w : σ) :
    ((SourceFile.ofNames dir names).result answer w).map (fun f => (f.name, f.path)) =
      names.map fun n => (n, Path.join dir n) := by
  induction names generalizing w with
  | nil => rfl
  | cons name names ih =>
    change (((SourceFile.ofName dir name).bind fun f =>
      (SourceFile.ofNames dir names).bind fun fs => .done (f :: fs)).result answer w).map _ = _
    simp only [Dialogue.result_bind, Dialogue.result_done, List.map_cons, ih]
    refine congrArg (· :: names.map _) ?_
    have hfile : (SourceFile.ofName dir name).result answer w =
        ⟨name, Path.join dir name, (SourceFile.examine (Path.join dir name)).result answer w⟩ :=
      Dialogue.result_bind answer _ _ w
    rw [hfile]

theorem named_resolveSources {dir : String} {names : List String} {w : σ}
    {files : List SourceFile}
    (h : (resolveSources dir names).dialogue.result answer w = .ok files) :
    files.map (fun f => (f.name, f.path)) = names.map fun n => (n, Path.join dir n) := by
  rw [resolveSources] at h
  obtain ⟨-, -, hnames⟩ := Attempt.result_bind_eq_ok answer h
  change ((SourceFile.ofNames dir names).bind fun fs =>
    Dialogue.done (Except.ok fs)).result answer _ = _ at hnames
  rw [Dialogue.result_bind] at hnames
  rw [← Except.ok.inj hnames]
  exact named_ofNames dir names _

theorem names_resolveSources {dir : String} {names : List String} {w : σ}
    {files : List SourceFile}
    (h : (resolveSources dir names).dialogue.result answer w = .ok files) :
    files.map (·.name) = names := by
  have hnames := congrArg (List.map Prod.fst) (named_resolveSources h)
  simpa only [List.map_map, Function.comp_def, List.map_id'] using hnames

theorem path_of_resolveSources {dir : String} {names : List String} {w : σ}
    {files : List SourceFile}
    (h : (resolveSources dir names).dialogue.result answer w = .ok files) :
    ∀ f ∈ files, f.path = Path.join dir f.name := by
  intro f hf
  have hmem := List.mem_map_of_mem (f := fun g : SourceFile => (g.name, g.path)) hf
  rw [named_resolveSources h] at hmem
  obtain ⟨n, -, hn⟩ := List.mem_map.mp hmem
  obtain ⟨rfl, hp⟩ := Prod.mk.inj hn
  exact hp.symm

/-- The line that ends a run, unless the run is cancelled. -/
def ending : Except Fault Bool → List Line
  | .error .cancelled => []
  | _ => [.footer]

/-- What a run over the given files prints and answers, with the rows of each ready file. The end
of the stream is missing exactly when the run is cancelled. -/
structure Accounts (loops : Nat) (files : List SourceFile) (ms : List (Moment σ))
    (r : Except Fault Bool) (groups : List FileRows) : Prop where
  files : groups.map (·.file) = (files.filter (·.isReady)).map (·.name)
  bounded : ∀ g ∈ groups, g.IsBounded loops
  lines : linesOf ms = .header :: groups.flatMap (·.lines) ++ ending r
  ends : Ends ms r (decide (∀ g ∈ groups, g.IsFull loops))

theorem Accounts.quiet_append {loops : Nat} {files : List SourceFile} {ms ns : List (Moment σ)}
    {r : Except Fault Bool} {groups : List FileRows} (hq : ∀ m ∈ ms, Quiet m.request)
    (h : Accounts loops files ns r groups) : Accounts loops files (ms ++ ns) r groups where
  files := h.files
  bounded := h.bounded
  lines := by rw [linesOf_append, linesOf_quiet hq, List.nil_append, h.lines]
  ends := h.ends.quiet_append hq

def runToEnd (backend : Backend) (runFile : SourceFile → Attempt Bool)
    (files : List SourceFile) : Attempt Bool := do
  let completed ← runFiles backend runFile files true
  Attempt.system (Ask.print .footer)
  return completed

def printFiles (backend : Backend) (runFile : SourceFile → Attempt Bool)
    (files : List SourceFile) : Attempt Bool := do
  Attempt.system (Ask.print .header)
  runToEnd backend runFile files

theorem runToEnd_accounted {backend : Backend} {runFile : SourceFile → Attempt Bool}
    {loops : Nat} (h : ∀ f, AccountsFile answer loops f.name (runFile f))
    (files : List SourceFile) (w : σ)
    (hp : ∀ m ∈ (runToEnd backend runFile files).dialogue.moments answer w, m.Printed) :
    ∃ groups : List FileRows,
      groups.map (·.file) = (files.filter (·.isReady)).map (·.name) ∧
      (∀ g ∈ groups, g.IsBounded loops) ∧
      linesOf ((runToEnd backend runFile files).dialogue.moments answer w) =
        groups.flatMap (·.lines) ++
          ending ((runToEnd backend runFile files).dialogue.result answer w) ∧
      Ends ((runToEnd backend runFile files).dialogue.moments answer w)
        ((runToEnd backend runFile files).dialogue.result answer w)
        (decide (∀ g ∈ groups, g.IsFull loops)) := by
  rw [runToEnd] at hp ⊢
  obtain ⟨groups, hfiles, hbounds, hlines, hends⟩ := runFiles_accounted h files true w fun m hm =>
    hp m (Attempt.mem_moments_bind answer hm)
  rw [Bool.true_and] at hends
  refine ⟨groups, hfiles, hbounds, ?_⟩
  rcases hends with ⟨hr, hc⟩ | ⟨hr, hn⟩
  · rw [Attempt.moments_bind_error answer hr, Attempt.result_bind_error answer hr, hlines]
    exact ⟨(List.append_nil _).symm, .inl ⟨rfl, hc⟩⟩
  · rw [Attempt.moments_bind_ok answer hr] at hp ⊢
    rw [Attempt.result_bind_ok answer hr]
    have hfooter : ((answer (.print .footer)).run _).1 = .ok () :=
      hp _ (List.mem_append_right _ List.mem_cons_self)
    rw [Attempt.moments_print_bind answer hfooter, Attempt.result_print_bind answer hfooter,
      linesOf_append, hlines]
    refine ⟨rfl, Ends.append hn (.inr ⟨rfl, ?_⟩)⟩
    simp [pure, Moment.Cancelled]

theorem printFiles_accounted {backend : Backend} {runFile : SourceFile → Attempt Bool}
    {loops : Nat} (h : ∀ f, AccountsFile answer loops f.name (runFile f))
    (files : List SourceFile) (w : σ)
    (hp : ∀ m ∈ (printFiles backend runFile files).dialogue.moments answer w, m.Printed) :
    ∃ groups, Accounts loops files ((printFiles backend runFile files).dialogue.moments answer w)
      ((printFiles backend runFile files).dialogue.result answer w) groups := by
  have hheader : ((answer (.print .header)).run w).1 = .ok () := hp _ List.mem_cons_self
  rw [printFiles, Attempt.moments_print_bind answer hheader] at hp
  obtain ⟨groups, hfiles, hbounds, hlines, hends⟩ := runToEnd_accounted h files _ fun m hm =>
    hp m (List.mem_cons_of_mem _ hm)
  refine ⟨groups, hfiles, hbounds, ?_, ?_⟩
  · rw [printFiles, Attempt.moments_print_bind answer hheader,
      Attempt.result_print_bind answer hheader, List.cons_append, ← hlines]
    rfl
  · rw [printFiles, Attempt.moments_print_bind answer hheader,
      Attempt.result_print_bind answer hheader]
    exact hends.cons id

theorem runAll_accounted {backend : Backend} {s : Settings} {runFile : SourceFile → Attempt Bool}
    (h : ∀ f, AccountsFile answer s.loopCount f.name (runFile f)) {files : List SourceFile}
    {w : σ} (hfiles : (resolveSources s.sourceDir s.files).dialogue.result answer w = .ok files)
    (hp : ∀ m ∈ (runAll backend s runFile).dialogue.moments answer w, m.Printed) :
    ∃ groups, Accounts s.loopCount files ((runAll backend s runFile).dialogue.moments answer w)
      ((runAll backend s runFile).dialogue.result answer w) groups := by
  have hq : ∀ m ∈ (resolveSources s.sourceDir s.files).dialogue.moments answer w,
      Quiet m.request := fun m hm =>
    quiet_of_looks (Dialogue.kind_of_mem_moments answer (asks_resolveSources _ _) w m hm)
  let started :=
    Event.startingRun backend files.length (files.filter (·.isReady)).length s.loopCount
  let w' := (resolveSources s.sourceDir s.files).dialogue.final answer w
  have hm : (runAll backend s runFile).dialogue.moments answer w =
      ((resolveSources s.sourceDir s.files).dialogue.moments answer w ++
        (Ask.report started).moments answer w') ++
        (printFiles backend runFile files).dialogue.moments answer
          ((Ask.report started).final answer w') := by
    rw [runAll, Attempt.moments_bind_ok answer hfiles, List.append_assoc]
    rfl
  have hr : (runAll backend s runFile).dialogue.result answer w =
      (printFiles backend runFile files).dialogue.result answer
        ((Ask.report started).final answer w') := by
    rw [runAll, Attempt.result_bind_ok answer hfiles]
    rfl
  obtain ⟨groups, hgroups⟩ := printFiles_accounted h files _ fun m hmem =>
    hp m (hm ▸ List.mem_append_right _ hmem)
  rw [hm, hr]
  refine ⟨groups, hgroups.quiet_append fun m hmem => ?_⟩
  rcases List.mem_append.mp hmem with hmem | hmem
  · exact hq m hmem
  · rw [List.mem_singleton.mp hmem]
    trivial

theorem passed_of_check {s : Settings} {backend : Backend} {v : σ}
    (h : (s.checkFor backend).dialogue.result answer v = .ok ()) :
    s.files ≠ [] ∧ s.loopCount ≠ 0 ∧
      (checkSourceDir s.sourceDir).dialogue.result answer v = .ok () ∧
      match backend with
      | .mounted => s.destinationDir ≠ none
      | .direct => ∃ c, s.connection.resolve = .ok c := by
  unfold Settings.checkFor at h
  split at h
  · cases h
  rename_i hfiles
  split at h
  · cases h
  rename_i hloops
  obtain ⟨_, hsource, hrest⟩ := Attempt.result_bind_eq_ok answer h
  refine ⟨fun hnil => hfiles (List.isEmpty_iff.mpr hnil), hloops, hsource, ?_⟩
  cases backend with
  | mounted =>
    intro hnone
    rw [hnone] at hrest
    cases hrest
  | direct =>
    cases hc : s.connection.resolve with
    | ok c => exact ⟨c, rfl⟩
    | error e =>
      simp only [hc] at hrest
      cases hrest

theorem loopCount_ne_zero_of_check {s : Settings} {backend : Backend} {v : σ}
    (h : (s.checkFor backend).dialogue.result answer v = .ok ()) : s.loopCount ≠ 0 :=
  (passed_of_check h).2.1

theorem destinationDir_ne_none_of_check {s : Settings} {v : σ}
    (h : (s.checkFor .mounted).dialogue.result answer v = .ok ()) : s.destinationDir ≠ none :=
  (passed_of_check h).2.2.2

/-- What a run prints that breaks off: a beginning of the rows. With the last of them the bytes of
one file and operation leave their range. -/
structure BreaksOff (loops : Nat) (files : List SourceFile) (ms : List (Moment σ))
    (groups : List FileRows) : Prop where
  files : groups.map (·.file) = (files.filter (·.isReady)).map (·.name)
  bounded : ∀ g ∈ groups, g.IsBounded loops
  lines : ∃ rows r, linesOf ms = .header :: rows ++ [.record r] ∧
    rows ++ [.record r] <+: groups.flatMap (·.lines) ∧
    BytesFit (rowsOf rows) ∧ ¬ BytesFit (rowsOf rows ++ [r])

theorem prefix_of_prefix_ending {rows body : List Line} {r : Except Fault Bool} {row : Record}
    (h : rows ++ [.record row] <+: body ++ ending r) : rows ++ [.record row] <+: body := by
  rcases Classical.em (r = .error .cancelled) with rfl | hr
  · rwa [ending, List.append_nil] at h
  · have hending : ending r = [.footer] := by
      rcases r with e | b
      · cases e <;> first | rfl | exact absurd rfl hr
      · rfl
    rw [hending] at h
    refine (List.prefix_concat_iff.mp h).resolve_left fun heq => ?_
    have hlast := congrArg List.getLast? heq
    rw [List.getLast?_concat, List.getLast?_concat] at hlast
    cases hlast

theorem Accounts.breaksOff {loops : Nat} {files : List SourceFile} {front back : List (Moment σ)}
    {m : Moment σ} {r : Except Fault Bool} {groups : List FileRows} {row : Record}
    (h : Accounts loops files (front ++ m :: back) r groups)
    (hrow : m.line? = some (.record row))
    (hkept : BytesFit (rowsOf (linesOf front)))
    (hfull : ¬ BytesFit (rowsOf (linesOf front) ++ [row])) :
    BreaksOff loops files (front ++ [m]) groups := by
  refine ⟨h.files, h.bounded, ?_⟩
  have hline : linesOf [m] = [.record row] := List.filterMap_cons_some hrow
  have hcut : linesOf front ++ [.record row] <+:
      .header :: (groups.flatMap (·.lines) ++ ending r) := by
    refine ⟨linesOf back, ?_⟩
    have hrest : linesOf (m :: back) = .record row :: linesOf back :=
      List.filterMap_cons_some hrow
    rw [← List.cons_append, ← h.lines, linesOf_append, hrest, List.append_assoc,
      List.singleton_append]
  cases hfront : linesOf front with
  | nil =>
    rw [hfront] at hcut
    cases (List.cons_prefix_cons.mp hcut).1
  | cons l rows =>
    rw [hfront] at hcut hkept hfull
    obtain ⟨rfl, hrest⟩ := List.cons_prefix_cons.mp hcut
    refine ⟨rows, row, ?_, prefix_of_prefix_ending hrest, hkept, hfull⟩
    rw [linesOf_append, hfront, hline]

variable (answer) in
/-- A run goes to its end if the bytes of every file and operation are in their range, and
otherwise breaks off. -/
def EndsOrBreaks (loops : Nat) (files : List SourceFile) (r : Runner) (w : σ) : Prop :=
  (BytesFit (recordsIn ((r.run .empty).moments answer w)) ∧
    ∃ t result groups, (r.run .empty).result answer w = some (t, result) ∧
      Accounts loops files ((r.run .empty).moments answer w) result groups) ∨
  (¬ BytesFit (recordsIn ((r.run .empty).moments answer w)) ∧
    (r.run .empty).result answer w = none ∧
      ∃ groups, BreaksOff loops files ((r.run .empty).moments answer w) groups)

theorem endsOrBreaks_of_accounts {loops : Nat} {files : List SourceFile} {r : Runner} {w : σ}
    (hprinted : ∀ m ∈ r.session.dialogue.moments answer w, m.Printed)
    {groups : List FileRows} (h : Accounts loops files (r.session.dialogue.moments answer w)
      (r.session.dialogue.result answer w) groups) :
    EndsOrBreaks answer loops files r w := by
  rcases r.session.dialogue.ends_or_breaks answer w with
    ⟨hfit, t, -, hpasses⟩ | ⟨front, m, back, row, hcut, hrow, hkept, hfull, hpasses⟩
  · refine .inl ⟨?_, t, _, groups, hpasses.result, ?_⟩
    · rwa [Runner.run, hpasses.moments]
    · rwa [Runner.run, hpasses.moments]
  · refine .inr ⟨?_, hpasses.result, groups, ?_⟩
    · rwa [Runner.run, hpasses.moments]
    · have hfront : ∀ m ∈ front, m.Printed := fun m hm =>
        hprinted m (hcut ▸ List.mem_append_left _ hm)
      rw [recordsIn_append, recordsIn_cons, hrow] at hfull
      rw [recordsIn_of_printed hfront] at hkept hfull
      rw [hcut] at h
      rw [Runner.run, hpasses.moments]
      exact h.breaksOff (line?_of_printed? hrow) hkept hfull

/-- Whatever answers come, and wherever the run is cancelled: over a stream that takes its lines, a
run prints a header, for each ready file in list order at most so many write rows and then at most
so many read rows, and a blank line unless it is cancelled. If it is not, it answers whether every
trial of every ready file has its row. Only a row with which the bytes of one file and operation
leave their range ends it at once. -/
theorem run_accounted (answer : (r : Request) → StateM σ r.Answer) (s : Settings) (r : Runner)
    (hr : r = mounted s ∨ ∃ store, r = direct s store) (v w : σ)
    (haccepted : r.check.dialogue.result answer v = .ok ()) (files : List SourceFile)
    (hfiles : (resolveSources s.sourceDir s.files).dialogue.result answer w = .ok files)
    (hsink : ∀ m ∈ (r.run .empty).moments answer w, m.Printed) :
    files.map (·.name) = s.files ∧ EndsOrBreaks answer s.loopCount files r w := by
  refine ⟨names_resolveSources hfiles, ?_⟩
  -- lines that a broken run does not come to may as well be printed
  obtain ⟨hmoments, hresult, -⟩ := (r.run .empty).passes_printing hsink
  have hlooks := Dialogue.kind_of_mem_moments answer (asks_resolveSources s.sourceDir s.files) w
  have hresolved := ((resolveSources s.sourceDir s.files).dialogue.passes_printing fun m hm =>
    Moment.printed_of_line? (line?_of_quiet (quiet_of_looks (hlooks m hm)))).result.trans hfiles
  have hprinted := moments_printing answer r.session.dialogue w
  suffices h : EndsOrBreaks (printing answer) s.loopCount files r w by
    rwa [EndsOrBreaks, hmoments, hresult] at h
  obtain ⟨groups, hgroups⟩ : ∃ groups, Accounts s.loopCount files
      (r.session.dialogue.moments (printing answer) w)
      (r.session.dialogue.result (printing answer) w) groups := by
    rcases hr with rfl | ⟨store, rfl⟩
    · exact runAll_accounted (accountsFile_mounted (loopCount_ne_zero_of_check haccepted)
        (destinationDir_ne_none_of_check haccepted)) hresolved hprinted
    · exact runAll_accounted (accountsFile_direct s store) hresolved hprinted
  exact endsOrBreaks_of_accounts hprinted hgroups

def sampleFiles : FileSystem where
  nodes := #[.directory 0, .directory 0, .directory 0, .file ⟨#[1, 2, 3]⟩]
  entries := [⟨0, "src", 1⟩, ⟨0, "dst", 2⟩, ⟨1, "a", 3⟩]
  workingDir := 0

def sampleSettings : Settings :=
  { Settings.default .mounted with
    sourceDir := "src", destinationDir := some "dst", files := ["a", "b", "a"], loopCount := 2 }

def sampleCancelled : Surroundings :=
  { Surroundings.calm sampleFiles with
    schedule := fun k =>
      if k = 28 then { Turn.calm with intervention := some (.cancel 1) } else .calm }

theorem run_accounted_cancelled :
    ∃ files, (mounted sampleSettings).check.dialogue.result Surroundings.answer sampleCancelled =
        .ok () ∧
      (resolveSources sampleSettings.sourceDir sampleSettings.files).dialogue.result
        Surroundings.answer sampleCancelled = .ok files ∧
      (∀ m ∈ ((mounted sampleSettings).run .empty).moments Surroundings.answer sampleCancelled,
        m.Printed) ∧
      (((mounted sampleSettings).run .empty).result Surroundings.answer sampleCancelled).map (·.2) =
        some (.error .cancelled) ∧
      files.map (·.name) = sampleSettings.files ∧
      EndsOrBreaks Surroundings.answer sampleSettings.loopCount files (mounted sampleSettings)
        sampleCancelled := by
  have haccepted : (mounted sampleSettings).check.dialogue.result Surroundings.answer
      sampleCancelled = .ok () := by decide +kernel
  have hfiles : (resolveSources sampleSettings.sourceDir sampleSettings.files).dialogue.result
      Surroundings.answer sampleCancelled =
        .ok [⟨"a", "src/a", .ready 3⟩, ⟨"b", "src/b", .unavailable (.inaccessible .noEntry)⟩,
          ⟨"a", "src/a", .ready 3⟩] := by decide +kernel
  have hsink : ∀ m ∈ ((mounted sampleSettings).run .empty).moments Surroundings.answer
      sampleCancelled, m.Printed := by decide +kernel
  exact ⟨_, haccepted, hfiles, hsink, by decide +kernel,
    run_accounted Surroundings.answer sampleSettings (mounted sampleSettings) (.inl rfl)
      sampleCancelled sampleCancelled haccepted _ hfiles hsink⟩

/-- A store that tells of every upload that it took as many bytes as can be told. -/
def boasting : (r : Request) → StateM Surroundings r.Answer
  | .trial (.upload ..) _ => fun w => (.ok ⟨2 ^ 64 - 1, .zero⟩, w)
  | r => Surroundings.answer r

def sampleDirect : Settings :=
  { sampleSettings with
    mode := .direct, connection := ⟨some "store.example", some 1, some "db", some "files"⟩ }

/-- A run over a store that boasts has no end, though nobody cancels it. -/
theorem boasting_run_breaks_off :
    let w := { Surroundings.calm sampleFiles with stores := #[.calm .empty] }
    (direct sampleDirect 0).check.dialogue.result boasting w = .ok () ∧
      (∀ m ∈ ((direct sampleDirect 0).run .empty).moments boasting w,
        m.Printed ∧ m.after.isCancelled = false) ∧
      linesOf (((direct sampleDirect 0).run .empty).moments boasting w) =
        [.header, row "a" .write ⟨2 ^ 64 - 1, .zero⟩, row "a" .write ⟨2 ^ 64 - 1, .zero⟩] ∧
      ((direct sampleDirect 0).run .empty).result boasting w = none := by
  decide +kernel

end StorageTrials.Runner

import StorageTrials.Proofs.FileSystem.Opening
import StorageTrials.Proofs.Refusal
import StorageTrials.Proofs.Undisturbed

namespace StorageTrials

open Runner Surroundings

namespace FileSystem

variable {fs : FileSystem} {path : String} {id dir : NodeId} {chunk : Nat} {e : SystemError}
variable {purpose : Purpose} {links : Nat} {trailing : Bool} {steps : List Path.Step} {s : Spot}
variable {hitches : List Hitch}

theorem linkAt_of_walk (hw : fs.walk purpose links trailing dir steps = .ok s) :
    fs.linkAt purpose s = .ok none := by
  fun_induction walk fs purpose links trailing dir steps with
  | case1 | case2 | case4 | case6 => cases hw
  | case3 trailing dir steps d target rest ha r links ih => exact ih hw
  | case5 links trailing dir steps s ha hl =>
    cases hw
    exact hl
  | case7 trailing dir steps s ha d target hl r links ih => exact ih hw

theorem WellFormed.node?_of_find (h : fs.WellFormed) (hf : fs.find path = .ok id) :
    ∃ m, fs.node? id = some m ∧ ∀ target, m ≠ .link target := by
  rcases locate_of_find hf with hl | ⟨d, name, t, hl, hchild, -⟩
  · obtain ⟨up, hup⟩ := isDirectory_iff.mp (h.locate_isDirectory hl)
    exact ⟨.directory up, hup, fun target ht => Node.noConfusion ht⟩
  · obtain ⟨m, hn⟩ : ∃ m, fs.node? id = some m :=
      ⟨_, Array.getElem?_eq_getElem (h.lt_size (child_eq_ok_iff.mp hchild).2)⟩
    refine ⟨m, hn, fun target ht => ?_⟩
    have hend := linkAt_of_walk (locate_eq_walk hl).1
    rw [linkAt_of_follows rfl, hchild] at hend
    simp only [hn, ht] at hend
    cases hend

structure Ordinary (fs : FileSystem) : Prop extends fs.WellFormed where
  devices : ∀ d, .device d ∉ fs.nodes

theorem Ordinary.node?_of_find (h : fs.Ordinary) (hf : fs.find path = .ok id) :
    (∃ x, fs.node? id = some (.file x)) ∨ ∃ up, fs.node? id = some (.directory up) := by
  obtain ⟨m, hn, hlink⟩ := h.toWellFormed.node?_of_find hf
  cases m with
  | file x => exact .inl ⟨x, hn⟩
  | directory up => exact .inr ⟨up, hn⟩
  | link target => exact absurd rfl (hlink target)
  | device d => exact absurd (Array.mem_of_getElem? hn) (h.devices d)

def checked (fs : FileSystem) (path : String) : Except Fault Nat :=
  match fs.inspect path with
  | .error e => .error (.system e)
  | .ok (.file size) => .ok size
  | .ok _ => .error (.trial (.destinationNotFile path))

/-- What is said of a path as a listed source, as a destination and as a file to be read: its size,
that it is a directory, or why it cannot be reached. -/
inductive Verdict (path : String) :
    SourceStatus → Except Fault Nat → Except SystemError Nat → Prop
  | file (size : Nat) : Verdict path (.ready size) (.ok size) (.ok size)
  | directory : Verdict path (.unavailable .notRegular)
      (.error (.trial (.destinationNotFile path))) (.error .isDirectory)
  | unreachable (e : SystemError) : Verdict path (.unavailable (.inaccessible e))
      (.error (.system e)) (.error e)

namespace Verdict

variable {status : SourceStatus} {check : Except Fault Nat} {read : Except SystemError Nat}

theorem ready_iff (h : Verdict path status check read) (n : Nat) :
    status = .ready n ↔ check = .ok n := by
  cases h <;> simp

theorem check_iff (h : Verdict path status check read) (n : Nat) :
    check = .ok n ↔ read = .ok n := by
  cases h <;> simp

end Verdict

theorem drain_of_error (hf : fs.find path = .error e) :
    fs.drain path chunk none hitches = .error e := by
  rw [drain, hf]
  rfl

theorem drain_directory {up : NodeId} (hf : fs.find path = .ok id)
    (hn : fs.node? id = some (.directory up)) (hc : 0 < chunk) :
    fs.drain path chunk none hitches = .error .isDirectory := by
  rw [drain, hf]
  change fs.drainNode id chunk none hitches = _
  rw [drainNode, hn]
  simp [Nat.ne_of_gt hc]

theorem Ordinary.verdict (h : fs.Ordinary) (hc : 0 < chunk) (hitches : List Hitch)
    (path : String) :
    Verdict path (fs.status path) (fs.checked path) (fs.drain path chunk none hitches) := by
  cases hf : fs.find path with
  | error e =>
    have hi : fs.inspect path = .error e := by
      rw [inspect, hf]
      rfl
    rw [status, checked, hi, drain_of_error hf]
    exact .unreachable e
  | ok id =>
    rcases h.node?_of_find hf with ⟨x, hn⟩ | ⟨up, hn⟩
    · have hb : fs.bytes? path = some x := bytes?_eq_some_iff.mpr ⟨id, hf, hn⟩
      rw [status, checked, inspect_of_bytes? hb, drain_complete hb hc]
      exact .file x.size
    · have hi : fs.inspect path = .ok .directory :=
        inspect_eq_directory_iff.mpr ⟨id, hf, isDirectory_iff.mpr ⟨up, hn⟩⟩
      -- the directory can be opened, so a drain gets as far as its first piece
      rw [status, checked, hi, drain_directory hf hn hc]
      exact .directory

end FileSystem

open FileSystem

variable {w : Surroundings} {dir : String}

namespace Surroundings

theorem Alone.result_calm (h : w.Alone) {α : Type} {d : Dialogue α} (hd : d.Asks Looks) :
    d.result answer w = d.result answer (.calm w.files) :=
  Alone.result_eq (w := .calm w.files) (fun _ => rfl) h rfl hd

theorem Alone.result_examine (h : w.Alone) (path : String) :
    (SourceFile.examine path).result answer w = w.files.status path := by
  rw [h.result_calm (asks_examine path)]
  exact ((undisturbed_calm w.files).meets_examine path).ends.1

theorem Alone.run_inspect (h : w.Alone) (path : String) :
    ((answer (.inspect path)).run w).1 = w.files.inspect path := by
  rw [run_answer, answerIn, h.files_turned]

theorem Alone.result_checkDestination (h : w.Alone) (path : String) :
    (checkDestination path).dialogue.result answer w = w.files.checked path := by
  change (Dialogue.ask (.inspect path) _).result answer w = _
  rw [Dialogue.result_ask, h.run_inspect, checked]
  rcases w.files.inspect path with e | (size | _ | _) <;> rfl

theorem Alone.result_checkSourceDir (h : w.Alone) (dir : String) :
    (w.files.inspect dir = .ok .directory ∧
        (checkSourceDir dir).dialogue.result answer w = .ok ()) ∨
      w.files.inspect dir ≠ .ok .directory ∧
        ∃ fault, (checkSourceDir dir).dialogue.result answer w = .error (.settings fault) := by
  change (_ ∧ (Dialogue.ask (.inspect dir) _).result answer w = _) ∨
    _ ∧ ∃ fault, (Dialogue.ask (.inspect dir) _).result answer w = _
  rw [Dialogue.result_ask, h.run_inspect]
  rcases w.files.inspect dir with e | (size | _ | _)
  · exact .inr ⟨by simp, _, rfl⟩
  · exact .inr ⟨by simp, _, rfl⟩
  · exact .inl ⟨rfl, rfl⟩
  · exact .inr ⟨by simp, _, rfl⟩

theorem Alone.result_resolveSources (h : w.Alone) (hdir : w.files.inspect dir = .ok .directory)
    (names : List String) :
    (resolveSources dir names).dialogue.result answer w =
      .ok (names.map (w.files.source dir)) := by
  rw [h.result_calm (asks_resolveSources dir names)]
  exact ((undisturbed_calm w.files).meets_resolveSources hdir names).ends.1

end Surroundings

/-- The uses of a listed file agree about it: it is ready with a size exactly if it is a regular
file of that size, exactly if a check of it as a destination gives that size, and exactly if that
many bytes can be read from it, in pieces of whatever size and whatever keeps a read from bringing
all it is asked for. If not, all three refuse it. -/
structure SourceFile.Agreed (f : SourceFile) (w : Surroundings) : Prop where
  regular : ∀ n, f.status = .ready n ↔ ∃ x, w.files.bytes? f.path = some x ∧ x.size = n
  checked : ∀ n, f.status = .ready n ↔ (checkDestination f.path).dialogue.result answer w = .ok n
  read : ∀ chunk, 0 < chunk → ∀ hitches, ∀ n,
    (checkDestination f.path).dialogue.result answer w = .ok n ↔
      w.files.drain f.path chunk none hitches = .ok n
  verdict : ∀ chunk, 0 < chunk → ∀ hitches, Verdict f.path f.status
    ((checkDestination f.path).dialogue.result answer w) (w.files.drain f.path chunk none hitches)

theorem Surroundings.Alone.agreed (h : w.Alone) (ho : w.files.Ordinary) (dir name : String) :
    (w.files.source dir name).Agreed w := by
  have hverdict : ∀ chunk, 0 < chunk → ∀ hitches, Verdict (w.files.source dir name).path
      (w.files.source dir name).status
      ((checkDestination (w.files.source dir name).path).dialogue.result answer w)
      (w.files.drain (w.files.source dir name).path chunk none hitches) := by
    intro chunk hc hitches
    rw [h.result_checkDestination]
    exact ho.verdict hc hitches _
  exact ⟨fun n => status_eq_ready_iff, (hverdict 1 Nat.one_pos []).ready_iff,
    fun chunk hc hitches => (hverdict chunk hc hitches).check_iff, hverdict⟩

/-- While nobody else changes the files, a list of names can be resolved exactly below an accessible
directory. Every name then has one entry in its place, which says what is said of the name alone,
and what is said agrees with a check of it as a destination and with reading it. -/
theorem resolution_agrees_with_reading (h : w.Alone) (ho : w.files.Ordinary) (dir : String)
    (names : List String) :
    ((checkSourceDir dir).dialogue.result answer w = .ok () ↔
        ∃ id, w.files.find dir = .ok id ∧ w.files.isDirectory id = true) ∧
      ((checkSourceDir dir).dialogue.result answer w = .ok () →
        ∃ files, (resolveSources dir names).dialogue.result answer w = .ok files ∧
          files = names.map (fun name => ⟨name, Path.join dir name,
            (SourceFile.examine (Path.join dir name)).result answer w⟩) ∧
          ∀ f ∈ files, f.Agreed w) ∧
      ∀ fault, (resolveSources dir names).dialogue.result answer w = .error fault →
        (∃ cause, fault = .settings cause) ∧
          ¬ ∃ id, w.files.find dir = .ok id ∧ w.files.isDirectory id = true := by
  rw [← inspect_eq_directory_iff]
  rcases h.result_checkSourceDir dir with ⟨hdir, hcheck⟩ | ⟨hdir, cause, hcheck⟩
  · have hresolve := h.result_resolveSources hdir names
    refine ⟨iff_of_true hcheck hdir, fun _ => ⟨_, hresolve, ?_, fun f hf => ?_⟩, fun fault he => ?_⟩
    · refine List.map_congr_left fun name _ => ?_
      rw [h.result_examine]
      rfl
    · obtain ⟨name, -, rfl⟩ := List.mem_map.mp hf
      exact h.agreed ho dir name
    · cases hresolve.symm.trans he
  · have hfail : (checkSourceDir dir).dialogue.result answer w ≠ .ok () := by simp [hcheck]
    refine ⟨iff_of_false hfail hdir, fun hok => absurd hok hfail,
      fun fault he => ⟨⟨cause, ?_⟩, hdir⟩⟩
    have hresolve : (resolveSources dir names).dialogue.result answer w =
        .error (.settings cause) :=
      Attempt.result_bind_error answer hcheck
    exact Except.error.inj (he.symm.trans hresolve)

def sampleNames : List String := ["chain", "sub", "a/", "loop", "lost", "/src/a", "chain"]

def sampleWays : FileSystem where
  nodes := #[.directory 0, .directory 0, .file ⟨#[1, 2, 3]⟩, .directory 1, .link "way",
    .link "../src/sub/../a", .link "loop", .link "nowhere"]
  entries := [⟨0, "src", 1⟩, ⟨1, "a", 2⟩, ⟨1, "sub", 3⟩, ⟨1, "chain", 4⟩, ⟨1, "way", 5⟩,
    ⟨1, "loop", 6⟩, ⟨1, "lost", 7⟩]
  workingDir := 0

theorem resolution_agrees_with_reading_linked :
    (calm sampleWays).Alone ∧ sampleWays.Ordinary ∧
      (checkSourceDir "src").dialogue.result answer (calm sampleWays) = .ok () ∧
      (resolveSources "src" sampleNames).dialogue.result answer (calm sampleWays) =
        .ok [⟨"chain", "src/chain", .ready 3⟩, ⟨"sub", "src/sub", .unavailable .notRegular⟩,
          ⟨"a/", "src/a/", .unavailable (.inaccessible .notDirectory)⟩,
          ⟨"loop", "src/loop", .unavailable (.inaccessible .tooManyLinks)⟩,
          ⟨"lost", "src/lost", .unavailable (.inaccessible .noEntry)⟩,
          ⟨"/src/a", "/src/a", .ready 3⟩, ⟨"chain", "src/chain", .ready 3⟩] ∧
      sampleWays.drain "src/chain" 2 none [.interrupted, .short 0] = .ok 3 ∧
      ∀ n, (checkDestination "src/sub").dialogue.result answer (calm sampleWays) ≠ .ok n := by
  have halone : (calm sampleWays).Alone := fun _ => rfl
  have hwell : sampleWays.WellFormed := ⟨by decide, by decide, by decide, by decide⟩
  have hdevices : ∀ d, Node.device d ∉ sampleWays.nodes := by
    intro d
    cases d <;> decide +kernel
  have hcheck : (checkSourceDir "src").dialogue.result answer (calm sampleWays) = .ok () := by
    decide +kernel
  obtain ⟨-, hlisted, -⟩ :=
    resolution_agrees_with_reading halone ⟨hwell, hdevices⟩ "src" sampleNames
  obtain ⟨files, hresolve, rfl, hagreed⟩ := hlisted hcheck
  have hchain := hagreed _ List.mem_cons_self
  have hsub := hagreed _ (List.mem_cons_of_mem _ List.mem_cons_self)
  refine ⟨halone, ⟨hwell, hdevices⟩, hcheck, hresolve.trans (by decide +kernel), ?_, fun n hn => ?_⟩
  · have hready := (hchain.checked 3).mp (by decide +kernel)
    exact (hchain.read 2 (Nat.succ_pos 1) _ 3).mp hready
  · have hstatus : (SourceFile.examine "src/sub").result answer (calm sampleWays) =
        .unavailable .notRegular := by
      decide +kernel
    cases hstatus.symm.trans ((hsub.checked n).mpr hn)

end StorageTrials

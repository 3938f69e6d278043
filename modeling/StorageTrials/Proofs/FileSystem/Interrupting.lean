import StorageTrials.Proofs.FileSystem.Copies
import StorageTrials.Proofs.FileSystem.Opening

namespace StorageTrials.FileSystem

variable {fs fs' : FileSystem} {path dest : String} {id target : NodeId} {n : Node} {x : ByteArray}
variable {chunk chunk' : Nat} {hitches hitches' : List Hitch}

theorem node?_create_of_ne (hok : fs.create path = .ok (fs', target)) (hne : id ≠ target)
    (hn : fs.node? id = some n) : fs'.node? id = some n := by
  obtain ⟨d, name, -, ⟨-, hadd⟩ | ⟨-, ⟨-, rfl⟩ | ⟨-, rfl⟩⟩⟩ := create_cases hok
  · have hfs : fs' = (fs.add d name (.file .empty)).1 := congrArg Prod.fst hadd
    rw [hfs, node?_add_of_lt (lt_size_of_node? hn), hn]
  · rw [node?_set_of_ne hne, hn]
  · exact hn

/-- An open file gets a new content. A device keeps nothing. -/
def filled (fs : FileSystem) (target : NodeId) (x : ByteArray) : FileSystem :=
  if fs.isFile target then fs.set target (.file x) else fs

theorem bytes?_filled (h : fs.WellFormed) (hok : fs.create path = .ok (fs', target))
    (hfile : fs'.isFile target = true) (x : ByteArray) :
    (fs'.filled target x).bytes? path = some x := by
  obtain ⟨y, hy⟩ := isFile_iff.mp hfile
  have hset := extends_set (extends_create h hok).holds.wellFormed hfile x
  rw [filled, if_pos hfile]
  exact bytes?_eq_some_iff.mpr
    ⟨target, (hset.find (find_create h hok)).1, node?_set_self (lt_size_of_node? hy)⟩

theorem copyNode_file (hn : fs.node? id = some (.file x))
    (htarget : fs.node? target ≠ some (.device .full)) (chunk : Nat) (patience : Patience)
    (hitches : List Hitch) :
    fs.copyNode id target chunk patience hitches =
      (fs.filled target (copyChunks x chunk (x.size + 1) patience .empty).1,
        (copyChunks x chunk (x.size + 1) patience .empty).2) := by
  rw [← drainNode_file hn chunk patience hitches, filled]
  cases ht : fs.node? target with
  | none => simp [copyNode, hn, ht, isFile, content?]
  | some m =>
    cases m with
    | file y =>
      rw [if_pos (isFile_iff.mpr ⟨y, ht⟩), drainNode_file hn]
      simp only [copyNode, hn, ht, copyPieces_start]
    | device d =>
      cases d with
      | full => exact absurd ht htarget
      | null | zero => simp [copyNode, hn, ht, isFile, content?]
    | directory up => simp [copyNode, hn, ht, isFile, content?]
    | link t => simp [copyNode, hn, ht, isFile, content?]

theorem copy_of_create (hb : fs.bytes? path = some x) (hok : fs.create dest = .ok (fs', target))
    (hother : fs.find path ≠ .ok target) (htarget : fs'.node? target ≠ some (.device .full))
    (chunk : Nat) (patience : Patience) (hitches : List Hitch) :
    fs.copy path dest chunk patience hitches =
      (fs'.filled target (copyChunks x chunk (x.size + 1) patience .empty).1,
        (copyChunks x chunk (x.size + 1) patience .empty).2) := by
  obtain ⟨id, hf, hn⟩ := bytes?_eq_some_iff.mp hb
  have hne : id ≠ target := fun he => hother (he ▸ hf)
  rw [copy, hf]
  simp only [hok]
  exact copyNode_file (node?_create_of_ne hok hne hn) htarget chunk patience hitches

theorem drainNode_none (hc : 0 < chunk) (hc' : 0 < chunk') (fs : FileSystem) (id : NodeId) :
    fs.drainNode id chunk none hitches = fs.drainNode id chunk' none hitches' := by
  cases hn : fs.node? id with
  | none => simp [drainNode, hn]
  | some m =>
    cases m with
    | file x =>
      rw [drainNode_file hn, drainNode_file hn,
        copyChunks_of_exceeds hc (Patience.exceeds_none _),
        copyChunks_of_exceeds hc' (Patience.exceeds_none _)]
    | _ => simp [drainNode, hn, Nat.ne_of_gt hc, Nat.ne_of_gt hc']

theorem copyNode_none (hc : 0 < chunk) (hc' : 0 < chunk') (fs : FileSystem)
    (id target : NodeId) :
    fs.copyNode id target chunk none hitches = fs.copyNode id target chunk' none hitches' := by
  unfold copyNode
  split
  · simp only [copyPieces_start]
    rw [copyChunks_of_exceeds hc (Patience.exceeds_none _),
      copyChunks_of_exceeds hc' (Patience.exceeds_none _)]
  · simp [Nat.ne_of_gt hc, Nat.ne_of_gt hc']
  · rw [drainNode_none hc hc']

theorem drain_none (hc : 0 < chunk) (hc' : 0 < chunk') (fs : FileSystem) (path : String) :
    fs.drain path chunk none hitches = fs.drain path chunk' none hitches' :=
  bind_congr fun id => drainNode_none hc hc' fs id

theorem copy_none (hc : 0 < chunk) (hc' : 0 < chunk') (fs : FileSystem) (path dest : String) :
    fs.copy path dest chunk none hitches = fs.copy path dest chunk' none hitches' := by
  unfold copy
  split
  · rfl
  · split
    · rfl
    · exact copyNode_none hc hc' _ _ _

/-- A file of `n` bytes is copied or read as a whole exactly if the work hears more than `n / chunk`
times, rounded up, that it may go on. If it hears it `j` times, the target holds the first
`j * chunk` bytes and nothing of what it held before. The target may be any file but the source, or
a device that takes what it is given. A source that cannot be opened leaves the target alone, and
work that nobody stops does not depend on the size of the chunks. Reads that are interrupted or
bring less than they are asked for make no difference. -/
theorem chunked_copy_ends (h : fs.WellFormed) (hc : 0 < chunk) (source dest : String)
    (patience : Patience) (hitches : List Hitch) :
    (∀ e, fs.find source = .error e → fs.copy source dest chunk patience hitches = (fs, .error e)) ∧
    (∀ x, fs.bytes? source = some x →
      (patience.Exceeds (x.size ⌈/⌉ chunk) → fs.drain source chunk patience hitches = .ok x.size) ∧
      ∀ j, patience = some j → j ≤ x.size ⌈/⌉ chunk →
        fs.drain source chunk patience hitches = .error .aborted) ∧
    (∀ x fs' target, fs.bytes? source = some x → fs.create dest = .ok (fs', target) →
      fs.find source ≠ .ok target → fs'.node? target ≠ some (.device .full) →
      (patience.Exceeds (x.size ⌈/⌉ chunk) →
        fs.copy source dest chunk patience hitches = (fs'.filled target x, .ok x.size)) ∧
      (∀ j, patience = some j → j ≤ x.size ⌈/⌉ chunk →
        fs.copy source dest chunk patience hitches =
          (fs'.filled target (x.extract 0 (min (j * chunk) x.size)), .error .aborted)) ∧
      (fs'.isFile target = true → ∀ y, (fs'.filled target y).bytes? dest = some y)) ∧
    SystemError.aborted.kind = .interrupted ∧
    ∀ chunk' hitches', 0 < chunk' →
      fs.copy source dest chunk none hitches = fs.copy source dest chunk' none hitches' ∧
      fs.drain source chunk none hitches = fs.drain source chunk' none hitches' := by
  refine ⟨fun e he => ?_, fun x hx => ⟨fun hp => ?_, ?_⟩,
    fun x fs' target hx hok hother htarget =>
      ⟨fun hp => ?_, ?_, fun hfile => bytes?_filled h hok hfile⟩,
    rfl, fun chunk' hitches' hc' =>
      ⟨copy_none hc hc' fs source dest, drain_none hc hc' fs source⟩⟩
  · rw [copy, he]
  · rw [drain_of_bytes? hx, copyChunks_of_exceeds hc hp]
  · rintro j rfl hj
    rw [drain_of_bytes? hx, copyChunks_of_le hc hj]
  · rw [copy_of_create hx hok hother htarget, copyChunks_of_exceeds hc hp]
  · rintro j rfl hj
    rw [copy_of_create hx hok hother htarget, copyChunks_of_le hc hj, firstBytes]

def sampleOverlong : FileSystem where
  nodes := #[.directory 0, .file ⟨#[1, 2, 3, 4, 5]⟩, .file ⟨#[9, 9, 9, 9, 9, 9, 9]⟩, .link "old"]
  entries := [⟨0, "new", 1⟩, ⟨0, "old", 2⟩, ⟨0, "way", 3⟩]
  workingDir := 0

theorem chunked_copy_ends_cut :
    sampleOverlong.WellFormed ∧ (0 : Nat) < 2 ∧
      sampleOverlong.create "way" = .ok (sampleOverlong.set 2 (.file .empty), 2) ∧
      sampleOverlong.copy "new" "way" 2 (some 2) [.interrupted, .short 0, .interrupted] =
        ((sampleOverlong.set 2 (.file .empty)).filled 2 ⟨#[1, 2, 3, 4]⟩, .error .aborted) ∧
      ((sampleOverlong.set 2 (.file .empty)).filled 2 ⟨#[1, 2, 3, 4]⟩).bytes? "way" =
        some ⟨#[1, 2, 3, 4]⟩ := by
  have hwell : sampleOverlong.WellFormed :=
    ⟨by decide +kernel, by decide +kernel, by decide +kernel, by decide +kernel⟩
  have hsource : sampleOverlong.bytes? "new" = some ⟨#[1, 2, 3, 4, 5]⟩ := by decide +kernel
  have hopened : sampleOverlong.create "way" = .ok (sampleOverlong.set 2 (.file .empty), 2) := by
    decide +kernel
  obtain ⟨-, -, hcopy, -⟩ := chunked_copy_ends hwell (show 0 < 2 by decide) "new" "way" (some 2)
    [.interrupted, .short 0, .interrupted]
  obtain ⟨-, hcut, hholds⟩ := hcopy _ _ _ hsource hopened (by decide +kernel) (by decide +kernel)
  exact ⟨hwell, by decide, hopened, hcut 2 rfl (by decide), hholds (by decide +kernel) _⟩

end StorageTrials.FileSystem

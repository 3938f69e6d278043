import Mathlib.Data.List.Basic
import StorageTrials.FileSystem.Access

namespace StorageTrials.FileSystem

variable {fs : FileSystem} {dir dir' id id' : NodeId} {name name' : String} {n : Node}

theorem lookup?_drop_self (fs : FileSystem) (dir : NodeId) (name : String) :
    (fs.drop dir name).lookup? dir name = none := by
  have h : (fs.drop dir name).entries.find? (fun e => e.dir = dir && e.name = name) = none := by
    rw [List.find?_eq_none]
    intro e he
    have hkept := (List.mem_filter.mp he).2
    simp only [Bool.not_eq_true', Bool.and_eq_false_iff, decide_eq_false_iff_not] at hkept
    simp only [Bool.and_eq_true, decide_eq_true_eq]
    exact not_and_or.mpr hkept
  rw [lookup?, h]
  rfl

theorem lookup?_drop_of_ne (h : (dir', name') ≠ (dir, name)) :
    (fs.drop dir name).lookup? dir' name' = fs.lookup? dir' name' := by
  refine congrArg (Option.map _) ?_
  change List.find? _ (List.filter _ fs.entries) = _
  rw [List.find?_filter]
  refine congrArg (List.find? · fs.entries) (funext fun e => ?_)
  by_cases he : e.dir = dir' ∧ e.name = name'
  · obtain ⟨rfl, rfl⟩ := he
    have hne : ¬ (e.dir = dir ∧ e.name = name) := fun hh => h (Prod.ext hh.1 hh.2)
    rcases not_and_or.mp hne with hd | hn
    · simp [hd]
    · simp [hn]
  · simp only [Bool.decide_and, Bool.decide_eq_true]
    grind

theorem lookup?_add_of_ne (h : (dir', name') ≠ (dir, name)) :
    (fs.add dir name n).1.lookup? dir' name' = fs.lookup? dir' name' := by
  have hne : ¬ (dir = dir' ∧ name = name') := fun hh => h (Prod.ext hh.1.symm hh.2.symm)
  have hlast : [Entry.mk dir name fs.nodes.size].find?
      (fun e => e.dir = dir' && e.name = name') = none := by
    simpa using hne
  refine congrArg (Option.map _) ?_
  change List.find? _ (fs.entries ++ _) = _
  rw [List.find?_append, hlast, Option.or_none]

theorem lookup?_add_self (h : fs.lookup? dir name = none) :
    (fs.add dir name n).1.lookup? dir name = some fs.nodes.size := by
  have hnone : fs.entries.find? (fun e => e.dir = dir && e.name = name) = none :=
    Option.map_eq_none_iff.mp h
  change Option.map _ (List.find? _ (fs.entries ++ _)) = _
  rw [List.find?_append, hnone]
  simp

theorem mem_entries_of_lookup? (h : fs.lookup? dir name = some id) :
    ⟨dir, name, id⟩ ∈ fs.entries := by
  obtain ⟨e, he, rfl⟩ := Option.map_eq_some_iff.mp h
  have hnames := List.find?_some he
  simp only [Bool.and_eq_true, decide_eq_true_eq] at hnames
  rw [← hnames.1, ← hnames.2]
  exact List.mem_of_find?_eq_some he

theorem node?_add_of_lt (h : id < fs.nodes.size) :
    (fs.add dir name n).1.node? id = fs.node? id := by
  change (fs.nodes.push n)[id]? = fs.nodes[id]?
  rw [Array.getElem?_push_lt h, Array.getElem?_eq_getElem h]

theorem node?_add_self : (fs.add dir name n).1.node? fs.nodes.size = some n :=
  Array.getElem?_push_size

theorem node?_set_self (h : id < fs.nodes.size) : (fs.set id n).node? id = some n := by
  change (fs.nodes.setIfInBounds id n)[id]? = some n
  rw [Array.getElem?_setIfInBounds_self_of_lt h]

theorem node?_set_of_ne (h : id' ≠ id) : (fs.set id n).node? id' = fs.node? id' :=
  Array.getElem?_setIfInBounds_ne h.symm

theorem lt_size_of_node? (h : fs.node? id = some n) : id < fs.nodes.size :=
  (Array.getElem?_eq_some_iff.mp h).1

theorem isDirectory_iff : fs.isDirectory id = true ↔ ∃ up, fs.node? id = some (.directory up) := by
  unfold isDirectory
  cases h : fs.node? id with
  | none => simp
  | some n => cases n <;> simp [Node.isDirectory]

theorem parent_eq_of_node? {up : NodeId} (h : fs.node? id = some (.directory up)) :
    fs.parent id = up := by
  rw [parent, h]

theorem content?_eq_some_iff {c : ByteArray} :
    fs.content? id = some c ↔ fs.node? id = some (.file c) := by
  unfold content?
  cases h : fs.node? id with
  | none => simp
  | some n => cases n <;> simp

theorem set_add (m : Node) :
    (fs.add dir name n).1.set fs.nodes.size m = (fs.add dir name m).1 := by
  refine congrArg (FileSystem.mk · _ _) ?_
  change (fs.nodes.push n).setIfInBounds fs.nodes.size m = fs.nodes.push m
  exact Array.ext' (by simp)

theorem append_eq (fs : FileSystem) (id : NodeId) (bytes : ByteArray) :
    (∃ c, fs.node? id = some (.file c) ∧ (fs.append id bytes).1 = fs.set id (.file (c ++ bytes))) ∨
      (fs.append id bytes).1 = fs := by
  unfold append
  cases h : fs.node? id with
  | none => exact .inr rfl
  | some n =>
    cases n with
    | file c => exact .inl ⟨c, rfl, rfl⟩
    | directory up => exact .inr rfl
    | link target => exact .inr rfl
    | device device => cases device <;> exact .inr rfl

def isFile (fs : FileSystem) (id : NodeId) : Bool := (fs.content? id).isSome

theorem isFile_iff : fs.isFile id = true ↔ ∃ c, fs.node? id = some (.file c) := by
  simp only [isFile, Option.isSome_iff_exists, content?_eq_some_iff]

theorem isDirectory_of_isFile (h : fs.isFile id = true) : fs.isDirectory id = false := by
  obtain ⟨x, hx⟩ := isFile_iff.mp h
  rw [isDirectory, hx]
  rfl

theorem isFile_congr {fs' : FileSystem} (h : fs'.node? id = fs.node? id) :
    fs'.isFile id = fs.isFile id := by
  rw [isFile, content?, h, isFile, content?]

/-- A tree in which every directory has a parent, and every name stands for something. -/
structure WellFormed (fs : FileSystem) : Prop where
  root : fs.isDirectory root
  workingDir : fs.isDirectory fs.workingDir
  parent : ∀ id < fs.nodes.size, fs.isDirectory (fs.parent id)
  entries : ∀ e ∈ fs.entries, e.node < fs.nodes.size

theorem WellFormed.isDirectory_parent (h : fs.WellFormed) (id : NodeId) :
    fs.isDirectory (fs.parent id) := by
  by_cases hid : id < fs.nodes.size
  · exact h.parent id hid
  · have hnone : fs.node? id = none := Array.getElem?_eq_none (Nat.le_of_not_lt hid)
    rw [FileSystem.parent, hnone]
    exact h.root

theorem WellFormed.lt_size (h : fs.WellFormed) {id : NodeId} (he : fs.lookup? dir name = some id) :
    id < fs.nodes.size :=
  h.entries _ (mem_entries_of_lookup? he)

theorem WellFormed.drop (h : fs.WellFormed) (dir : NodeId) (name : String) :
    (fs.drop dir name).WellFormed where
  root := h.root
  workingDir := h.workingDir
  parent := h.parent
  entries e he := h.entries e (List.mem_filter.mp he).1

theorem WellFormed.of_directories {fs' : FileSystem} (h : fs.WellFormed)
    (hw : fs'.workingDir = fs.workingDir)
    (hd : ∀ id up, fs'.node? id = some (.directory up) ↔ fs.node? id = some (.directory up))
    (he : ∀ e ∈ fs'.entries, e.node < fs'.nodes.size) : fs'.WellFormed := by
  have hdir : ∀ id, fs.isDirectory id → fs'.isDirectory id := fun id hid =>
    let ⟨up, hup⟩ := isDirectory_iff.mp hid
    isDirectory_iff.mpr ⟨up, (hd id up).mpr hup⟩
  refine ⟨hdir _ h.root, hw ▸ hdir _ h.workingDir, fun id _ => ?_, he⟩
  by_cases hid : ∃ up, fs'.node? id = some (.directory up)
  · obtain ⟨up, hup⟩ := hid
    rw [parent_eq_of_node? hup, ← parent_eq_of_node? ((hd id up).mp hup)]
    exact hdir _ (h.isDirectory_parent id)
  · have hroot : fs'.parent id = FileSystem.root := by
      unfold FileSystem.parent
      split
      · rename_i up hup
        exact absurd ⟨up, hup⟩ hid
      · rfl
    rw [hroot]
    exact hdir _ h.root

theorem WellFormed.add (h : fs.WellFormed) (dir : NodeId) (name : String)
    (x : ByteArray) : (fs.add dir name (.file x)).1.WellFormed := by
  refine h.of_directories rfl (fun id up => ?_) fun e he => ?_
  · rcases Nat.lt_trichotomy id fs.nodes.size with hlt | rfl | hgt
    · rw [node?_add_of_lt hlt]
    · have hnone : fs.node? fs.nodes.size = none := Array.getElem?_eq_none (Nat.le_refl _)
      rw [node?_add_self, hnone]
      simp
    · have hnone : fs.node? id = none := Array.getElem?_eq_none (Nat.le_of_lt hgt)
      have hnone' : (fs.add dir name (.file x)).1.node? id = none :=
        Array.getElem?_eq_none (by rw [FileSystem.add, Array.size_push]; exact hgt)
      rw [hnone, hnone']
  · have hsize : (fs.add dir name (.file x)).1.nodes.size = fs.nodes.size + 1 := Array.size_push _
    rw [hsize]
    rcases List.mem_append.mp he with he | he
    · exact Nat.lt_succ_of_lt (h.entries e he)
    · rw [List.mem_singleton.mp he]
      exact Nat.lt_succ_self _

theorem WellFormed.set (h : fs.WellFormed) (hid : fs.isFile id) (x : ByteArray) :
    (fs.set id (.file x)).WellFormed := by
  obtain ⟨y, hy⟩ := isFile_iff.mp hid
  refine h.of_directories rfl (fun id' up => ?_) fun e he => ?_
  · by_cases hne : id' = id
    · rw [hne, node?_set_self (lt_size_of_node? hy), hy]
      simp
    · rw [node?_set_of_ne hne]
  · have hsize : (fs.set id (.file x)).nodes.size = fs.nodes.size := Array.size_setIfInBounds
    rw [hsize]
    exact h.entries e he

end StorageTrials.FileSystem

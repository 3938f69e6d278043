import StorageTrials.Proofs.FileSystem.Sources
import StorageTrials.Proofs.RowAccounting

namespace StorageTrials.Runner

def FileRows.records (g : FileRows) : List Record :=
  g.writes.map (.ofSample g.file .write) ++ g.reads.map (.ofSample g.file .read)

theorem FileRows.rowsOf_lines (g : FileRows) : rowsOf g.lines = g.records := by
  rw [rowsOf, lines, records, List.filterMap_append, List.filterMap_map, List.filterMap_map]
  exact congrArg₂ (· ++ ·) (congrFun List.filterMap_eq_map' _) (congrFun List.filterMap_eq_map' _)

def linesFor (groups : List FileRows) : List Line :=
  .header :: groups.flatMap (·.lines) ++ [.footer]

theorem rowsOf_linesFor (groups : List FileRows) :
    rowsOf (linesFor groups) = groups.flatMap (·.records) := by
  rw [rowsOf, linesFor, List.filterMap_append, List.filterMap_cons]
  change (groups.flatMap (·.lines)).filterMap Line.record? ++ [] = _
  rw [List.append_nil, List.filterMap_flatMap]
  exact congrArg (groups.flatMap ·) (funext FileRows.rowsOf_lines)

/-- The ready files have all rows, in the order of the list, and each row has the size of its
file. -/
structure AllRows (loops : Nat) (files : List SourceFile) (groups : List FileRows) : Prop where
  names : groups.map (·.file) = (files.filter (·.isReady)).map (·.name)
  full : ∀ g ∈ groups, g.IsFull loops
  sizes : ∀ g ∈ groups, ∀ f ∈ files, f.name = g.file → ∀ r ∈ g.writes ++ g.reads,
    f.size? = some r.bytes

theorem mem_linesFor {groups : List FileRows} {g : FileRows} (hg : g ∈ groups) {r : Sample}
    (hr : r ∈ g.writes ++ g.reads) : ∃ op, row g.file op r ∈ linesFor groups := by
  obtain ⟨op, hrow⟩ : ∃ op, row g.file op r ∈ g.lines := by
    rcases List.mem_append.mp hr with hr | hr
    · exact ⟨.write, List.mem_append_left _ (List.mem_map_of_mem hr)⟩
    · exact ⟨.read, List.mem_append_right _ (List.mem_map_of_mem hr)⟩
  have hflat := List.mem_flatMap.mpr ⟨g, hg, hrow⟩
  exact ⟨op, List.mem_append_left _ (List.mem_cons_of_mem _ hflat)⟩

variable {σ : Type} {ms : List (Moment σ)} {loops : Nat} {groups : List FileRows}

def RowFits (files : List SourceFile) (m : Moment σ) : Prop :=
  ∀ r, m.line? = some (.record r) →
    ∃ f ∈ files, f.isReady = true ∧ r.file = f.name ∧ f.size? = some r.size

theorem linesOf_of_completed {files : List SourceFile}
    (h : Accounts loops files ms (.ok true) groups) : linesOf ms = linesFor groups :=
  h.lines

theorem allRows_of_completed {names : List String} {fs : FileSystem} {source : String}
    (h : Accounts loops (names.map (fs.source source)) ms (.ok true) groups)
    (hrows : ∀ m ∈ ms, RowFits (names.map (fs.source source)) m) :
    AllRows loops (names.map (fs.source source)) groups := by
  refine ⟨h.files, ?_, fun g hg f hf hname r hr => ?_⟩
  · rcases h.ends with ⟨hcancelled, -⟩ | ⟨hfull, -⟩
    · cases hcancelled
    · exact of_decide_eq_true (Except.ok.inj hfull).symm
  · obtain ⟨op, hrow⟩ := mem_linesFor hg hr
    rw [← linesOf_of_completed h] at hrow
    obtain ⟨m, hm, hline⟩ := List.mem_filterMap.mp hrow
    obtain ⟨f', hf', -, hname', hsize⟩ := hrows m hm _ hline
    rw [FileSystem.eq_of_mem_sources hf hf' (hname.trans hname')]
    exact hsize

/-- The bytes of the rows stay in their range: of each file and operation there are so many as the
file has bytes, for every trial at every position of the list. -/
def SizesFit (loops : Nat) (files : List SourceFile) : Prop :=
  ∀ f ∈ files, ∀ size, f.size? = some size →
    (files.map (·.name)).count f.name * (loops * size) < 2 ^ 64

instance (loops : Nat) (files : List SourceFile) : Decidable (SizesFit loops files) :=
  inferInstanceAs (Decidable (∀ f ∈ files, ∀ size ∈ f.size?,
    (files.map (·.name)).count f.name * (loops * size) < 2 ^ 64))

theorem FileRows.bytes_of_records {g : FileRows} {size : Nat} (hg : g.IsFull loops)
    (hsize : ∀ r ∈ g.writes ++ g.reads, r.bytes = size) (op : Operation) :
    ((recordsOf g.records (g.file, op)).map (·.size)).sum = loops * size := by
  have hconst {samples : List Sample} (hs : samples ⊆ g.writes ++ g.reads)
      (hlength : samples.length = loops) (op : Operation) :
      ((recordsOf (samples.map (.ofSample g.file op)) (g.file, op)).map (·.size)).sum =
        loops * size := by
    have hall : recordsOf (samples.map (.ofSample g.file op)) (g.file, op) =
        samples.map (.ofSample g.file op) :=
      List.filter_eq_self.mpr fun r hr => by
        obtain ⟨sample, -, rfl⟩ := List.mem_map.mp hr
        exact decide_eq_true rfl
    have hbytes : (samples.map (.ofSample g.file op)).map Record.size =
        List.replicate loops size := by
      rw [List.map_map, ← hlength]
      exact List.map_eq_replicate_iff.mpr fun sample hsample => hsize sample (hs hsample)
    rw [hall, hbytes, List.sum_replicate, smul_eq_mul]
  have hother {samples : List Sample} {op op' : Operation} (hne : op' ≠ op) :
      recordsOf (samples.map (.ofSample g.file op')) (g.file, op) = [] :=
    List.filter_eq_nil_iff.mpr fun r hr => by
      obtain ⟨sample, -, rfl⟩ := List.mem_map.mp hr
      simpa [Record.key, Record.ofSample] using hne
  rw [records, recordsOf, List.filter_append, List.map_append, List.sum_append]
  change ((recordsOf _ _).map _).sum + ((recordsOf _ _).map _).sum = _
  cases op with
  | write =>
    rw [hconst (List.subset_append_left _ _) hg.1, hother (by decide)]
    rfl
  | read =>
    rw [hconst (List.subset_append_right _ _) hg.2, hother (by decide)]
    exact Nat.zero_add _

theorem FileRows.recordsOf_of_ne {g : FileRows} {k : GroupKey} (h : g.file ≠ k.1) :
    recordsOf g.records k = [] := by
  refine List.filter_eq_nil_iff.mpr fun r hr => ?_
  have hfile : r.file = g.file := by
    rcases List.mem_append.mp hr with hr | hr <;>
      obtain ⟨sample, -, rfl⟩ := List.mem_map.mp hr <;> rfl
  rw [decide_eq_true_iff]
  rintro rfl
  exact h hfile.symm

theorem bytes_flatMap_records {name : String} {size : Nat}
    (hfull : ∀ g ∈ groups, g.IsFull loops)
    (hsize : ∀ g ∈ groups, g.file = name → ∀ r ∈ g.writes ++ g.reads, r.bytes = size)
    (op : Operation) :
    (groupOf (groups.flatMap (·.records)) (name, op)).bytes =
      (groups.map (·.file)).count name * (loops * size) := by
  induction groups with
  | nil => exact (Nat.zero_mul _).symm
  | cons g gs ih =>
    obtain ⟨hg, hgs⟩ := List.forall_mem_cons.mp hfull
    obtain ⟨hone, hrest⟩ := List.forall_mem_cons.mp hsize
    have hsplit : (groupOf ((g :: gs).flatMap (·.records)) (name, op)).bytes =
        ((recordsOf g.records (name, op)).map (·.size)).sum +
          (groupOf (gs.flatMap (·.records)) (name, op)).bytes := by
      rw [List.flatMap_cons, groupOf, recordsOf, List.filter_append, List.map_append,
        List.sum_append]
      rfl
    rw [hsplit, ih hgs hrest, List.map_cons, List.count_cons]
    by_cases hname : g.file = name
    · subst hname
      rw [FileRows.bytes_of_records hg (hone rfl), beq_self_eq_true, if_pos rfl, Nat.add_mul,
        Nat.one_mul, Nat.add_comm]
    · rw [FileRows.recordsOf_of_ne (k := (name, op)) hname, beq_false_of_ne hname]
      exact Nat.zero_add _

/-- Whether the totals of bytes stay in range can be seen from the sizes of the files. -/
theorem AllRows.bytesFit_iff {files : List SourceFile} (h : AllRows loops files groups)
    (hsame : ∀ f ∈ files, ∀ g ∈ files, f.name = g.name → f = g) :
    BytesFit (groups.flatMap (·.records)) ↔ SizesFit loops files := by
  have hcount {f : SourceFile} (hf : f ∈ files) (hr : f.isReady = true) :
      (groups.map (·.file)).count f.name = (files.map (·.name)).count f.name := by
    rw [h.names, List.count_eq_countP, List.count_eq_countP, List.countP_map, List.countP_map,
      List.countP_filter]
    refine List.countP_congr fun g hg => ?_
    simp only [Function.comp, Bool.and_eq_true, beq_iff_eq]
    exact ⟨And.left, fun hname => ⟨hname, hsame f hf g hg hname.symm ▸ hr⟩⟩
  have htotal {f : SourceFile} {size : Nat} (hf : f ∈ files) (hsize : f.size? = some size)
      (op : Operation) : (groupOf (groups.flatMap (·.records)) (f.name, op)).bytes =
        (files.map (·.name)).count f.name * (loops * size) := by
    have hready : f.isReady = true := by rw [SourceFile.isReady, hsize]; rfl
    rw [← hcount hf hready]
    refine bytes_flatMap_records h.full (fun g hg hname r hr => ?_) op
    exact Option.some.inj ((h.sizes g hg f hf hname.symm r hr).symm.trans hsize)
  constructor
  · intro hfit f hf size hsize
    rw [← htotal hf hsize .write]
    exact hfit _
  · rintro hfit ⟨name, op⟩
    by_cases hname : name ∈ groups.map (·.file)
    · rw [h.names] at hname
      obtain ⟨f, hf, rfl⟩ := List.mem_map.mp hname
      obtain ⟨hf, hr⟩ := List.mem_filter.mp hf
      obtain ⟨size, hsize⟩ := Option.isSome_iff_exists.mp hr
      rw [htotal hf hsize]
      exact hfit f hf size hsize
    · have hnone : ∀ g ∈ groups, g.file = name → ∀ r ∈ g.writes ++ g.reads, r.bytes = 0 :=
        fun g hg hg' => absurd (hg' ▸ List.mem_map_of_mem hg) hname
      rw [bytes_flatMap_records h.full hnone, List.count_eq_zero_of_not_mem hname, Nat.zero_mul]
      exact Nat.two_pow_pos 64

/-- The source holds a quarter of the bytes that can be counted. -/
def sampleBulky : FileSystem := sampleFiles.set 3 (.file ⟨Array.replicate (2 ^ 62) 0⟩)

theorem source_bulky {fs : FileSystem} (hf : fs.find (Path.join "src" "a") = .ok 3)
    (hn : fs.node? 3 = sampleBulky.node? 3) :
    fs.source "src" "a" = ⟨"a", "src/a", .ready (2 ^ 62)⟩ := by
  have hbytes : fs.bytes? (Path.join "src" "a") = some ⟨Array.replicate (2 ^ 62) 0⟩ :=
    FileSystem.bytes?_eq_some_iff.mpr ⟨3, hf, hn⟩
  have hjoin : Path.join "src" "a" = "src/a" := by decide +kernel
  rw [FileSystem.source_of_bytes? hbytes, hjoin, ByteArray.size, Array.size_replicate]

end StorageTrials.Runner

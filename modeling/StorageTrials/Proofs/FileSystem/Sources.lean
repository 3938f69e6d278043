import StorageTrials.Proofs.FileSystem.Copies
import StorageTrials.SourceFile

namespace StorageTrials

namespace FileSystem

def status (fs : FileSystem) (path : String) : SourceStatus :=
  match fs.inspect path with
  | .error e => .unavailable (.inaccessible e)
  | .ok (.file size) => .ready size
  | .ok _ => .unavailable .notRegular

def source (fs : FileSystem) (dir name : String) : SourceFile :=
  ⟨name, Path.join dir name, fs.status (Path.join dir name)⟩

variable {fs : FileSystem} {dir : String}

/-- What is ready is a regular file, and its size is known. -/
theorem status_eq_ready_iff {path : String} {n : Nat} :
    fs.status path = .ready n ↔ ∃ x, fs.bytes? path = some x ∧ x.size = n := by
  constructor
  · intro h
    unfold status at h
    split at h
    · cases h
    · rename_i m hm
      cases h
      exact bytes?_of_inspect hm
    · cases h
  · rintro ⟨x, hx, rfl⟩
    rw [status, inspect_of_bytes? hx]

theorem source_of_bytes? {name : String} {x : ByteArray}
    (h : fs.bytes? (Path.join dir name) = some x) :
    fs.source dir name = ⟨name, Path.join dir name, .ready x.size⟩ := by
  rw [source, status_eq_ready_iff.mpr ⟨x, h, rfl⟩]

theorem bytes?_of_source {name : String} {size : Nat}
    (h : (fs.source dir name).size? = some size) :
    ∃ x, fs.bytes? (fs.source dir name).path = some x ∧ x.size = size := by
  refine status_eq_ready_iff.mp ?_
  unfold SourceFile.size? at h
  split at h
  · rename_i n hn
    cases h
    exact hn
  · cases h

variable {names : List String} {f g : SourceFile}

theorem bytes?_of_ready (hf : f ∈ names.map (fs.source dir)) (hr : f.isReady = true) :
    ∃ x, fs.bytes? f.path = some x ∧ f.size? = some x.size := by
  obtain ⟨name, -, rfl⟩ := List.mem_map.mp hf
  obtain ⟨size, hsize⟩ := Option.isSome_iff_exists.mp hr
  obtain ⟨x, hx, rfl⟩ := bytes?_of_source hsize
  exact ⟨x, hx, hsize⟩

theorem eq_of_mem_sources (hf : f ∈ names.map (fs.source dir)) (hg : g ∈ names.map (fs.source dir))
    (hname : f.name = g.name) : f = g := by
  obtain ⟨n, -, rfl⟩ := List.mem_map.mp hf
  obtain ⟨m, -, rfl⟩ := List.mem_map.mp hg
  exact congrArg (fs.source dir) hname

end FileSystem

namespace Scene

variable {fs fs' : FileSystem} {ways : Slot → Prop} {path : String}

theorem Holds.inspect_still (h : (still fs ways fun _ => False).Holds fs')
    (hw : ∀ σ ∈ fs.lookups .examine path, ways σ) : fs'.inspect path = fs.inspect path := by
  obtain ⟨hfind, hnode⟩ := h.find_still hw
  cases hf : fs.find path with
  | error e =>
    rw [FileSystem.inspect, hfind, FileSystem.inspect, hf]
    rfl
  | ok id =>
    rw [FileSystem.inspect_of_find hf, FileSystem.inspect_of_find (hfind.trans hf), hnode id hf]

end Scene

end StorageTrials

import Mathlib.Logic.Function.Basic
import StorageTrials.Proofs.ObjectStore.Streams

namespace StorageTrials

namespace MemoryStore

variable {m : MemoryStore} {name : String}

theorem versionsOf_insert (m : MemoryStore) (name : String) (data : ByteArray) :
    (m.insert name data).versionsOf =
      Function.update m.versionsOf name (m.versionsOf name ++ [⟨name, data, data.size⟩]) := by
  funext other
  by_cases h : other = name
  · subst h
    simp [versionsOf, insert]
  · simp [versionsOf, insert, h, Ne.symm h]

theorem versionsOf_delete (m : MemoryStore) (name : String) :
    (m.delete name).1.versionsOf = Function.update m.versionsOf name [] := by
  funext other
  by_cases h : other = name
  · subst h
    simp [versionsOf, delete]
  · rw [Function.update_of_ne h, versionsOf, delete, List.filter_filter, versionsOf]
    refine List.filter_congr fun v _ => ?_
    by_cases hv : v.name = other
    · simp [hv, h]
    · simp [hv]

theorem upload_cases (m : MemoryStore) (name : String) (source : ByteSource) :
    (∃ data, source.readAll = .ok data ∧
        m.upload name source = (m.insert name data, .ok data.size)) ∨
      ∃ e, source.readAll = .error e ∧ m.upload name source = (m, .error (.system e)) := by
  rw [upload]
  cases source.readAll with
  | ok data => exact .inl ⟨data, rfl, rfl⟩
  | error e => exact .inr ⟨e, rfl, rfl⟩

theorem upload_of_flows {source : ByteSource} (h : source.Flows) (m : MemoryStore)
    (name : String) :
    m.upload name source = match source.failure with
      | none => (m.insert name source.bytes, .ok source.bytes.size)
      | some e => (m, .error (.system e)) := by
  rw [upload, ByteSource.readAll_eq, ByteSource.delivered_of_flows h]
  cases source.failure <;> rfl

theorem sum_pieceSizes (bytes chunk : Nat) : (pieceSizes bytes chunk).sum = bytes := by
  have hdiv := Nat.div_add_mod' bytes chunk
  rw [pieceSizes, List.sum_append, List.sum_replicate_nat]
  split
  · rw [List.sum_nil]
    omega
  · rw [List.sum_singleton]
    omega

theorem download_of_versionsOf {v : StoredVersion} (h : m.versionsOf name = [v]) :
    m.download name = .ok ⟨v.declaredLength, v.data.size⟩ := by
  have hlatest : m.latest? name = some v := by rw [latest?, h, List.getLast?_singleton]
  rw [download, hlatest]
  exact congrArg (fun n => Except.ok (Download.mk v.declaredLength n))
    (sum_pieceSizes _ _)

end MemoryStore

def sampleLittered : MemoryStore :=
  ⟨[⟨"a", ⟨#[9]⟩, 1⟩, ⟨"b", ⟨#[8]⟩, 1⟩, ⟨"a", ⟨#[7, 7]⟩, 2⟩]⟩

namespace MemoryStore

/-- However a stream is cut into pieces, an upload puts in what they are together, as one more
version and with its size as the answer. A stream that fails behind any of its pieces leaves the
store as it was, and the answer is its failure. -/
theorem upload_ignores_cuts (m : MemoryStore) (name : String) (pieces : List ByteArray)
    (h : ∀ p ∈ pieces, p.size ≠ 0) :
    let data := pieces.foldr (· ++ ·) .empty
    (m.upload name ⟨pieces, none⟩ = (m.insert name data, .ok (pieces.map (·.size)).sum) ∧
      (m.insert name data).versionsOf =
        Function.update m.versionsOf name (m.versionsOf name ++ [⟨name, data, data.size⟩])) ∧
    (∀ e, m.upload name ⟨pieces, some e⟩ = (m, .error (.system e))) ∧
    ∀ others : List ByteArray, (∀ p ∈ others, p.size ≠ 0) →
      others.foldr (· ++ ·) .empty = data →
      ∀ failure, m.upload name ⟨others, failure⟩ = m.upload name ⟨pieces, failure⟩ := by
  have hflows (failure : Option SystemError) : (⟨pieces, failure⟩ : ByteSource).Flows := h
  refine ⟨⟨?_, versionsOf_insert m name _⟩, fun e => upload_of_flows (hflows (some e)) m name,
    fun others hothers hdata failure => ?_⟩
  · rw [upload_of_flows (hflows none), ← ByteSource.size_bytes ⟨pieces, none⟩]
    rfl
  · have hothersFlow : (⟨others, failure⟩ : ByteSource).Flows := hothers
    have hbytes : (⟨others, failure⟩ : ByteSource).bytes =
        (⟨pieces, failure⟩ : ByteSource).bytes := hdata
    rw [upload_of_flows hothersFlow, upload_of_flows (hflows failure), hbytes]

def sampleOversize : ByteArray := ⟨Array.replicate (chunkSize + 17) 3⟩

/-- A piece that goes on into the second chunk, and a failure behind it. -/
theorem upload_ignores_cuts_oversize :
    (∀ p ∈ [sampleOversize, ⟨#[1]⟩], p.size ≠ 0) ∧
      (sampleLittered.upload "a" ⟨[sampleOversize, ⟨#[1]⟩], none⟩).2 = .ok (chunkSize + 18) ∧
      sampleLittered.upload "a" ⟨[sampleOversize, ⟨#[1]⟩], some .noSpace⟩ =
        (sampleLittered, .error (.system .noSpace)) := by
  have hsize : sampleOversize.size = chunkSize + 17 := Array.size_replicate
  have hfull : ∀ p ∈ [sampleOversize, ⟨#[1]⟩], p.size ≠ 0 := by
    refine List.forall_mem_cons.mpr ⟨?_, List.forall_mem_singleton.mpr (by decide)⟩
    rw [hsize]
    exact Nat.succ_ne_zero _
  obtain ⟨⟨hput, -⟩, hfailed, -⟩ := upload_ignores_cuts sampleLittered "a" _ hfull
  refine ⟨hfull, ?_, hfailed .noSpace⟩
  rw [hput, List.map_cons, List.sum_cons, hsize]
  rfl

end MemoryStore

end StorageTrials

import StorageTrials.Proofs.RowAccounting
import StorageTrials.Proofs.StoreAnswers

namespace StorageTrials.Surroundings

variable {w w' : Surroundings} {store : StoreId} {name path : String} {x : ByteArray}
variable {m : MemoryStore} {held held' : String → List StoredVersion}

/-- Nobody interrupts a trial or cancels the run, not even its stream. Others may do something to
the files. -/
structure Unhindered (w : Surroundings) : Prop where
  cancels : ∀ k, (w.schedule k).cancels = false
  intervention : ∀ k, (w.schedule k).intervention = none
  stream : ∀ k, w.output = .kept k → k.cancelling = []
  going : w.isCancelled = false

theorem Unhindered.turned (h : w.Unhindered) :
    w.turned = { w with files := (w.schedule w.clock).change w.files, clock := w.clock + 1 } := by
  rw [Surroundings.turned, pass, h.cancels]
  rfl

theorem Unhindered.of_turned (h : w.Unhindered) : w.turned.Unhindered := by
  rw [h.turned]
  exact ⟨h.cancels, h.intervention, h.stream, h.going⟩

/-- What a store holds of each object, with nothing planned for it. -/
def Stocks (w : Surroundings) (store : StoreId) (held : String → List StoredVersion) : Prop :=
  ∃ m, w.shelf? store = some (m, []) ∧ m.versionsOf = held

theorem Stocks.versionsOf (h : w.Stocks store held) : w.versionsOf store = held := by
  obtain ⟨m, hm, rfl⟩ := h
  funext name
  rw [Surroundings.versionsOf, memory_eq, hm]
  rfl

theorem Stocks.of_stores (h : w.Stocks store held) (hs : w'.stores = w.stores) :
    w'.Stocks store held := by
  rw [Stocks, shelf?_congr hs]
  exact h

theorem Stocks.of_shelf? (hs : w'.shelf? store = some (m, [])) (hm : m.versionsOf = held) :
    w'.Stocks store held := ⟨m, hs, hm⟩

theorem Unhindered.print (h : w.Unhindered) (line : Line) : (w.print line).1.Unhindered := by
  unfold Surroundings.print
  split
  · exact ⟨h.cancels, h.intervention, h.stream, h.going⟩
  · exact ⟨h.cancels, h.intervention, h.stream, h.going⟩
  · rename_i s hs
    rw [h.stream s hs]
    refine ⟨h.cancels, h.intervention, fun k hk => ?_, h.going⟩
    cases hk
    rfl

theorem preserves_of_looks_unhindered {r : Request} (hr : Runner.Looks r) :
    r.Preserves answer (fun _ => True) fun w => w.Unhindered ∧ w.Stocks store held := by
  intro w hw
  have hafter : ((answer r).run w).2 = w.turned := by
    cases r with
    | inspect path | probe path => rfl
    | _ => exact hr.elim
  rw [hafter]
  exact ⟨trivial, hw.1.of_turned, hw.2.of_stores (stores_turned w)⟩

def Restocked (w w' : Surroundings) : Prop := ∃ stores, w' = { w with stores := stores }

theorem Restocked.unhindered (h : w.Restocked w') (hw : w.Unhindered) : w'.Unhindered := by
  obtain ⟨stores, rfl⟩ := h
  exact ⟨hw.cancels, hw.intervention, hw.stream, hw.going⟩

theorem Restocked.follows (h : w.Restocked w') : w.Follows w' := by
  obtain ⟨stores, rfl⟩ := h
  exact ⟨rfl, fun _ => Iff.rfl⟩

theorem Restocked.files (h : w.Restocked w') : w'.files = w.files := by
  obtain ⟨stores, rfl⟩ := h
  rfl

theorem Restocked.setMemory (h : w.Restocked w') (change : MemoryStore) :
    w.Restocked (w'.setMemory store change) := by
  obtain ⟨stores, rfl⟩ := h
  exact ⟨_, rfl⟩

theorem receive_of_shelf? (h : w.shelf? store = some (m, [])) (call : StoreCall) :
    ∃ u, w.receive store call = (u, .calm) ∧ w.Restocked u ∧ u.shelf? store = some (m, []) := by
  obtain ⟨d, hd, hshelf⟩ := Option.map_eq_some_iff.mp h
  have hplan : d.plan = [] := congrArg Prod.snd hshelf
  have hcall : (d.receive call).2 = .calm := by
    rw [DisturbedStore.receive, hplan]
    rfl
  have hguards : w.Guards store := by
    intro m' plan hm p hp
    cases h.symm.trans hm
    cases hp
  have hsame := shelf?_receive hguards.owns store call
  refine ⟨_, Prod.ext rfl ?_, ?_, hsame.trans h⟩
  · rw [receive_of_some hd]
    exact hcall
  · rw [receive_of_some hd, hcall]
    exact ⟨_, rfl⟩

theorem shelf?_change {u : Surroundings} (h : u.shelf? store = some (m, []))
    (change : MemoryStore → MemoryStore) :
    (u.setMemory store (change (u.memory store))).shelf? store = some (change m, []) := by
  rw [shelf?_setMemory, if_pos rfl, h]
  rfl

theorem memory_of_shelf? (h : w.shelf? store = some (m, [])) : w.memory store = m := by
  rw [memory_eq, h]
  rfl

/-- A request has been answered as it should be, and then the store holds certain versions. -/
structure Grants (w : Surroundings) (store : StoreId) (held : String → List StoredVersion)
    (r : Request) (good : r.Answer → Prop) : Prop where
  answer : good ((answer r).run w).1
  restocked : w.turned.Restocked ((Surroundings.answer r).run w).2
  stocks : ((Surroundings.answer r).run w).2.Stocks store held

theorem Grants.of_run {r : Request} {good : r.Answer → Prop} {a : r.Answer}
    (hrun : (Surroundings.answer r).run w = (a, w')) (ha : good a) (hw : w.turned.Restocked w')
    (hs : w'.Stocks store held) : w.Grants store held r good := by
  refine ⟨?_, ?_, ?_⟩
  · rwa [hrun]
  · rwa [hrun]
  · rwa [hrun]

theorem grants_delete (hs : w.Stocks store held) (name : String) :
    w.Grants store (Function.update held name []) (.deleteVersions store name)
      fun r => ∃ n, r = .ok n := by
  obtain ⟨m, hm, rfl⟩ := hs.of_stores (stores_turned w)
  obtain ⟨u, hu, hrest, hshelf⟩ := receive_of_shelf? hm .delete
  have hdone : w.turned.deleteVersions store name =
      (u.setMemory store ((u.memory store).delete name).1,
        .ok ((u.memory store).delete name).2) := by
    rw [deleteVersions, hu]
    rfl
  have hrun : (answer (.deleteVersions store name)).run w =
      (.ok ((u.memory store).delete name).2,
        u.setMemory store ((u.memory store).delete name).1) := by
    rw [run_answer, answerIn, hdone]
  exact .of_run hrun ⟨_, rfl⟩ (hrest.setMemory _)
    (.of_shelf? (shelf?_change hshelf fun m => (m.delete name).1) (m.versionsOf_delete name))

theorem run_trial_of_unhindered (h : w.Unhindered) (work : Work) (limit : Option Duration) :
    ∃ t : Turn, t.intervention = none ∧ (answer (.trial work limit)).run w =
      (((w.turned.carryOut work limit t).2).map (⟨·, t.elapsed⟩),
        (w.turned.carryOut work limit t).1) := by
  refine ⟨w.schedule w.clock, h.intervention _, ?_⟩
  rw [run_answer, answerIn, trial, h.of_turned.going]
  rfl

theorem grants_upload (h : w.Unhindered) (hs : w.Stocks store held)
    (hx : w.turned.files.bytes? path = some x) (name : String) (limit : Option Duration) :
    w.Grants store (Function.update held name (held name ++ [⟨name, x, x.size⟩]))
      (.trial (.upload store name path) limit) fun r => ∃ t, r = .ok ⟨x.size, t⟩ := by
  obtain ⟨m, hm, rfl⟩ := hs.of_stores (stores_turned w)
  obtain ⟨id, hid, hn⟩ := FileSystem.bytes?_eq_some_iff.mp hx
  obtain ⟨t, ht, hrun⟩ := run_trial_of_unhindered h (.upload store name path) limit
  obtain ⟨u, hu, hrest, hshelf⟩ := receive_of_shelf? hm .upload
  have hgoing := (hrest.unhindered h.of_turned).going
  have hput : (u.memory store).upload name (streamOf u.files id) =
      ((u.memory store).insert name x, .ok x.size) := by
    rw [streamOf, hrest.files, hn, MemoryStore.upload, ByteSource.readAll_single]
  have hdone : w.turned.carryOut (.upload store name path) limit t =
      (u.setMemory store ((u.memory store).insert name x), .ok x.size) := by
    simp only [carryOut, ht, upload, interrupted?, Option.bind_none, hid, uploadOpened, hu,
      Reception.calm, Bool.false_eq_true, if_false, hgoing, hput]
    rfl
  rw [hdone] at hrun
  exact .of_run hrun ⟨_, rfl⟩ (hrest.setMemory _)
    (.of_shelf? (shelf?_change hshelf fun m => m.insert name x) (m.versionsOf_insert name x))

theorem grants_download (h : w.Unhindered) (hs : w.Stocks store held)
    (hx : held name = [⟨name, x, x.size⟩]) (limit : Option Duration) :
    w.Grants store held (.trial (.download store name) limit)
      fun r => ∃ t, r = .ok ⟨x.size, t⟩ := by
  obtain ⟨m, hm, rfl⟩ := hs.of_stores (stores_turned w)
  obtain ⟨t, ht, hrun⟩ := run_trial_of_unhindered h (.download store name) limit
  obtain ⟨u, hu, hrest, hshelf⟩ := receive_of_shelf? hm .download
  have hgot : (u.memory store).download name = .ok ⟨x.size, x.size⟩ := by
    rw [memory_of_shelf? hshelf, MemoryStore.download_of_versionsOf hx]
  have hdone : w.turned.carryOut (.download store name) limit t = (u, .ok x.size) := by
    simp only [carryOut, ht, download, interrupted?, Option.bind_none, hu, Reception.calm,
      Bool.false_eq_true, if_false, hgot]
    exact congrArg (Prod.mk u) (if_pos rfl)
  rw [hdone] at hrun
  exact .of_run hrun ⟨_, rfl⟩ hrest (.of_shelf? hshelf rfl)

end StorageTrials.Surroundings

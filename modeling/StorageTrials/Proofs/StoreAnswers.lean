import StorageTrials.Proofs.Answers
import StorageTrials.Proofs.ObjectStore.Versions

namespace StorageTrials.Surroundings

variable {w w' : Surroundings} {store id : StoreId} {name : String} {call : StoreCall}

def shelf? (w : Surroundings) (store : StoreId) :
    Option (MemoryStore × List PlannedDisturbance) :=
  (w.stores[store]?).map fun d => (d.store, d.plan)

def versionsOf (w : Surroundings) (store : StoreId) (name : String) : List StoredVersion :=
  (w.memory store).versionsOf name

theorem memory_eq (w : Surroundings) (store : StoreId) :
    w.memory store = ((w.shelf? store).map Prod.fst).getD .empty := by
  rw [memory, shelf?, Option.map_map]
  rfl

theorem memory_congr (h : w'.shelf? store = w.shelf? store) : w'.memory store = w.memory store := by
  rw [memory_eq, memory_eq, h]

theorem shelf?_congr (h : w'.stores = w.stores) : w'.shelf? store = w.shelf? store := by
  rw [shelf?, shelf?, h]

theorem stores_cancelIf (w : Surroundings) (b : Bool) : (w.cancelIf b).stores = w.stores := by
  cases b <;> rfl

theorem stores_turned (w : Surroundings) : w.turned.stores = w.stores := stores_cancelIf _ _

/-- Nobody puts versions in or takes them out, and deleting does not fail. Work may fail, be cut
short, or never come back. -/
def Mild (p : PlannedDisturbance) : Prop :=
  match p.disturbance with
  | .insert .. | .drop _ => False
  | .failure _ => p.call ≠ .delete
  | .hang | .cancel | .short _ => True

def Passive (p : PlannedDisturbance) : Prop :=
  match p.disturbance with
  | .insert .. | .drop _ => False
  | _ => True

theorem Mild.passive {p : PlannedDisturbance} (h : Mild p) : Passive p := by
  rw [Mild] at h
  rw [Passive]
  cases hd : p.disturbance <;> simp_all

def strike (x : MemoryStore × Reception) (p : PlannedDisturbance) : MemoryStore × Reception :=
  if x.2.isOpen then DisturbedStore.disturb x.1 x.2 p.disturbance else x

theorem strike_passive {p : PlannedDisturbance} (h : Passive p) (x : MemoryStore × Reception) :
    (strike x p).1 = x.1 := by
  rw [strike]
  split
  · rw [Passive] at h
    cases hd : p.disturbance <;> simp_all [DisturbedStore.disturb]
  · rfl

theorem foldl_strike_passive {ps : List PlannedDisturbance} (h : ∀ p ∈ ps, Passive p)
    (x : MemoryStore × Reception) : (ps.foldl strike x).1 = x.1 := by
  induction ps generalizing x with
  | nil => rfl
  | cons p ps ih =>
    obtain ⟨hp, hps⟩ := List.forall_mem_cons.mp h
    exact (ih hps (strike x p)).trans (strike_passive hp x)

theorem failure_strike {p : PlannedDisturbance} (h : Mild p) (hcall : p.call = .delete)
    (x : MemoryStore × Reception) : (strike x p).2.failure = x.2.failure := by
  rw [strike]
  split
  · rw [Mild] at h
    cases hd : p.disturbance <;> simp_all [DisturbedStore.disturb]
  · rfl

theorem failure_foldl_strike {ps : List PlannedDisturbance}
    (h : ∀ p ∈ ps, Mild p ∧ p.call = .delete) (x : MemoryStore × Reception) :
    (ps.foldl strike x).2.failure = x.2.failure := by
  induction ps generalizing x with
  | nil => rfl
  | cons p ps ih =>
    obtain ⟨⟨hp, hcall⟩, hps⟩ := List.forall_mem_cons.mp h
    exact (ih hps (strike x p)).trans (failure_strike hp hcall x)

theorem receive_passive {d : DisturbedStore} (h : ∀ p ∈ d.plan, Passive p) (call : StoreCall) :
    (d.receive call).1.store = d.store ∧ (d.receive call).1.plan = d.plan :=
  ⟨foldl_strike_passive (fun p hp => h p (List.mem_filter.mp hp).1) (d.store, .calm), rfl⟩

theorem failure_receive_mild {d : DisturbedStore} (h : ∀ p ∈ d.plan, Mild p) :
    (d.receive .delete).2.failure = none := by
  refine failure_foldl_strike (fun p hp => ?_) (d.store, .calm)
  obtain ⟨hmem, hcall⟩ := List.mem_filter.mp hp
  rw [Bool.and_eq_true, decide_eq_true_eq] at hcall
  exact ⟨h p hmem, hcall.1⟩

/-- The store is one that only this program changes. -/
def Guards (w : Surroundings) (store : StoreId) : Prop :=
  ∀ m plan, w.shelf? store = some (m, plan) → ∀ p ∈ plan, Mild p

theorem Guards.of_shelf? (h : w.Guards store) (hs : w'.shelf? store = w.shelf? store) :
    w'.Guards store := by
  rw [Guards, hs]
  exact h

theorem receive_of_some {d : DisturbedStore} (h : w.stores[id]? = some d) (call : StoreCall) :
    w.receive id call =
      ({ w with stores := w.stores.setIfInBounds id (d.receive call).1 }.cancelIf
        (d.receive call).2.cancels, (d.receive call).2) := by
  rw [receive, h]

theorem Guards.mild {d : DisturbedStore} (h : w.Guards store) (hd : w.stores[store]? = some d) :
    ∀ p ∈ d.plan, Mild p :=
  h d.store d.plan (by rw [shelf?, hd, Option.map_some])

/-- Only this program puts versions into the store or takes them out. -/
def Owns (w : Surroundings) (store : StoreId) : Prop :=
  ∀ m plan, w.shelf? store = some (m, plan) → ∀ p ∈ plan, Passive p

theorem Guards.owns (h : w.Guards store) : w.Owns store :=
  fun m plan hs p hp => (h m plan hs p hp).passive

theorem Owns.of_shelf? (h : w.Owns store) (hs : w'.shelf? store = w.shelf? store) :
    w'.Owns store := by
  rw [Owns, hs]
  exact h

theorem Owns.passive {d : DisturbedStore} (h : w.Owns store) (hd : w.stores[store]? = some d) :
    ∀ p ∈ d.plan, Passive p :=
  h d.store d.plan (by rw [shelf?, hd, Option.map_some])

theorem shelf?_receive (h : w.Owns store) (id : StoreId) (call : StoreCall) :
    (w.receive id call).1.shelf? store = w.shelf? store := by
  cases hd : w.stores[id]? with
  | none => rw [receive, hd]
  | some d =>
    rw [receive_of_some hd, shelf?, stores_cancelIf, shelf?]
    by_cases hid : id = store
    · subst hid
      obtain ⟨hlt, -⟩ := Array.getElem?_eq_some_iff.mp hd
      obtain ⟨hstore, hplan⟩ := receive_passive (h.passive hd) call
      rw [Array.getElem?_setIfInBounds_self_of_lt hlt, hd, Option.map_some, Option.map_some, hstore,
        hplan]
    · rw [Array.getElem?_setIfInBounds_ne hid]

theorem failure_receive (h : w.Guards store) (hs : w.shelf? store ≠ none) :
    (w.receive store .delete).2.failure = none := by
  cases hd : w.stores[store]? with
  | none => exact absurd (by rw [shelf?, hd, Option.map_none]) hs
  | some d =>
    rw [receive_of_some hd]
    exact failure_receive_mild (h.mild hd)

theorem shelf?_setMemory (w : Surroundings) (id store : StoreId)
    (change : MemoryStore → MemoryStore) :
    (w.setMemory id (change (w.memory id))).shelf? store =
      if id = store then (w.shelf? store).map fun x => (change x.1, x.2) else w.shelf? store := by
  rw [shelf?, setMemory, Array.getElem?_modify, memory, shelf?]
  by_cases hid : id = store
  · rw [if_pos hid, if_pos hid, hid]
    cases w.stores[store]? <;> rfl
  · rw [if_neg hid, if_neg hid]

theorem files_receive (w : Surroundings) (id : StoreId) (call : StoreCall) :
    (w.receive id call).1.files = w.files := by
  cases hd : w.stores[id]? with
  | none => rw [receive, hd]
  | some d =>
    rw [receive_of_some hd]
    exact files_cancelIf _ _

def nodeBytes? : Option Node → Option ByteArray
  | some (.file x) => some x
  | some (.directory _) => none
  | _ => some .empty

def contents? (fs : FileSystem) (path : String) : Option ByteArray :=
  match fs.find path with
  | .error _ => none
  | .ok id => nodeBytes? (fs.node? id)

theorem nodeBytes?_of_readAll {fs : FileSystem} {node : NodeId} {data : ByteArray}
    (h : (streamOf fs node).readAll = .ok data) : nodeBytes? (fs.node? node) = some data := by
  rw [streamOf] at h
  cases hn : fs.node? node with
  | none =>
    rw [hn] at h
    cases h
    rfl
  | some n =>
    rw [hn] at h
    cases n with
    | file x =>
      rw [ByteSource.readAll_single] at h
      cases h
      rfl
    | directory up => cases h
    | link path | device d =>
      cases h
      rfl

theorem shelf?_deleteVersions_owned (h : w.Owns store) (id : StoreId) (name : String) :
    ((w.receive id .delete).2.failure ≠ none ∧
        (w.deleteVersions id name).1.shelf? store = w.shelf? store) ∨
      (w.deleteVersions id name).1.shelf? store =
        if id = store then (w.shelf? store).map fun x => ((x.1.delete name).1, x.2)
        else w.shelf? store := by
  have hreceived := shelf?_receive h id .delete
  rw [deleteVersions]
  generalize w.receive id .delete = received at hreceived ⊢
  obtain ⟨u, r⟩ := received
  rw [← hreceived]
  cases hr : r.failure with
  | some f =>
    simp only [hr]
    exact .inl ⟨nofun, trivial⟩
  | none =>
    simp only [hr]
    exact .inr (shelf?_setMemory u id store fun m => (m.delete name).1)

theorem shelf?_deleteVersions (h : w.Guards store) (id : StoreId) (name : String) :
    (w.deleteVersions id name).1.shelf? store =
      if id = store then (w.shelf? store).map fun x => ((x.1.delete name).1, x.2)
      else w.shelf? store := by
  obtain ⟨hfailure, hsame⟩ | hdone := shelf?_deleteVersions_owned h.owns id name
  · by_cases hid : id = store
    · subst hid
      -- a store that is there answers
      have hnone : w.shelf? id = none := by_contra fun hs => hfailure (failure_receive h hs)
      rw [if_pos rfl, hsame, hnone]
      rfl
    · rw [if_neg hid]
      exact hsame
  · exact hdone

theorem shelf?_afterwards (w : Surroundings) (how : Interruption) (store : StoreId) :
    (w.afterwards how).shelf? store = w.shelf? store := shelf?_congr (stores_cancelIf _ _)

theorem files_afterwards (w : Surroundings) (how : Interruption) :
    (w.afterwards how).files = w.files := files_cancelIf _ _

/-- The versions of an object stay, or all that a path leads to is put in. -/
def Puts (w w' : Surroundings) (store id : StoreId) (name path : String) : Prop :=
  w'.shelf? store = w.shelf? store ∨
    id = store ∧ ∃ data, contents? w.files path = some data ∧
      w'.shelf? store = (w.shelf? store).map fun x => (x.1.insert name data, x.2)

theorem shelf?_put (w : Surroundings) (id store : StoreId) (name : String) (node : NodeId) :
    let w' := w.setMemory id ((w.memory id).upload name (streamOf w.files node)).1
    w'.shelf? store = w.shelf? store ∨
      id = store ∧ ∃ data, nodeBytes? (w.files.node? node) = some data ∧
        w'.shelf? store = (w.shelf? store).map fun x => (x.1.insert name data, x.2) := by
  rcases (w.memory id).upload_cases name (streamOf w.files node) with
    ⟨data, hread, hput⟩ | ⟨e, -, hput⟩
  · have hset := shelf?_setMemory w id store fun m => m.insert name data
    rw [hput]
    by_cases hid : id = store
    · rw [if_pos hid] at hset
      exact .inr ⟨hid, data, nodeBytes?_of_readAll hread, hset⟩
    · rw [if_neg hid] at hset
      exact .inl hset
  · have hset := shelf?_setMemory w id store fun m => m
    rw [hput]
    left
    rw [hset, Option.map_id', ite_self]

theorem puts_uploadOpened (h : w.Guards store) (id : StoreId) (name : String) {path : String}
    {node : NodeId} (hf : w.files.find path = .ok node) (limit : Option Duration)
    (i : Option (Interruption × Nat)) :
    (w.uploadOpened id name node limit i).1.files = w.files ∧
      w.Puts (w.uploadOpened id name node limit i).1 store id name path := by
  have hreceived := shelf?_receive h.owns id .upload
  have hfiles := files_receive w id .upload
  unfold uploadOpened
  generalize w.receive id .upload = received at hreceived hfiles ⊢
  obtain ⟨u, r⟩ := received
  dsimp only at hreceived hfiles ⊢
  split
  · exact ⟨hfiles, .inl hreceived⟩
  · split
    · exact ⟨hfiles, .inl hreceived⟩
    · split
      · exact ⟨hfiles, .inl hreceived⟩
      · split
        · exact ⟨(files_afterwards u _).trans hfiles,
            .inl ((shelf?_afterwards u _ store).trans hreceived)⟩
        · refine ⟨hfiles, ?_⟩
          rcases shelf?_put u id store name node with hsame | ⟨hid, data, hdata, hput⟩
          · exact .inl (hsame.trans hreceived)
          · refine .inr ⟨hid, data, ?_, hreceived ▸ hput⟩
            rw [contents?, hf, ← hfiles]
            exact hdata

theorem puts_upload (h : w.Guards store) (id : StoreId) (name path : String)
    (limit : Option Duration) (t : Turn) :
    (w.upload id name path limit t).1.files = w.files ∧
      w.Puts (w.upload id name path limit t).1 store id name path := by
  unfold upload
  split
  · rename_i how _
    exact ⟨files_afterwards w how, .inl (shelf?_afterwards w how store)⟩
  · split
    · exact ⟨rfl, .inl rfl⟩
    · rename_i node hf
      exact puts_uploadOpened h id name hf limit _

theorem shelf?_download (h : w.Guards store) (id : StoreId) (name : String)
    (limit : Option Duration) (t : Turn) :
    (w.download id name limit t).1.shelf? store = w.shelf? store := by
  have hreceived := shelf?_receive h.owns id .download
  unfold download
  split
  · exact shelf?_afterwards w _ store
  · generalize w.receive id .download = received at hreceived ⊢
    obtain ⟨u, r⟩ := received
    dsimp only at hreceived ⊢
    split
    · exact hreceived
    · split
      · exact hreceived
      · exact hreceived

theorem shelf?_workOnFiles (w : Surroundings)
    (work : Patience → FileSystem × Except SystemError Nat) (limit : Option Duration) (t : Turn)
    (store : StoreId) : (w.workOnFiles work limit t).1.shelf? store = w.shelf? store := by
  unfold workOnFiles
  split
  · exact shelf?_afterwards _ _ store
  · rfl

theorem puts_carryOut (h : w.Guards store) (work : Work) (limit : Option Duration) (t : Turn) :
    (w.carryOut work limit t).1.shelf? store = w.shelf? store ∨
      ∃ id name path, work = .upload id name path ∧ (w.carryOut work limit t).1.files = w.files ∧
        w.Puts (w.carryOut work limit t).1 store id name path := by
  unfold carryOut
  split
  · exact .inl rfl
  · cases work with
    | copy source target => exact .inl (shelf?_workOnFiles w _ limit t store)
    | drain path => exact .inl (shelf?_workOnFiles w _ limit t store)
    | upload id name path => exact .inr ⟨id, name, path, rfl, puts_upload h id name path limit t⟩
    | download id name => exact .inl (shelf?_download h id name limit t)

theorem puts_trial (h : w.Guards store) (work : Work) (limit : Option Duration) (t : Turn) :
    (w.trial work limit t).1.shelf? store = w.shelf? store ∨
      ∃ id name path, work = .upload id name path ∧ (w.trial work limit t).1.files = w.files ∧
        w.Puts (w.trial work limit t).1 store id name path := by
  unfold trial
  split
  · exact .inl rfl
  · exact puts_carryOut h work limit t

theorem stores_print (w : Surroundings) (line : Line) : (w.print line).1.stores = w.stores := by
  unfold print
  split
  · rfl
  · rfl
  · exact stores_cancelIf _ _

/-- What a request leaves in a store. -/
theorem shelf?_answerIn (h : w.Guards store) (t : Turn) (r : Request) :
    (w.answerIn t r).1.shelf? store = w.shelf? store ∨
      (∃ name, r = .deleteVersions store name ∧ (w.answerIn t r).1.shelf? store =
        (w.shelf? store).map fun x => ((x.1.delete name).1, x.2)) ∨
      ∃ name path limit data, r = .trial (.upload store name path) limit ∧
        contents? (w.answerIn t r).1.files path = some data ∧
        (w.answerIn t r).1.shelf? store =
          (w.shelf? store).map fun x => (x.1.insert name data, x.2) := by
  cases r with
  | trial work limit =>
    rcases puts_trial h work limit t with hsame | ⟨id, name, path, rfl, hfiles, hsame | hput⟩
    · exact .inl hsame
    · exact .inl hsame
    · obtain ⟨rfl, data, hdata, hput⟩ := hput
      exact .inr (.inr ⟨name, path, limit, data, rfl, hfiles.symm ▸ hdata, hput⟩)
  | deleteVersions id name =>
    have hdeleted := shelf?_deleteVersions h id name
    by_cases hid : id = store
    · subst hid
      rw [if_pos rfl] at hdeleted
      exact .inr (.inl ⟨name, rfl, hdeleted⟩)
    · rw [if_neg hid] at hdeleted
      exact .inl hdeleted
  | remove path => exact .inl (removeFile_keeps (·.shelf? store) (fun _ _ => rfl) w path t)
  | openOutput path =>
    left
    cases path with
    | none => rfl
    | some path =>
      rw [answerIn, openOutput]
      split <;> rfl
  | print line => exact .inl (shelf?_congr (stores_print w line))
  | _ => exact .inl rfl

theorem shelf?_of_map {change : MemoryStore → MemoryStore} {m : MemoryStore}
    {plan : List PlannedDisturbance}
    (hs : w'.shelf? store = (w.shelf? store).map fun x => (change x.1, x.2))
    (hm : w'.shelf? store = some (m, plan)) : ∃ m', w.shelf? store = some (m', plan) := by
  rw [hs] at hm
  obtain ⟨⟨m', plan'⟩, hw, he⟩ := Option.map_eq_some_iff.mp hm
  cases he
  exact ⟨m', hw⟩

theorem Owns.map (h : w.Owns store) (change : MemoryStore → MemoryStore)
    (hs : w'.shelf? store = (w.shelf? store).map fun x => (change x.1, x.2)) : w'.Owns store := by
  intro m plan hm
  obtain ⟨m', hw⟩ := shelf?_of_map hs hm
  exact h m' plan hw

theorem Guards.map (h : w.Guards store) (change : MemoryStore → MemoryStore)
    (hs : w'.shelf? store = (w.shelf? store).map fun x => (change x.1, x.2)) :
    w'.Guards store := by
  intro m plan hm
  obtain ⟨m', hw⟩ := shelf?_of_map hs hm
  exact h m' plan hw

theorem Guards.turned (h : w.Guards store) : w.turned.Guards store :=
  h.of_shelf? (shelf?_congr (stores_turned w))

theorem Guards.answer (h : w.Guards store) (r : Request) :
    ((answer r).run w).2.Guards store := by
  rw [run_answer]
  rcases shelf?_answerIn h.turned (w.schedule w.clock) r with hs | ⟨name, -, hs⟩ |
    ⟨name, path, limit, data, -, -, hs⟩
  · exact h.turned.of_shelf? hs
  · exact h.turned.map (fun m => (m.delete name).1) hs
  · exact h.turned.map (fun m => m.insert name data) hs

theorem versionsOf_congr (h : w'.shelf? store = w.shelf? store) (name : String) :
    w'.versionsOf store name = w.versionsOf store name := by
  rw [versionsOf, memory_congr h, versionsOf]

theorem versionsOf_turned (w : Surroundings) (store : StoreId) (name : String) :
    w.turned.versionsOf store name = w.versionsOf store name :=
  versionsOf_congr (shelf?_congr (stores_turned w)) name

/-- What a request does to the versions of an object. -/
inductive Handles (w w' : Surroundings) (store : StoreId) (name : String) (r : Request) : Prop
  | leaves (h : w'.versionsOf store name = w.versionsOf store name)
      (hr : r ≠ .deleteVersions store name)
  | deletes (hr : r = .deleteVersions store name) (h : w'.versionsOf store name = [])
  | puts {path : String} {limit : Option Duration} {data : ByteArray}
      (hr : r = .trial (.upload store name path) limit)
      (hdata : contents? w'.files path = some data)
      (h : w'.versionsOf store name = w.versionsOf store name ++ [⟨name, data, data.size⟩])

theorem versionsOf_map (change : MemoryStore → MemoryStore)
    (hs : w'.shelf? store = (w.shelf? store).map fun x => (change x.1, x.2)) (name : String) :
    w'.shelf? store = w.shelf? store ∧ w.versionsOf store name = [] ∨
      w'.versionsOf store name = (change (w.memory store)).versionsOf name := by
  rw [versionsOf, memory_eq, versionsOf, memory_eq, hs]
  cases w.shelf? store with
  | none => exact .inl ⟨rfl, rfl⟩
  | some x => exact .inr rfl

theorem versionsOf_deleted {other : String}
    (hs : w'.shelf? store = (w.shelf? store).map fun x => ((x.1.delete other).1, x.2))
    (name : String) :
    w'.versionsOf store name = if name = other then [] else w.versionsOf store name := by
  cases versionsOf_map (fun m => (m.delete other).1) hs name with
  | inl hnone =>
    rw [versionsOf_congr hnone.1, hnone.2, ite_self]
  | inr hnew =>
    rw [hnew, MemoryStore.versionsOf_delete, Function.update_apply]
    rfl

theorem handles_answerIn (h : w.Guards store) (name : String) (t : Turn) (r : Request) :
    w.Handles (w.answerIn t r).1 store name r := by
  by_cases hr : r = .deleteVersions store name
  · subst hr
    have hs := shelf?_deleteVersions h store name
    rw [if_pos rfl] at hs
    exact .deletes rfl ((versionsOf_deleted hs name).trans (if_pos rfl))
  · rcases shelf?_answerIn h t r with hs | ⟨other, rfl, hs⟩ |
      ⟨other, path, limit, data, rfl, hdata, hs⟩
    · exact .leaves (versionsOf_congr hs name) hr
    · have hne : name ≠ other := fun he => hr (he ▸ rfl)
      exact .leaves ((versionsOf_deleted hs name).trans (if_neg hne)) hr
    · rcases versionsOf_map (fun m => m.insert other data) hs name with
        ⟨hsame, -⟩ | hnew
      · exact .leaves (versionsOf_congr hsame name) hr
      · rw [MemoryStore.versionsOf_insert] at hnew
        by_cases hne : name = other
        · subst hne
          rw [Function.update_self] at hnew
          exact .puts rfl hdata hnew
        · rw [Function.update_of_ne hne] at hnew
          exact .leaves hnew hr

theorem handles_answer (h : w.Guards store) (name : String) (r : Request) :
    w.Handles ((answer r).run w).2 store name r := by
  have hturned := versionsOf_turned w store name
  rw [run_answer]
  cases handles_answerIn h.turned name (w.schedule w.clock) r with
  | leaves hs hr => exact .leaves (hs.trans hturned) hr
  | deletes hr hs => exact .deletes hr hs
  | puts hr hdata hs => exact .puts hr hdata (hturned ▸ hs)

end StorageTrials.Surroundings

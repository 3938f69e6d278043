import StorageTrials.Proofs.ObjectStore.Versions

namespace StorageTrials

inductive StoreOp
  | insert (name : String) (data : ByteArray)
  | upload (name : String) (source : ByteSource)
  | delete (name : String)
  | download (name : String)
  | count (name : String)

inductive StoreReply
  | inserted
  | uploaded (size : Except Fault Nat)
  | deleted (versions : Nat)
  | downloaded (download : Except Fault Download)
  | counted (versions : Nat)

namespace StoreOp

variable {name : String} {op : StoreOp} {past ops : List StoreOp}

def object : StoreOp → String
  | insert name _ | upload name _ | delete name | download name | count name => name

def isDeletion : StoreOp → Bool
  | delete _ => true
  | _ => false

def added? : StoreOp → Option ByteArray
  | insert _ data => some data
  | upload _ source => source.delivered.toOption
  | _ => none

/-- What has been added to an object since it was last deleted, the newest last. -/
def added (name : String) (past : List StoreOp) : List ByteArray :=
  (((past.filter (·.object = name)).takeWhile (!·.isDeletion)).filterMap added?).reverse

def answer (versions : List ByteArray) : StoreOp → StoreReply
  | insert .. => .inserted
  | upload _ source => .uploaded <| match source.delivered with
    | .ok data => .ok data.size
    | .error e => .error (.system e)
  | delete _ => .deleted versions.length
  | download name => .downloaded <| match versions.getLast? with
    | some data => .ok ⟨data.size, data.size⟩
    | none => .error (.objectNotFound name)
  | count _ => .counted versions.length

def reply (past : List StoreOp) (op : StoreOp) : StoreReply := op.answer (added op.object past)

def replies (past : List StoreOp) : List StoreOp → List StoreReply
  | [] => []
  | op :: ops => op.reply past :: replies (op :: past) ops

theorem added_cons_of_ne (h : op.object ≠ name) (past : List StoreOp) :
    added name (op :: past) = added name past := by
  rw [added, List.filter_cons_of_neg (by simpa using h), added]

theorem added_cons_self (op : StoreOp) (past : List StoreOp) :
    added op.object (op :: past) =
      if op.isDeletion then [] else added op.object past ++ op.added?.toList := by
  rw [added, List.filter_cons_of_pos (by simp), List.takeWhile_cons, added]
  cases op.isDeletion <;> cases h : op.added? <;> simp [h]

theorem added_filter (name : String) (past : List StoreOp) :
    added name (past.filter (·.object = name)) = added name past := by
  rw [added, List.filter_filter, added]
  simp

theorem reply_filter (op : StoreOp) (past : List StoreOp) :
    op.reply (past.filter (·.object = op.object)) = op.reply past := by
  rw [reply, added_filter, reply]

def repliesFor (name : String) (ops : List StoreOp) (replies : List StoreReply) :
    List StoreReply :=
  ((ops.zip replies).filter (·.1.object = name)).map (·.2)

theorem repliesFor_replies (name : String) (past ops : List StoreOp) :
    repliesFor name ops (replies past ops) =
      replies (past.filter (·.object = name)) (ops.filter (·.object = name)) := by
  induction ops generalizing past with
  | nil => rfl
  | cons op ops ih =>
    have hrest := ih (op :: past)
    rw [repliesFor] at hrest
    rw [repliesFor, replies, List.zip_cons_cons]
    by_cases hname : op.object = name
    · subst hname
      rw [List.filter_cons_of_pos (by simp), List.map_cons, hrest,
        List.filter_cons_of_pos (by simp), List.filter_cons_of_pos (by simp), replies,
        reply_filter]
    · rw [List.filter_cons_of_neg (by simpa using hname), hrest,
        List.filter_cons_of_neg (by simpa using hname),
        List.filter_cons_of_neg (by simpa using hname)]

end StoreOp

namespace MemoryStore

open StoreOp

variable {m : MemoryStore} {name : String} {op : StoreOp} {past ops : List StoreOp}

def serve (m : MemoryStore) : StoreOp → MemoryStore × StoreReply
  | .insert name data => (m.insert name data, .inserted)
  | .upload name source => ((m.upload name source).1, .uploaded (m.upload name source).2)
  | .delete name => ((m.delete name).1, .deleted (m.delete name).2)
  | .download name => (m, .downloaded (m.download name))
  | .count name => (m, .counted (m.count name))

def serveAll (m : MemoryStore) : List StoreOp → MemoryStore × List StoreReply
  | [] => (m, [])
  | op :: ops =>
    let (last, replies) := (m.serve op).1.serveAll ops
    (last, (m.serve op).2 :: replies)

/-- The versions in a store are what was added, each declared with its own length. -/
def Holds (m : MemoryStore) (past : List StoreOp) : Prop :=
  ∀ name, m.versionsOf name = (added name past).map fun data => ⟨name, data, data.size⟩

theorem holds_empty : empty.Holds [] := fun _ => rfl

theorem Holds.skip (h : m.Holds past) (op : StoreOp) (hadd : op.added? = none)
    (hdel : op.isDeletion = false) : m.Holds (op :: past) := by
  intro name
  rw [h name]
  by_cases hname : op.object = name
  · subst hname
    rw [added_cons_self, hdel, hadd]
    simp
  · rw [added_cons_of_ne hname]

theorem Holds.insert {data : ByteArray} (h : m.Holds past) (op : StoreOp)
    (hadd : op.added? = some data) (hdel : op.isDeletion = false) :
    (m.insert op.object data).Holds (op :: past) := by
  intro name
  rw [versionsOf_insert]
  by_cases hname : op.object = name
  · subst hname
    rw [Function.update_self, h, added_cons_self, hdel, hadd]
    simp
  · rw [Function.update_of_ne (Ne.symm hname), h, added_cons_of_ne hname]

theorem Holds.delete (h : m.Holds past) (op : StoreOp) (hdel : op.isDeletion = true) :
    (m.delete op.object).1.Holds (op :: past) := by
  intro name
  rw [versionsOf_delete]
  by_cases hname : op.object = name
  · subst hname
    rw [Function.update_self, added_cons_self, if_pos hdel]
    rfl
  · rw [Function.update_of_ne (Ne.symm hname), h, added_cons_of_ne hname]

theorem Holds.count (h : m.Holds past) (name : String) :
    m.count name = (added name past).length := by
  rw [MemoryStore.count, h, List.length_map]

theorem Holds.download (h : m.Holds past) (name : String) :
    m.download name = match (added name past).getLast? with
      | some data => .ok ⟨data.size, data.size⟩
      | none => .error (.objectNotFound name) := by
  rw [MemoryStore.download, latest?, h, List.getLast?_map]
  cases (added name past).getLast? with
  | none => rfl
  | some data => exact congrArg (fun n => Except.ok (Download.mk data.size n)) (sum_pieceSizes _ _)

theorem Holds.serve (h : m.Holds past) (op : StoreOp) :
    (m.serve op).2 = op.reply past ∧ (m.serve op).1.Holds (op :: past) := by
  cases op with
  | insert name data => exact ⟨rfl, h.insert (.insert name data) rfl rfl⟩
  | upload name source =>
    rw [MemoryStore.serve, reply, answer]
    rcases upload_cases m name source with ⟨data, hread, hup⟩ | ⟨e, hread, hup⟩ <;>
      rw [ByteSource.readAll_eq] at hread <;> rw [hup, hread]
    · have hadd : (StoreOp.upload name source).added? = some data := by rw [added?, hread]; rfl
      exact ⟨rfl, h.insert (.upload name source) hadd rfl⟩
    · have hadd : (StoreOp.upload name source).added? = none := by rw [added?, hread]; rfl
      exact ⟨rfl, h.skip _ hadd rfl⟩
  | delete name =>
    exact ⟨congrArg StoreReply.deleted (h.count name), h.delete (.delete name) rfl⟩
  | download name => exact ⟨congrArg StoreReply.downloaded (h.download name), h.skip _ rfl rfl⟩
  | count name => exact ⟨congrArg StoreReply.counted (h.count name), h.skip _ rfl rfl⟩

theorem Holds.serveAll (h : m.Holds past) (ops : List StoreOp) :
    (m.serveAll ops).2 = replies past ops ∧ (m.serveAll ops).1.Holds (ops.reverse ++ past) := by
  induction ops generalizing m past with
  | nil => exact ⟨rfl, h⟩
  | cons op ops ih =>
    obtain ⟨hreply, hholds⟩ := h.serve op
    obtain ⟨hreplies, hlast⟩ := ih hholds
    rw [List.reverse_cons, List.append_assoc]
    exact ⟨congrArg₂ List.cons hreply hreplies, hlast⟩

/-- What a store does for an object with the given versions. -/
structure AnswersFor (m : MemoryStore) (name : String) (versions : List ByteArray) : Prop where
  count : m.count name = versions.length
  delete : (m.delete name).2 = versions.length
  delete_again : ((m.delete name).1.delete name).2 = 0
  deleted : (m.delete name).1.versionsOf = Function.update m.versionsOf name []
  not_found : m.download name = .error (.objectNotFound name) ↔ versions = []
  download : ∀ data, versions.getLast? = some data → m.download name = .ok ⟨data.size, data.size⟩
  verify : ∀ d, m.download name = .ok d → d.verify name = .ok d.bytesRead

theorem Holds.answersFor (h : m.Holds past) (name : String) :
    m.AnswersFor name (added name past) where
  count := h.count name
  delete := h.count name
  delete_again := by
    have hgone := congrFun (versionsOf_delete m name) name
    rw [Function.update_self] at hgone
    exact congrArg List.length hgone
  deleted := versionsOf_delete m name
  not_found := by
    rw [h.download, ← List.getLast?_eq_none_iff]
    cases (added name past).getLast? <;> simp
  download := fun data hlast => by rw [h.download, hlast]
  verify := by
    intro d hd
    rw [h.download] at hd
    cases hlast : (added name past).getLast? with
    | none =>
      rw [hlast] at hd
      cases hd
    | some data =>
      rw [hlast] at hd
      cases hd
      exact if_pos rfl

theorem serve_fst (hadd : op.added? = none) (hdel : op.isDeletion = false) :
    (m.serve op).1 = m := by
  cases op with
  | insert name data => cases hadd
  | upload name source =>
    rcases upload_cases m name source with ⟨data, hread, -⟩ | ⟨e, -, hup⟩
    · rw [added?, ← ByteSource.readAll_eq, hread] at hadd
      cases hadd
    · exact congrArg Prod.fst hup
  | delete name => cases hdel
  | download name | count name => rfl

/-- A store that was empty answers each of a number of operations from what has been added to the
object since it was last deleted. What is done to other objects makes no difference, and what adds
nothing and deletes nothing leaves no trace. -/
theorem store_answers_from_additions (ops : List StoreOp) :
    (empty.serveAll ops).2 = replies [] ops ∧
    (∀ name, (empty.serveAll ops).1.AnswersFor name (added name ops.reverse)) ∧
    (∀ name, repliesFor name ops (empty.serveAll ops).2 =
      (empty.serveAll (ops.filter (·.object = name))).2) ∧
    ∀ op : StoreOp, op.added? = none → op.isDeletion = false →
      ((empty.serveAll ops).1.serve op).1 = (empty.serveAll ops).1 := by
  obtain ⟨hreplies, hholds⟩ := holds_empty.serveAll ops
  rw [List.append_nil] at hholds
  refine ⟨hreplies, hholds.answersFor, fun name => ?_, fun op => serve_fst⟩
  rw [hreplies, (holds_empty.serveAll _).1, repliesFor_replies, List.filter_nil]

end MemoryStore

end StorageTrials

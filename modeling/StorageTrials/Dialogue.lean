import StorageTrials.Event
import StorageTrials.FileSystem.Access
import StorageTrials.Line
import StorageTrials.Timestamp

namespace StorageTrials

abbrev StoreId := Nat

inductive Work
  | copy (source target : String)
  | drain (path : String)
  | upload (store : StoreId) (name path : String)
  | download (store : StoreId) (name : String)
deriving DecidableEq, Repr

inductive Request
  | inspect (path : String)
  | probe (path : String)
  | remove (path : String)
  | readText (path : String)
  | saveText (path text : String)
  | trial (work : Work) (limit : Option Duration)
  | deleteVersions (store : StoreId) (name : String)
  | connect (connection : Connection) (limit : Option Duration)
  | isCancelled
  | cancel
  | openOutput (path : Option String)
  | print (line : Line)
  | report (event : Event)
  | now
  | say (text : String)
  | complain (text : String)

def Request.Answer : Request → Type
  | inspect _ => Except SystemError FileSystem.Finding
  | probe _ | remove _ | saveText .. | openOutput _ | print _ => Except SystemError Unit
  | readText _ => Except SystemError String
  | trial .. => Except Fault Sample
  | deleteVersions .. => Except Fault Nat
  | connect .. => Except Fault StoreId
  | isCancelled => Bool
  | now => Timestamp
  | cancel | report _ | say _ | complain _ => Unit

inductive Dialogue (α : Type)
  | done (a : α)
  | ask (r : Request) (next : r.Answer → Dialogue α)

namespace Dialogue

variable {α β : Type}

def bind : Dialogue α → (α → Dialogue β) → Dialogue β
  | .done a, f => f a
  | .ask r next, f => .ask r fun x => (next x).bind f

instance : Monad Dialogue where
  pure := .done
  bind := .bind

theorem bind_assoc {γ : Type} (d : Dialogue α) (f : α → Dialogue β) (g : β → Dialogue γ) :
    (d.bind f).bind g = d.bind fun a => (f a).bind g := by
  induction d with
  | done a => rfl
  | ask r next ih => exact congrArg (Dialogue.ask r) (funext ih)

def run {m : Type → Type} [Monad m] (answer : (r : Request) → m r.Answer) : Dialogue α → m α
  | .done a => Pure.pure a
  | .ask r next => answer r >>= fun x => (next x).run answer

def printed? : (r : Request) → r.Answer → Option Record
  | .print line, .ok () => line.record?
  | _, _ => none

/-- Carry a dialogue on with a tally. The record of a line is added to it once the line has been
printed; where a total leaves its range, the dialogue breaks off and has no result. -/
def tallied (t : Tally) : Dialogue α → Dialogue (Option (Tally × α))
  | .done a => .done (some (t, a))
  | .ask r next => .ask r fun x =>
    match t.addIf? (printed? r x) with
    | some t => (next x).tallied t
    | none => .done none

end Dialogue

namespace Ask

def inspect (path : String) : Dialogue (Except SystemError FileSystem.Finding) :=
  .ask (.inspect path) .done

def probe (path : String) : Dialogue (Except SystemError Unit) := .ask (.probe path) .done

def remove (path : String) : Dialogue (Except SystemError Unit) := .ask (.remove path) .done

def readText (path : String) : Dialogue (Except SystemError String) :=
  .ask (.readText path) .done

def saveText (path text : String) : Dialogue (Except SystemError Unit) :=
  .ask (.saveText path text) .done

def trial (work : Work) (limit : Option Duration) : Dialogue (Except Fault Sample) :=
  .ask (.trial work limit) .done

def deleteVersions (store : StoreId) (name : String) : Dialogue (Except Fault Nat) :=
  .ask (.deleteVersions store name) .done

def connect (c : Connection) (limit : Option Duration) : Dialogue (Except Fault StoreId) :=
  .ask (.connect c limit) .done

def isCancelled : Dialogue Bool := .ask .isCancelled .done

def cancel : Dialogue Unit := .ask .cancel .done

def openOutput (path : Option String) : Dialogue (Except SystemError Unit) :=
  .ask (.openOutput path) .done

def print (line : Line) : Dialogue (Except SystemError Unit) := .ask (.print line) .done

def report (event : Event) : Dialogue Unit := .ask (.report event) .done

def now : Dialogue Timestamp := .ask .now .done

def say (text : String) : Dialogue Unit := .ask (.say text) .done

def complain (text : String) : Dialogue Unit := .ask (.complain text) .done

end Ask

/-- A dialogue that may end in a fault. -/
structure Attempt (α : Type) where
  dialogue : Dialogue (Except Fault α)

namespace Attempt

variable {α β : Type}

def bind (a : Attempt α) (f : α → Attempt β) : Attempt β :=
  ⟨a.dialogue.bind fun
    | .ok x => (f x).dialogue
    | .error e => .done (.error e)⟩

instance : Monad Attempt where
  pure a := ⟨.done (.ok a)⟩
  bind := bind

instance : MonadLift Dialogue Attempt where
  monadLift d := ⟨d.bind fun a => .done (.ok a)⟩

def ofExcept (e : Except Fault α) : Attempt α := ⟨.done e⟩

def fail (f : Fault) : Attempt α := ofExcept (.error f)

def system (d : Dialogue (Except SystemError α)) : Attempt α :=
  ⟨d.bind fun
    | .ok a => .done (.ok a)
    | .error e => .done (.error (.system e))⟩

end Attempt

end StorageTrials

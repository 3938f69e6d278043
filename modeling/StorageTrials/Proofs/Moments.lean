import Mathlib.Data.List.Basic
import StorageTrials.Surroundings

namespace StorageTrials

structure Moment (σ : Type) where
  before : σ
  request : Request
  answer : request.Answer
  after : σ

namespace Moment

variable {σ : Type}

def line? (m : Moment σ) : Option Line :=
  match m.request with
  | .print line => some line
  | _ => none

def work? (m : Moment σ) : Option Work :=
  match m.request with
  | .trial work _ => some work
  | _ => none

def Printed (m : Moment σ) : Prop :=
  match m with
  | ⟨_, .print _, a, _⟩ => a = .ok ()
  | _ => True

instance (m : Moment σ) : Decidable m.Printed :=
  match m with
  | ⟨_, .print _, a, _⟩ => (inferInstance : DecidableEq (Except SystemError Unit)) a (.ok ())
  | ⟨_, .inspect _, _, _⟩ | ⟨_, .probe _, _, _⟩ | ⟨_, .remove _, _, _⟩ | ⟨_, .readText _, _, _⟩
  | ⟨_, .saveText .., _, _⟩ | ⟨_, .trial .., _, _⟩ | ⟨_, .deleteVersions .., _, _⟩
  | ⟨_, .connect .., _, _⟩ | ⟨_, .isCancelled, _, _⟩ | ⟨_, .cancel, _, _⟩
  | ⟨_, .openOutput _, _, _⟩ | ⟨_, .report _, _, _⟩ | ⟨_, .now, _, _⟩ | ⟨_, .say _, _, _⟩
  | ⟨_, .complain _, _, _⟩ => isTrue trivial

def Cancelled (m : Moment σ) : Prop :=
  match m with
  | ⟨_, .trial .., a, _⟩ => a = .error .cancelled
  | _ => False

end Moment

def Request.IsReport : Request → Prop
  | .report _ => True
  | _ => False

/-- A request that only tells of what has been done. -/
def Request.Tells : Request → Prop
  | .report _ | .print _ => True
  | _ => False

def linesOf {σ : Type} (ms : List (Moment σ)) : List Line := ms.filterMap Moment.line?

theorem linesOf_cons {σ : Type} (m : Moment σ) (ms : List (Moment σ)) :
    linesOf (m :: ms) = m.line?.toList ++ linesOf ms := by
  rw [linesOf, List.filterMap_cons]
  cases m.line? <;> rfl

theorem linesOf_append {σ : Type} (ms ns : List (Moment σ)) :
    linesOf (ms ++ ns) = linesOf ms ++ linesOf ns :=
  List.filterMap_append

namespace Dialogue

variable {σ α β : Type} (answer : (r : Request) → StateM σ r.Answer)

def result (d : Dialogue α) (w : σ) : α := ((d.run answer).run w).1

def final (d : Dialogue α) (w : σ) : σ := ((d.run answer).run w).2

def moments : Dialogue α → σ → List (Moment σ)
  | .done _, _ => []
  | .ask r next, w =>
    ⟨w, r, ((answer r).run w).1, ((answer r).run w).2⟩ ::
      (next ((answer r).run w).1).moments ((answer r).run w).2

@[simp] theorem result_done (a : α) (w : σ) : (Dialogue.done a).result answer w = a := rfl

@[simp] theorem final_done (a : α) (w : σ) : (Dialogue.done a).final answer w = w := rfl

@[simp] theorem moments_done (a : α) (w : σ) : (Dialogue.done a).moments answer w = [] := rfl

theorem result_ask (r : Request) (next : r.Answer → Dialogue α) (w : σ) :
    (Dialogue.ask r next).result answer w =
      (next ((answer r).run w).1).result answer ((answer r).run w).2 := rfl

theorem final_ask (r : Request) (next : r.Answer → Dialogue α) (w : σ) :
    (Dialogue.ask r next).final answer w =
      (next ((answer r).run w).1).final answer ((answer r).run w).2 := rfl

theorem moments_ask (r : Request) (next : r.Answer → Dialogue α) (w : σ) :
    (Dialogue.ask r next).moments answer w =
      ⟨w, r, ((answer r).run w).1, ((answer r).run w).2⟩ ::
        (next ((answer r).run w).1).moments answer ((answer r).run w).2 := rfl

theorem result_bind (d : Dialogue α) (f : α → Dialogue β) (w : σ) :
    (d.bind f).result answer w = (f (d.result answer w)).result answer (d.final answer w) := by
  induction d generalizing w with
  | done a => rfl
  | ask r next ih => exact ih _ _

theorem final_bind (d : Dialogue α) (f : α → Dialogue β) (w : σ) :
    (d.bind f).final answer w = (f (d.result answer w)).final answer (d.final answer w) := by
  induction d generalizing w with
  | done a => rfl
  | ask r next ih => exact ih _ _

theorem moments_bind (d : Dialogue α) (f : α → Dialogue β) (w : σ) :
    (d.bind f).moments answer w =
      d.moments answer w ++ (f (d.result answer w)).moments answer (d.final answer w) := by
  induction d generalizing w with
  | done a => rfl
  | ask r next ih => exact congrArg (_ :: ·) (ih _ _)

/-- A dialogue makes only requests of a certain kind, whatever the answers. -/
def Asks (kind : Request → Prop) : Dialogue α → Prop
  | .done _ => True
  | .ask r next => kind r ∧ ∀ x, (next x).Asks kind

theorem asks_bind {kind : Request → Prop} {d : Dialogue α} {f : α → Dialogue β}
    (hd : d.Asks kind) (hf : ∀ a, (f a).Asks kind) : (d.bind f).Asks kind := by
  induction d with
  | done a => exact hf a
  | ask r next ih => exact ⟨hd.1, fun x => ih x (hd.2 x)⟩

theorem asks_mono {kind kind' : Request → Prop} {d : Dialogue α} (hk : ∀ r, kind r → kind' r)
    (hd : d.Asks kind) : d.Asks kind' := by
  induction d with
  | done a => trivial
  | ask r next ih => exact ⟨hk r hd.1, fun x => ih x (hd.2 x)⟩

theorem kind_of_mem_moments {kind : Request → Prop} {d : Dialogue α} (hd : d.Asks kind) (w : σ) :
    ∀ m ∈ d.moments answer w, kind m.request := by
  induction d generalizing w with
  | done a => simp
  | ask r next ih =>
    intro m hm
    rw [moments_ask, List.mem_cons] at hm
    rcases hm with rfl | hm
    · exact hd.1
    · exact ih _ (hd.2 _) _ m hm

end Dialogue

namespace Attempt

variable {σ α β : Type} (answer : (r : Request) → StateM σ r.Answer)
variable {a : Attempt α} {f : α → Attempt β} {w : σ} {x : α} {e : Fault}

theorem dialogue_lift_bind (d : Dialogue α) (f : α → Attempt β) :
    ((liftM d : Attempt α) >>= f).dialogue = d.bind fun x => (f x).dialogue :=
  Dialogue.bind_assoc d _ _

theorem bind_assoc {γ : Type} (a : Attempt α) (f : α → Attempt β) (g : β → Attempt γ) :
    a >>= f >>= g = a >>= fun x => f x >>= g := by
  apply congrArg Attempt.mk
  refine (Dialogue.bind_assoc a.dialogue _ _).trans (congrArg _ (funext fun r => ?_))
  cases r <;> rfl

theorem mem_moments_bind {m : Moment σ} (hm : m ∈ a.dialogue.moments answer w) :
    m ∈ (a >>= f).dialogue.moments answer w := by
  change m ∈ (a.dialogue.bind _).moments answer w
  rw [Dialogue.moments_bind]
  exact List.mem_append_left _ hm

theorem asks_bind {kind : Request → Prop} (ha : a.dialogue.Asks kind)
    (hf : ∀ x, (f x).dialogue.Asks kind) : (a >>= f).dialogue.Asks kind := by
  refine Dialogue.asks_bind ha fun r => ?_
  cases r with
  | ok x => exact hf x
  | error e => trivial

theorem moments_bind_ok (h : a.dialogue.result answer w = .ok x) :
    (a >>= f).dialogue.moments answer w =
      a.dialogue.moments answer w ++
        (f x).dialogue.moments answer (a.dialogue.final answer w) := by
  change (a.dialogue.bind _).moments answer w = _
  rw [Dialogue.moments_bind, h]

theorem result_bind_ok (h : a.dialogue.result answer w = .ok x) :
    (a >>= f).dialogue.result answer w =
      (f x).dialogue.result answer (a.dialogue.final answer w) := by
  change (a.dialogue.bind _).result answer w = _
  rw [Dialogue.result_bind, h]

theorem moments_bind_error (h : a.dialogue.result answer w = .error e) :
    (a >>= f).dialogue.moments answer w = a.dialogue.moments answer w := by
  change (a.dialogue.bind _).moments answer w = _
  rw [Dialogue.moments_bind, h]
  exact List.append_nil _

theorem result_bind_error (h : a.dialogue.result answer w = .error e) :
    (a >>= f).dialogue.result answer w = .error e := by
  change (a.dialogue.bind _).result answer w = _
  rw [Dialogue.result_bind, h]
  rfl

theorem result_bind_eq_ok {y : β} (h : (a >>= f).dialogue.result answer w = .ok y) :
    ∃ x, a.dialogue.result answer w = .ok x ∧
      (f x).dialogue.result answer (a.dialogue.final answer w) = .ok y := by
  cases ha : a.dialogue.result answer w with
  | error e => cases (result_bind_error answer ha).symm.trans h
  | ok x => exact ⟨x, rfl, (result_bind_ok answer ha).symm.trans h⟩

section print

variable {g : Unit → Attempt β} {line : Line} (h : ((answer (.print line)).run w).1 = .ok ())
include h

theorem moments_print_bind :
    (Attempt.system (Ask.print line) >>= g).dialogue.moments answer w =
      ⟨w, .print line, .ok (), ((answer (.print line)).run w).2⟩ ::
        (g ()).dialogue.moments answer ((answer (.print line)).run w).2 := by
  change ((Dialogue.ask (.print line) _).bind _).moments answer w = _
  rw [Dialogue.bind, Dialogue.moments_ask, h]
  rfl

theorem result_print_bind :
    (Attempt.system (Ask.print line) >>= g).dialogue.result answer w =
      (g ()).dialogue.result answer ((answer (.print line)).run w).2 := by
  change ((Dialogue.ask (.print line) _).bind _).result answer w = _
  rw [Dialogue.bind, Dialogue.result_ask, h]
  rfl

end print

end Attempt

section passes

variable {σ α β : Type} (answer : (r : Request) → StateM σ r.Answer)

def Moment.of (r : Request) (w : σ) : Moment σ :=
  ⟨w, r, ((answer r).run w).1, ((answer r).run w).2⟩

/-- A dialogue passes through certain moments to its result and to its last state. -/
structure Dialogue.Passes (d : Dialogue α) (w : σ) (ms : List (Moment σ)) (a : α) (w' : σ) :
    Prop where
  moments : d.moments answer w = ms
  result : d.result answer w = a
  final : d.final answer w = w'

namespace Dialogue.Passes

theorem whole (d : Dialogue α) (w : σ) :
    d.Passes answer w (d.moments answer w) (d.result answer w) (d.final answer w) :=
  ⟨rfl, rfl, rfl⟩

theorem ask (r : Request) (w : σ) :
    (Dialogue.ask r .done).Passes answer w [.of answer r w] ((answer r).run w).1
      ((answer r).run w).2 :=
  ⟨rfl, rfl, rfl⟩

variable {answer} {w w₁ w₂ : σ} {ms ns : List (Moment σ)} {a : α} {b : β}

theorem done : (Dialogue.done a).Passes answer w [] a w := ⟨rfl, rfl, rfl⟩

theorem bind {d : Dialogue α} {f : α → Dialogue β} (h : d.Passes answer w ms a w₁)
    (hf : (f a).Passes answer w₁ ns b w₂) : (d.bind f).Passes answer w (ms ++ ns) b w₂ := by
  obtain ⟨rfl, rfl, rfl⟩ := h
  obtain ⟨rfl, rfl, rfl⟩ := hf
  exact ⟨moments_bind answer d f w, result_bind answer d f w, final_bind answer d f w⟩

end Dialogue.Passes

end passes

/-- Every moment of a dialogue is of a kind, and its end is as required. -/
structure Dialogue.Meets {σ α : Type} (answer : (r : Request) → StateM σ r.Answer)
    (kind : Moment σ → Prop) (d : Dialogue α) (w : σ) (post : α → σ → Prop) : Prop where
  moments : ∀ m ∈ d.moments answer w, kind m
  ends : post (d.result answer w) (d.final answer w)

namespace Dialogue.Meets

variable {σ α β : Type} {answer : (r : Request) → StateM σ r.Answer} {kind kind' : Moment σ → Prop}
variable {w : σ}

theorem done {a : α} {post : α → σ → Prop} (h : post a w) :
    (Dialogue.done a).Meets answer kind w post :=
  ⟨by simp, h⟩

theorem ask {r : Request} {next : r.Answer → Dialogue α} {post : α → σ → Prop}
    (hk : kind ⟨w, r, ((answer r).run w).1, ((answer r).run w).2⟩)
    (h : (next ((answer r).run w).1).Meets answer kind ((answer r).run w).2 post) :
    (Dialogue.ask r next).Meets answer kind w post :=
  ⟨List.forall_mem_cons.mpr ⟨hk, h.moments⟩, h.ends⟩

theorem bind {d : Dialogue α} {f : α → Dialogue β} {post : β → σ → Prop}
    (h : d.Meets answer kind w fun a w' => (f a).Meets answer kind w' post) :
    (d.bind f).Meets answer kind w post := by
  refine ⟨?_, ?_⟩
  · rw [moments_bind]
    exact List.forall_mem_append.mpr ⟨h.moments, h.ends.moments⟩
  · rw [result_bind, final_bind]
    exact h.ends.ends

theorem ask_bind {r : Request} {f : r.Answer → Dialogue α} {post : α → σ → Prop}
    (hk : kind ⟨w, r, ((answer r).run w).1, ((answer r).run w).2⟩)
    (h : (f ((answer r).run w).1).Meets answer kind ((answer r).run w).2 post) :
    ((Dialogue.ask r .done).bind f).Meets answer kind w post :=
  ask hk h

theorem mono {d : Dialogue α} {post post' : α → σ → Prop} (h : d.Meets answer kind w post)
    (hk : ∀ m, kind m → kind' m) (hp : ∀ a w', post a w' → post' a w') :
    d.Meets answer kind' w post' :=
  ⟨fun m hm => hk m (h.moments m hm), hp _ _ h.ends⟩

theorem weaken {d : Dialogue α} {post post' : α → σ → Prop} (h : d.Meets answer kind w post)
    (hp : ∀ a w', post a w' → post' a w') : d.Meets answer kind w post' :=
  h.mono (fun _ => id) hp

theorem and {d : Dialogue α} {post post' : α → σ → Prop} (h : d.Meets answer kind w post)
    (h' : d.Meets answer kind' w post') :
    d.Meets answer (fun m => kind m ∧ kind' m) w fun a w' => post a w' ∧ post' a w' :=
  ⟨fun m hm => ⟨h.moments m hm, h'.moments m hm⟩, h.ends, h'.ends⟩

theorem with_result {d : Dialogue α} {post : α → σ → Prop} (h : d.Meets answer kind w post) :
    d.Meets answer kind w fun a w' => a = d.result answer w ∧ post a w' :=
  ⟨h.moments, rfl, h.ends⟩

theorem attempt_bind {a : Attempt α} {f : α → Attempt β} {post : Except Fault β → σ → Prop}
    (h : a.dialogue.Meets answer kind w fun r w' =>
      match r with
      | .ok x => (f x).dialogue.Meets answer kind w' post
      | .error e => post (.error e) w') :
    (a >>= f).dialogue.Meets answer kind w post := by
  refine bind (h.weaken fun r w' hr => ?_)
  cases r with
  | ok x => exact hr
  | error e => exact done hr

theorem lift_bind {d : Dialogue α} {f : α → Attempt β} {post : Except Fault β → σ → Prop}
    (h : d.Meets answer kind w fun a w' => (f a).dialogue.Meets answer kind w' post) :
    ((liftM d : Attempt α) >>= f).dialogue.Meets answer kind w post := by
  rw [Attempt.dialogue_lift_bind]
  exact bind h

theorem any (d : Dialogue α) (w : σ) :
    d.Meets answer (fun _ => True) w fun _ _ => True :=
  ⟨fun _ _ => trivial, trivial⟩

end Dialogue.Meets

/-- Made where an invariant holds, a request is a moment of a kind, and the invariant holds after
it. -/
def Request.Preserves {σ : Type} (answer : (r : Request) → StateM σ r.Answer)
    (kind : Moment σ → Prop) (inv : σ → Prop) (r : Request) : Prop :=
  ∀ w, inv w → kind (.of answer r w) ∧ inv ((answer r).run w).2

theorem Dialogue.Asks.meets {σ α : Type} {answer : (r : Request) → StateM σ r.Answer}
    {kind : Moment σ → Prop} {inv : σ → Prop} {d : Dialogue α} {w : σ}
    (hd : d.Asks (Request.Preserves answer kind inv)) (hw : inv w) :
    d.Meets answer kind w fun _ w' => inv w' := by
  induction d generalizing w with
  | done a => exact .done hw
  | ask r next ih =>
    obtain ⟨hr, hnext⟩ := hd
    obtain ⟨hkind, hafter⟩ := hr w hw
    exact .ask hkind (ih _ (hnext _) hafter)

end StorageTrials

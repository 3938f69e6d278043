import Mathlib.Data.List.Basic
import StorageTrials.CommandLine.Draft
import StorageTrials.Proofs.CommandLine.Grammar

namespace StorageTrials

open StorageTrials.Text

variable {env : Environment} {d d' : Draft} {p q : Parameter} {t : String} {i : Item}
  {items done : List Item} {ws : List String} {c : CommandLine}

namespace Parameter

inductive Value
  | mode (m : Mode)
  | text (s : String)
  | number (n : Nat)
  | span (t : Duration)
deriving DecidableEq, Repr

/-- The value that a text is for a parameter, if it can be one. The files have no single value. -/
def read? : Parameter → String → Option Value
  | mode, t => (Mode.ofName? t).map .mode
  | server, t | db, t | collection, t => some (.text t)
  | port, t => (Draft.readWord? 16 t).map .number
  | loopCount, t => (Draft.readWord? 32 t).map .number
  | timeout, t => (Duration.read t).toOption.map .span
  | files, _ => none
  | _, t => if t = "" then none else some (.text t)

def environment? (p : Parameter) (env : Environment) : Option String :=
  p.environmentName?.bind fun v => env.lookup v

end Parameter

def Choices.value? (c : Choices) : Parameter → Option Parameter.Value
  | .sourceDir => c.sourceDir.map .text
  | .destinationDir => c.destinationDir.map .text
  | .server => c.connection.server.map .text
  | .port => c.connection.port.map .number
  | .db => c.connection.db.map .text
  | .collection => c.connection.collection.map .text
  | .loopCount => c.loopCount.map .number
  | .outfile => c.outfile.map .text
  | .timeout => c.timeout.map .span
  | .summary => c.summaryPath.map .text
  | .defaults => c.defaultsPath.map .text
  | .mode | .files => .none

def Draft.value? (d : Draft) (p : Parameter) : Option Parameter.Value :=
  if p = .mode then d.mode.map .mode else d.choices.value? p

def CommandLine.value? (c : CommandLine) (p : Parameter) : Option Parameter.Value :=
  if p = .mode then some (.mode c.mode) else c.toChoices.value? p

theorem exists_of_map_eq_ok {ε α β : Type} {f : α → β} {x : Except ε α} {b : β}
    (h : x.map f = .ok b) : ∃ a, x = .ok a ∧ f a = b := by
  cases x with
  | error e => exact nomatch h
  | ok a => exact ⟨a, rfl, Except.ok.inj h⟩

theorem exists_of_bind_eq_ok {ε α β : Type} {f : α → Except ε β} {x : Except ε α} {b : β}
    (h : x >>= f = .ok b) : ∃ a, x = .ok a ∧ f a = .ok b := by
  cases x with
  | error e => exact nomatch h
  | ok a => exact ⟨a, rfl, h⟩

namespace Draft

theorem orRejected_eq_ok {α : Type} {value : Option α} {cause : Rejection} {a : α}
    (h : orRejected value cause = .ok a) : value = some a := by
  cases value with
  | none => exact nomatch h
  | some b => exact congrArg some (Except.ok.inj h)

theorem readSpan_eq_ok {a : Duration} (h : readSpan p t = .ok a) :
    (Duration.read t).toOption = some a := by
  unfold readSpan at h
  split at h
  case h_1 b hb => rw [hb, ← Except.ok.inj h]; rfl
  case h_2 => exact nomatch h
  case h_3 => exact nomatch h

structure Gains (d : Draft) (p : Parameter) (v : Parameter.Value) (d' : Draft) : Prop where
  value : ∀ q, d'.value? q = if q = p then some v else d.value? q
  files : d'.files = d.files
  verbose : d'.choices.verbose = d.choices.verbose

theorem gains_of_set (hp : p ≠ .files) (h : d.set p t = .ok d') :
    ∃ v, p.read? t = some v ∧ d.Gains p v d' := by
  cases p with
  | files => exact absurd rfl hp
  | mode =>
    obtain ⟨m, hm, rfl⟩ := exists_of_map_eq_ok h
    have hm := orRejected_eq_ok hm
    exact ⟨.mode m, by simp [Parameter.read?, hm], fun q => by cases q <;> rfl, rfl, rfl⟩
  | server | db | collection =>
    obtain rfl := Except.ok.inj h
    exact ⟨.text t, rfl, fun q => by cases q <;> rfl, rfl, rfl⟩
  | port | loopCount =>
    obtain ⟨n, hn, rfl⟩ := exists_of_map_eq_ok h
    have hn := orRejected_eq_ok hn
    exact ⟨.number n, by simp [Parameter.read?, hn], fun q => by cases q <;> rfl, rfl, rfl⟩
  | timeout =>
    obtain ⟨a, ha, rfl⟩ := exists_of_map_eq_ok h
    have ha := readSpan_eq_ok ha
    exact ⟨.span a, by simp [Parameter.read?, ha], fun q => by cases q <;> rfl, rfl, rfl⟩
  | sourceDir | destinationDir | outfile | summary | defaults =>
    obtain ⟨s, hs, rfl⟩ := exists_of_map_eq_ok h
    obtain ⟨hne, hs⟩ := Option.ite_none_left_eq_some.mp (orRejected_eq_ok hs)
    obtain rfl := Option.some.inj hs
    exact ⟨.text t, if_neg hne, fun q => by cases q <;> rfl, rfl, rfl⟩

theorem settled_eq (hp : p ≠ .files) : d.settled p = (d.value? p).isSome := by
  cases p <;> simp [settled, value?, Choices.value?] at hp ⊢

/-- What holds of a draft once items have been taken up. -/
structure Holds (d : Draft) (items : List Item) : Prop where
  usable : ∀ i ∈ items, i.Usable
  values : ∀ p, p ≠ .files →
    (items.filterMap (Item.value? p)).map p.read? = (d.value? p).toList.map some
  files : d.files = (items.filterMap (Item.value? .files)).flatMap readFiles
  verbose : items.count (.switch .verbose) = if d.choices.verbose then 1 else 0

theorem Holds.verbose_iff (h : d.Holds items) :
    d.choices.verbose = true ↔ .switch .verbose ∈ items := by
  rw [← List.count_pos_iff, h.verbose]
  split <;> simp_all

theorem Holds.count_le_one (h : d.Holds items) : items.count (.switch .verbose) ≤ 1 := by
  rw [h.verbose]
  split <;> decide

theorem holds_empty : empty.Holds [] where
  usable := List.forall_mem_nil _
  values p hp := by cases p <;> rfl
  files := rfl
  verbose := rfl

theorem Holds.set (h : d.Holds done) (hp : p ≠ .files) (hfree : d.value? p = none)
    (hset : d.set p t = .ok d') : d'.Holds (done ++ [.choice p (some t)]) := by
  obtain ⟨v, hv, hgain⟩ := gains_of_set hp hset
  refine ⟨List.forall_mem_append.mpr ⟨h.usable, List.forall_mem_singleton.mpr rfl⟩,
    fun q hq => ?_, ?_, ?_⟩
  · rw [List.filterMap_append, List.map_append, h.values q hq, hgain.value q]
    by_cases hqp : q = p
    · subst hqp
      simp [Item.value?, hfree, hv]
    · simp [Item.value?, hqp, Ne.symm hqp]
  · rw [hgain.files, h.files]
    simp [Item.value?, hp]
  · rw [List.count_append, h.verbose, hgain.verbose]
    simp

theorem Holds.setFiles (h : d.Holds done) (hset : d.set .files t = .ok d') :
    d'.Holds (done ++ [.choice .files (some t)]) := by
  obtain rfl := Except.ok.inj hset
  refine ⟨List.forall_mem_append.mpr ⟨h.usable, List.forall_mem_singleton.mpr rfl⟩,
    fun q hq => ?_, ?_, ?_⟩
  · rw [List.filterMap_append, List.map_append, h.values q hq]
    simp [Item.value?, hq.symm, Draft.value?]
  · simp [Item.value?, h.files]
  · rw [List.count_append, h.verbose]
    simp

theorem Holds.flip (h : d.Holds done) {s : Switch} (hflip : d.flip s = .ok d') :
    d'.Holds (done ++ [.switch s]) := by
  cases s with
  | help | version => exact nomatch hflip
  | verbose =>
    rw [Draft.flip] at hflip
    split at hflip
    case isTrue => exact nomatch hflip
    case isFalse hquiet =>
      obtain rfl := Except.ok.inj hflip
      refine ⟨List.forall_mem_append.mpr ⟨h.usable, List.forall_mem_singleton.mpr rfl⟩,
        fun q hq => ?_, ?_, ?_⟩
      · rw [List.filterMap_append, List.map_append, h.values q hq]
        cases q <;> simp [Item.value?, Draft.value?, choose, Choices.value?]
      · simp [Item.value?, h.files, choose]
      · rw [List.count_append, h.verbose, if_neg hquiet]
        rfl

theorem Holds.take (h : d.Holds done) (htake : d.take i = .ok d') : d'.Holds (done ++ [i]) := by
  cases i with
  | refused cause => exact nomatch htake
  | switch s => exact h.flip htake
  | choice p value =>
    cases value with
    | none => exact nomatch htake
    | some t =>
      rw [Draft.take] at htake
      split at htake
      case isTrue => exact nomatch htake
      case isFalse hfree =>
        by_cases hp : p = .files
        · subst hp
          exact h.setFiles htake
        · rw [settled_eq hp, Bool.not_eq_true, Option.isSome_eq_false_iff] at hfree
          exact h.set hp (Option.isNone_iff_eq_none.mp hfree) htake

theorem Holds.takeAll (h : d.Holds done) (htake : d.takeAll items = .ok d') :
    d'.Holds (done ++ items) := by
  induction items generalizing d done with
  | nil => exact (List.append_nil done).symm ▸ Except.ok.inj htake ▸ h
  | cons i items ih =>
    obtain ⟨d₁, hi, hrest⟩ := exists_of_bind_eq_ok htake
    rw [List.append_cons]
    exact ih (h.take hi) hrest

theorem value?_standIn (h : d.standIn env p = .ok d') (q : Parameter) :
    (d'.value? q).map some =
        ((d.value? q).map some).or (if q = p then (p.environment? env).map p.read? else none) ∧
      d'.files = d.files ∧ d'.choices.verbose = d.choices.verbose := by
  by_cases hp : p = .files
  · subst hp
    obtain rfl := Except.ok.inj h
    simp [Parameter.environment?, Parameter.environmentName?]
  rw [standIn, settled_eq hp] at h
  split at h
  case isTrue hsome =>
    obtain rfl := Except.ok.inj h
    obtain ⟨v, hv⟩ := Option.isSome_iff_exists.mp hsome
    refine ⟨?_, rfl, rfl⟩
    by_cases hq : q = p
    · rw [hq, hv]
      rfl
    · rw [if_neg hq, Option.or_none]
  case isFalse hnone =>
    rw [Bool.not_eq_true, Option.isSome_eq_false_iff, Option.isNone_iff_eq_none] at hnone
    have henv : p.environmentName?.bind (fun v => env.lookup v) = p.environment? env := rfl
    rw [henv] at h
    cases he : p.environment? env with
    | none =>
      rw [he] at h
      obtain rfl := Except.ok.inj h
      exact ⟨by simp, rfl, rfl⟩
    | some text =>
      rw [he] at h
      obtain ⟨v, hv, hgain⟩ := gains_of_set hp h
      refine ⟨?_, hgain.files, hgain.verbose⟩
      rw [hgain.value q]
      by_cases hq : q = p
      · simp [hq, hnone, hv]
      · simp [hq]

theorem value?_standInAll {ps : List Parameter} (h : ps.foldlM (standIn env) d = .ok d')
    (p : Parameter) :
    (d'.value? p).map some =
        ((d.value? p).map some).or (if p ∈ ps then (p.environment? env).map p.read? else none) ∧
      d'.files = d.files ∧ d'.choices.verbose = d.choices.verbose := by
  induction ps generalizing d with
  | nil =>
    obtain rfl := Except.ok.inj h
    simp
  | cons q qs ih =>
    obtain ⟨d₁, hq, hrest⟩ := exists_of_bind_eq_ok h
    obtain ⟨hv₁, hf₁, hverb₁⟩ := value?_standIn hq p
    obtain ⟨hv, hf, hverb⟩ := ih hrest
    refine ⟨?_, hf.trans hf₁, hverb.trans hverb₁⟩
    rw [hv, hv₁, Option.or_assoc]
    congr 1
    -- once the environment has stood in, it adds nothing when it does so again
    by_cases hpq : p = q
    · subst hpq
      by_cases hp : p ∈ qs <;> simp [hp]
    · simp [hpq]

theorem complete_eq_ok (h : d.complete = .ok c) :
    ∃ mode, d.mode = some mode ∧ d.files ≠ [] ∧
      c = { d.choices with mode := mode, files := d.files } := by
  unfold complete at h
  split at h
  case h_1 mode f fs hmode hfiles =>
    refine ⟨mode, hmode, hfiles ▸ List.cons_ne_nil f fs, ?_⟩
    rw [← Except.ok.inj h]
  case h_2 => exact nomatch h

end Draft

/-- What a command line says that has been accepted. -/
structure CommandLine.Says (env : Environment) (ws : List String) (c : CommandLine) : Prop where
  once : ∀ p, p ≠ .files → (given p ws).length ≤ 1
  values : ∀ p, p ≠ .files → (c.value? p).map some =
    ((given p ws).head?.map p.read?).or ((p.environment? env).map p.read?)
  files : c.files = (given .files ws).flatMap Draft.readFiles
  files_ne_nil : c.files ≠ []
  verbose : c.verbose = ws.any isVerbose

theorem says_of_read (h : CommandLine.read env ws = .ok c) : c.Says env ws := by
  obtain ⟨d, htake, h⟩ := exists_of_bind_eq_ok h
  obtain ⟨d', hstand, h⟩ := exists_of_bind_eq_ok h
  obtain ⟨mode, hmode, hne, rfl⟩ := Draft.complete_eq_ok h
  have hd : d.Holds (Item.ofWords ws) := Draft.holds_empty.takeAll htake
  have hwritten : Item.Written (Item.ofWords ws) ws := Item.written_scan ws hd.usable
  have hgiven := CommandLine.values_written hwritten
  have hfiles := (Draft.value?_standInAll hstand .files).2.1
  have hverbose := (Draft.value?_standInAll hstand .files).2.2
  refine ⟨fun p hp => ?_, fun p hp => ?_, ?_, hne, ?_⟩
  · have hlen := congrArg List.length (hd.values p hp)
    rw [hgiven, List.length_map, List.length_map] at hlen
    exact hlen ▸ Option.length_toList_le
  · have hvalue := (Draft.value?_standInAll hstand p).1
    have hhead := congrArg List.head? (hd.values p hp)
    rw [hgiven, List.head?_map, List.head?_map, Option.head?_toList] at hhead
    rw [if_pos p.mem_all, ← hhead] at hvalue
    rw [← hvalue, CommandLine.value?, Draft.value?, hmode]
    rfl
  · rw [hfiles, hd.files, hgiven]
  · rw [hverbose, Bool.eq_iff_iff, ← CommandLine.verbose_written hwritten hd.count_le_one,
      hd.verbose_iff]

end StorageTrials

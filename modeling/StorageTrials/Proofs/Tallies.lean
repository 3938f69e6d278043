import StorageTrials.Proofs.Grouping
import StorageTrials.Proofs.Moments
import StorageTrials.Runner

namespace StorageTrials

variable {σ α : Type} {answer : (r : Request) → StateM σ r.Answer} {kind : Moment σ → Prop}
variable {w w' : σ} {ms ns : List (Moment σ)} {t t' : Tally} {d : Dialogue α} {a : α}

def recordsIn (ms : List (Moment σ)) : List Record :=
  ms.filterMap fun m => Dialogue.printed? m.request m.answer

theorem recordsIn_append (ms ns : List (Moment σ)) :
    recordsIn (ms ++ ns) = recordsIn ms ++ recordsIn ns :=
  List.filterMap_append

theorem recordsIn_cons (m : Moment σ) (ms : List (Moment σ)) :
    recordsIn (m :: ms) = (Dialogue.printed? m.request m.answer).toList ++ recordsIn ms := by
  rw [recordsIn, List.filterMap_cons]
  cases Dialogue.printed? m.request m.answer <;> rfl

def rowsOf (ls : List Line) : List Record := ls.filterMap Line.record?

theorem recordsIn_of_printed (h : ∀ m ∈ ms, m.Printed) : recordsIn ms = rowsOf (linesOf ms) := by
  rw [recordsIn, rowsOf, linesOf, List.filterMap_filterMap]
  refine List.filterMap_congr fun m hm => ?_
  have hprinted := h m hm
  obtain ⟨u, r, a, u'⟩ := m
  cases r with
  | print line =>
    have ha : a = .ok () := hprinted
    rw [ha]
    rfl
  | _ => rfl

theorem line?_of_printed? {m : Moment σ} {r : Record}
    (h : Dialogue.printed? m.request m.answer = some r) : m.line? = some (.record r) := by
  obtain ⟨u, q, a, u'⟩ := m
  cases q with
  | print line =>
    cases a with
    | error e => cases h
    | ok _ =>
      cases line with
      | columns texts => cases h
      | record r' =>
        cases h
        rfl
  | _ => cases h

theorem recordsIn_sublist (ms : List (Moment σ)) :
    (recordsIn ms).Sublist (rowsOf (linesOf ms)) := by
  induction ms with
  | nil => exact .slnil
  | cons m ms ih =>
    rw [recordsIn_cons, linesOf_cons, rowsOf, List.filterMap_append]
    refine List.Sublist.append ?_ ih
    cases hrow : Dialogue.printed? m.request m.answer with
    | none => exact List.nil_sublist _
    | some r =>
      rw [line?_of_printed? hrow]
      exact .refl _

theorem Moment.printed_of_line? {m : Moment σ} (h : m.line? = none) : m.Printed := by
  obtain ⟨u, r, a, u'⟩ := m
  cases r with
  | print line => cases h
  | _ => trivial

variable (answer) in
/-- The same answers, but every line is printed. -/
def printing : (r : Request) → StateM σ r.Answer
  | .print line => fun w => (.ok (), ((answer (.print line)).run w).2)
  | r => answer r

theorem run_printing {r : Request} (h : (Moment.of answer r w).Printed) :
    (printing answer r).run w = (answer r).run w := by
  cases r with
  | print line => exact Prod.ext h.symm rfl
  | _ => rfl

theorem Dialogue.passes_printing (d : Dialogue α)
    (h : ∀ m ∈ d.moments answer w, m.Printed) :
    d.Passes (printing answer) w (d.moments answer w) (d.result answer w) (d.final answer w) := by
  induction d generalizing w with
  | done a => exact .done
  | ask r next ih =>
    rw [moments_ask] at h
    obtain ⟨hfirst, hrest⟩ := List.forall_mem_cons.mp h
    have hrun := run_printing hfirst
    obtain ⟨hmoments, hresult, hfinal⟩ := ih _ hrest
    refine ⟨?_, ?_, ?_⟩
    · rw [moments_ask, moments_ask, hrun, hmoments]
    · rw [result_ask, result_ask, hrun, hresult]
    · rw [final_ask, final_ask, hrun, hfinal]

theorem Dialogue.meets_printing_iff {d : Dialogue α} {post : α → σ → Prop}
    (h : ∀ m ∈ d.moments answer w, m.Printed) :
    d.Meets (printing answer) kind w post ↔ d.Meets answer kind w post := by
  obtain ⟨hmoments, hresult, hfinal⟩ := d.passes_printing h
  constructor
  · rintro ⟨hkind, hends⟩
    exact ⟨hmoments ▸ hkind, hresult ▸ hfinal ▸ hends⟩
  · rintro ⟨hkind, hends⟩
    exact ⟨hmoments.symm ▸ hkind, by rwa [hresult, hfinal]⟩

theorem moments_printing (answer : (r : Request) → StateM σ r.Answer) (d : Dialogue α) (w : σ) :
    ∀ m ∈ d.moments (printing answer) w, m.Printed := by
  induction d generalizing w with
  | done a => exact List.forall_mem_nil _
  | ask r next ih =>
    rw [Dialogue.moments_ask]
    refine List.forall_mem_cons.mpr ⟨?_, ih _ _⟩
    cases r <;> trivial

theorem Tally.addIf?_eq (t : Tally) (r : Option Record) :
    t.addIf? r = r.toList.foldlM Tally.add? t := by
  cases r with
  | none => rfl
  | some r => exact (bind_pure (t.add? r)).symm

namespace Dialogue

variable (answer) in
/-- With a tally, a dialogue goes as it does without one, up to its end or up to the record with
which a total leaves its range. -/
inductive Tallies (d : Dialogue α) (t : Tally) (w : σ) : Prop
  | ends (t' : Tally) (kept : (recordsIn (d.moments answer w)).foldlM Tally.add? t = some t')
      (passes : (d.tallied t).Passes answer w (d.moments answer w) (some (t', d.result answer w))
        (d.final answer w))
  | breaks (front : List (Moment σ)) (m : Moment σ) (back : List (Moment σ)) (r : Record)
      (t' : Tally) (cut : d.moments answer w = front ++ m :: back)
      (row : printed? m.request m.answer = some r)
      (kept : (recordsIn front).foldlM Tally.add? t = some t') (full : t'.add? r = none)
      (passes : (d.tallied t).Passes answer w (front ++ [m]) none m.after)

theorem passes_tallied_stop {r : Request} {next : r.Answer → Dialogue α} {t : Tally}
    (h : t.addIf? (printed? r ((answer r).run w).1) = none) :
    ((ask r next).tallied t).Passes answer w [.of answer r w] none ((answer r).run w).2 := by
  refine ⟨?_, ?_, ?_⟩
  · rw [tallied, moments_ask, h]
    rfl
  · rw [tallied, result_ask, h]
    rfl
  · rw [tallied, final_ask, h]
    rfl

theorem passes_tallied_step {r : Request} {next : r.Answer → Dialogue α} {t t₁ : Tally}
    (h : t.addIf? (printed? r ((answer r).run w).1) = some t₁) {ms : List (Moment σ)}
    {a : Option (Tally × α)} {u : σ}
    (hp : ((next ((answer r).run w).1).tallied t₁).Passes answer ((answer r).run w).2 ms a u) :
    ((ask r next).tallied t).Passes answer w (.of answer r w :: ms) a u := by
  refine ⟨?_, ?_, ?_⟩
  · rw [tallied, moments_ask, h]
    exact congrArg _ hp.moments
  · rw [tallied, result_ask, h]
    exact hp.result
  · rw [tallied, final_ask, h]
    exact hp.final

variable (answer) in
theorem tallies (d : Dialogue α) (t : Tally) (w : σ) : d.Tallies answer t w := by
  induction d generalizing t w with
  | done a => exact .ends t rfl ⟨rfl, rfl, rfl⟩
  | ask r next ih =>
    cases hadded : t.addIf? (printed? r ((answer r).run w).1) with
    | none =>
      cases hrow : printed? r ((answer r).run w).1 with
      | none =>
        rw [hrow] at hadded
        cases hadded
      | some record =>
        have hpasses : ((ask r next).tallied t).Passes answer w _ none _ :=
          passes_tallied_stop hadded
        rw [hrow] at hadded
        exact .breaks [] (.of answer r w) _ record t rfl hrow rfl hadded hpasses
    | some t₁ =>
      have hkept (ms : List (Moment σ)) :
          (recordsIn (.of answer r w :: ms)).foldlM Tally.add? t =
            (recordsIn ms).foldlM Tally.add? t₁ := by
        change t.addIf? (printed? (Moment.of answer r w).request (Moment.of answer r w).answer) =
          some t₁ at hadded
        rw [recordsIn_cons, List.foldlM_append, ← Tally.addIf?_eq, hadded]
        rfl
      cases ih ((answer r).run w).1 t₁ ((answer r).run w).2 with
      | ends t' kept passes =>
        exact .ends t' ((hkept _).trans kept) (passes_tallied_step hadded passes)
      | breaks front m back record t' cut row kept full passes =>
        exact .breaks (.of answer r w :: front) m back record t' (congrArg _ cut) row
          ((hkept _).trans kept) full (passes_tallied_step hadded passes)

theorem map_result_tallied (d : Dialogue α) (t : Tally) (w : σ) :
    ((d.tallied t).result answer w).map (·.1) =
      (recordsIn ((d.tallied t).moments answer w)).foldlM Tally.add? t := by
  cases d.tallies answer t w with
  | ends t' kept passes =>
    rw [passes.result, passes.moments, kept]
    rfl
  | breaks front m back r t' cut row kept full passes =>
    rw [passes.result, passes.moments, recordsIn_append, recordsIn_cons, row, List.foldlM_append,
      kept]
    change none = ([r].foldlM Tally.add? t')
    rw [List.foldlM_cons, full]
    rfl

theorem moments_tallied_prefix (d : Dialogue α) (t : Tally) (w : σ) :
    (d.tallied t).moments answer w <+: d.moments answer w := by
  cases d.tallies answer t w with
  | ends t' kept passes => rw [passes.moments]
  | breaks front m back r t' cut row kept full passes =>
    exact ⟨back, by rw [passes.moments, cut, List.append_assoc, List.singleton_append]⟩

theorem mem_moments_of_tallied {m : Moment σ} (hm : m ∈ (d.tallied t).moments answer w) :
    m ∈ d.moments answer w :=
  (d.moments_tallied_prefix t w).mem hm

theorem passes_of_result_tallied (h : (d.tallied t).result answer w = some (t', a)) :
    d.Passes answer w ((d.tallied t).moments answer w) a ((d.tallied t).final answer w) := by
  cases d.tallies answer t w with
  | ends t' kept passes =>
    obtain ⟨-, rfl⟩ := Prod.mk.inj (Option.some.inj (passes.result.symm.trans h))
    exact ⟨passes.moments.symm, rfl, passes.final.symm⟩
  | breaks front m back r t' cut row kept full passes => cases passes.result.symm.trans h

/-- What a dialogue guarantees, it guarantees with a tally, but where it breaks off it is not known
to be at its end. -/
theorem Meets.tallied {post : α → σ → Prop} {inv : σ → Prop} (h : d.Meets answer kind w post)
    (hafter : ∀ m, kind m → inv m.after) (t : Tally) :
    (d.tallied t).Meets answer kind w fun r w' =>
      match r with
      | some (_, a) => post a w'
      | none => inv w' := by
  refine ⟨fun m hm => h.moments m ((d.moments_tallied_prefix t w).mem hm), ?_⟩
  cases d.tallies answer t w with
  | ends t' kept passes =>
    rw [passes.result, passes.final]
    exact h.ends
  | breaks front m back r t' cut row kept full passes =>
    rw [passes.result, passes.final]
    exact hafter m (h.moments m (by simp [cut]))

/-- A dialogue whose records have their bytes in range goes with a tally as it does without one. -/
theorem passes_tallied (h : BytesFit (recordsIn (d.moments answer w))) :
    ∃ t, Tally.ofRecords? (recordsIn (d.moments answer w)) = some t ∧
      (d.tallied .empty).Passes answer w (d.moments answer w) (some (t, d.result answer w))
        (d.final answer w) := by
  cases d.tallies answer .empty w with
  | ends t kept passes => exact ⟨t, kept, passes⟩
  | breaks front m back r t cut row kept full passes =>
    have hnone : Tally.ofRecords? (recordsIn (d.moments answer w)) = none := by
      rw [Tally.ofRecords?, cut, recordsIn_append, recordsIn_cons, row, List.foldlM_append, kept]
      change (r :: recordsIn back).foldlM Tally.add? t = none
      rw [List.foldlM_cons, full]
      rfl
    exact absurd h (tally_eq_none_iff.mp hnone)

theorem result_tallied_eq_none_iff :
    (d.tallied .empty).result answer w = none ↔ ¬ BytesFit (recordsIn (d.moments answer w)) := by
  constructor
  · intro hnone hfit
    obtain ⟨t, -, hpasses⟩ := passes_tallied hfit
    cases hpasses.result.symm.trans hnone
  · intro hnot
    cases d.tallies answer .empty w with
    | ends t kept passes => exact absurd (bytesFit_of_ofRecords? kept) hnot
    | breaks front m back r t cut row kept full passes => exact passes.result

variable (answer) in
/-- From the beginning of a tally on, a dialogue comes to its end exactly if the bytes of the
records it prints are in their range. -/
theorem ends_or_breaks (d : Dialogue α) (w : σ) :
    (BytesFit (recordsIn (d.moments answer w)) ∧
      ∃ t, Tally.ofRecords? (recordsIn (d.moments answer w)) = some t ∧
        (d.tallied .empty).Passes answer w (d.moments answer w) (some (t, d.result answer w))
          (d.final answer w)) ∨
    ∃ front m back r, d.moments answer w = front ++ m :: back ∧
      printed? m.request m.answer = some r ∧ BytesFit (recordsIn front) ∧
      ¬ BytesFit (recordsIn (front ++ [m])) ∧
      (d.tallied .empty).Passes answer w (front ++ [m]) none m.after := by
  cases d.tallies answer .empty w with
  | ends t kept passes => exact .inl ⟨bytesFit_of_ofRecords? kept, t, kept, passes⟩
  | breaks front m back r t cut row kept full passes =>
    refine .inr ⟨front, m, back, r, cut, row, bytesFit_of_ofRecords? kept, ?_, passes⟩
    rw [← tally_eq_none_iff, Tally.ofRecords?, recordsIn_append, recordsIn_cons, row,
      List.foldlM_append, kept]
    change [r].foldlM Tally.add? t = none
    rw [List.foldlM_cons, full]
    rfl

theorem bytesFit_of_tallied
    (h : BytesFit (rowsOf (linesOf ((d.tallied .empty).moments answer w)))) :
    BytesFit (recordsIn (d.moments answer w)) := by
  obtain ⟨hfit, -⟩ | ⟨front, m, -, -, -, -, -, hnot, hpasses⟩ := d.ends_or_breaks answer w
  · exact hfit
  · rw [hpasses.moments] at h
    exact absurd (h.sublist (recordsIn_sublist _)) hnot

end Dialogue

end StorageTrials

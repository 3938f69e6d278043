import StorageTrials.Json.Structure

namespace StorageTrials.Json

open StorageTrials.Number StorageTrials.Text

variable {c : Char} {cs ds : List Char}

namespace NumberPart

variable {p q r : NumberPart}

/-- The characters lead from one part of a number to another. -/
def Leads (p : NumberPart) (cs : List Char) (q : NumberPart) : Prop := cs.foldlM next p = some q

theorem Leads.nil (p : NumberPart) : p.Leads [] p := rfl

theorem Leads.cons (h : p.next c = some q) (h' : q.Leads cs r) : p.Leads (c :: cs) r := by
  rw [Leads, List.foldlM_cons, h]
  exact h'

theorem Leads.append (h : p.Leads cs q) (h' : q.Leads ds r) : p.Leads (cs ++ ds) r := by
  rw [Leads, List.foldlM_append, h]
  exact h'

theorem leads_digits (hp : ∀ c : Char, c.isDigit = true → p.next c = some p)
    (hcs : ∀ c ∈ cs, c.isDigit = true) : p.Leads cs p := by
  induction cs with
  | nil => exact .nil p
  | cons c cs ih =>
    obtain ⟨hc, hcs⟩ := List.forall_mem_cons.mp hcs
    exact .cons (hp c hc) (ih hcs)

theorem leads_whole (hcs : ∀ c ∈ cs, c.isDigit = true) : whole.Leads cs whole :=
  leads_digits (fun _ hc => if_pos hc) hcs

theorem leads_some_digits (hp : ∀ c : Char, c.isDigit = true → p.next c = some q)
    (hq : ∀ c : Char, c.isDigit = true → q.next c = some q) (hne : cs ≠ [])
    (hcs : ∀ c ∈ cs, c.isDigit = true) : p.Leads cs q := by
  cases cs with
  | nil => exact absurd rfl hne
  | cons c cs =>
    obtain ⟨hc, hcs⟩ := List.forall_mem_cons.mp hcs
    exact .cons (hp c hc) (leads_digits hq hcs)

theorem leads_point (hne : cs ≠ []) (hcs : ∀ c ∈ cs, c.isDigit = true) :
    point.Leads cs fraction :=
  leads_some_digits (fun _ hc => if_pos hc) (fun _ hc => if_pos hc) hne hcs

theorem leads_markSign (hne : cs ≠ []) (hcs : ∀ c ∈ cs, c.isDigit = true) :
    markSign.Leads cs exponent :=
  leads_some_digits (fun _ hc => if_pos hc) (fun _ hc => if_pos hc) hne hcs

theorem next_sign (hc : c.isDigit = true) (hzero : c ≠ '0') : sign.next c = some whole := by
  rw [next, if_neg hzero, if_pos hc]

end NumberPart

def Unsigned (cs : List Char) : Prop := ∃ q, NumberPart.sign.Leads cs q ∧ q.isComplete = true

/-- What is read as one number. -/
inductive Numeral : List Char → Prop
  | unsigned {cs : List Char} (h : Unsigned cs) : Numeral cs
  | negative {cs : List Char} (h : Unsigned cs) : Numeral ('-' :: cs)

theorem digitChar_ne_zero {d : Nat} (hd : d < 10) (hne : d ≠ 0) : digitChar d ≠ '0' := by
  revert d
  decide

theorem digits_of_ne_zero {n : Nat} (hn : n ≠ 0) : ∃ c cs, digits n = c :: cs ∧ c ≠ '0' := by
  fun_induction digits n with
  | case1 n h => exact ⟨_, [], rfl, digitChar_ne_zero h hn⟩
  | case2 n h ih =>
    obtain ⟨c, cs, hcs, hc⟩ := ih (by omega)
    exact ⟨c, cs ++ [digitChar (n % 10)], by rw [hcs]; rfl, hc⟩

theorem numeral_digits (n : Nat) : Numeral (digits n) := by
  by_cases hn : n = 0
  · have hdigits : digits n = ['0'] := by
      rw [hn, digits]
      rfl
    rw [hdigits]
    exact .unsigned ⟨.zero, rfl, rfl⟩
  · obtain ⟨c, cs, hcs, hc⟩ := digits_of_ne_zero hn
    have hdigits : ∀ d ∈ c :: cs, d.isDigit = true := fun d hd =>
      isDigit_of_mem_digits (hcs ▸ hd)
    obtain ⟨hfirst, hrest⟩ := List.forall_mem_cons.mp hdigits
    rw [hcs]
    exact .unsigned
      ⟨.whole, .cons (NumberPart.next_sign hfirst hc) (NumberPart.leads_whole hrest), rfl⟩

section decimal

variable (hc : c.isDigit = true) (hzero : c ≠ '0') (hcs : ∀ d ∈ cs, d.isDigit = true)
include hc hzero hcs

theorem leads_leadingPoint : NumberPart.sign.Leads (leadingPoint (c :: cs) ++ ['e']) .mark := by
  have hfirst := NumberPart.next_sign hc hzero
  cases cs with
  | nil => exact .cons hfirst rfl
  | cons d ds =>
    exact .cons hfirst (.cons rfl
      ((NumberPart.leads_point (List.cons_ne_nil d ds) hcs).append rfl))

omit hc hzero hcs in
theorem leads_signedDecimal (n : Int) : NumberPart.mark.Leads (signedDecimal n) .exponent := by
  have hsign : NumberPart.mark.next (if n < 0 then '-' else '+') = some .markSign := by
    split <;> rfl
  exact .cons hsign
    (NumberPart.leads_markSign (digits_ne_nil _) fun _ => isDigit_of_mem_digits)

theorem unsigned_scientific (place : Int) : Unsigned (scientific (c :: cs) place) := by
  refine ⟨.exponent, ?_, rfl⟩
  rw [scientific, List.append_cons]
  exact (leads_leadingPoint hc hzero hcs).append (leads_signedDecimal place)

theorem unsigned_plain (place : Int) : Unsigned (plain (c :: cs) place) := by
  have hall : ∀ d ∈ c :: cs, d.isDigit = true := List.forall_mem_cons.mpr ⟨hc, hcs⟩
  have hzeros (n : Nat) : ∀ d ∈ List.replicate n '0', d.isDigit = true := fun d hd => by
    rw [List.eq_of_mem_replicate hd]
    rfl
  refine ⟨.fraction, ?_, rfl⟩
  rw [plain]
  split
  · have hne : List.replicate (-place - 1).toNat '0' ++ c :: cs ≠ [] := by simp
    have hfraction := NumberPart.leads_point hne (List.forall_mem_append.mpr ⟨hzeros _, hall⟩)
    rw [List.append_assoc]
    exact .cons rfl (.cons rfl hfraction)
  · have hwhole : ∀ d ∈ cs.take place.toNat ++
        List.replicate (place.toNat + 1 - (c :: cs).length) '0', d.isDigit = true :=
      List.forall_mem_append.mpr ⟨fun d hd => hcs d (List.mem_of_mem_take hd), hzeros _⟩
    refine .cons (NumberPart.next_sign hc hzero) ((NumberPart.leads_whole hwhole).append
      (.cons rfl (NumberPart.leads_point ?_ ?_)))
    · split
      · simp
      · rename_i hlong
        exact fun hnil => hlong (List.drop_eq_nil_iff.mp hnil)
    · split
      · exact List.forall_mem_singleton.mpr rfl
      · exact fun d hd => hall d (List.mem_of_mem_drop hd)

end decimal

variable {x : ScaledDecimal}

theorem unsigned_decimalLexeme (hx : x.coefficient ≠ 0) : Unsigned (decimalLexeme x) := by
  obtain ⟨c, cs, hcs, hzero⟩ := digits_of_ne_zero hx
  have hdigits : ∀ d ∈ c :: cs, d.isDigit = true := fun d hd => isDigit_of_mem_digits (hcs ▸ hd)
  obtain ⟨hc, hrest⟩ := List.forall_mem_cons.mp hdigits
  rw [decimalLexeme, hcs]
  split
  · exact unsigned_plain hc hzero hrest _
  · exact unsigned_scientific hc hzero hrest _

theorem coefficient_onGrid {i : RoundingInterval} {place : Int} (h : i.onGrid place = some x) :
    x.coefficient ≠ 0 := by
  simp only [RoundingInterval.onGrid] at h
  split at h
  · rename_i hbelow
    cases h
    simp only [Bool.and_eq_true, decide_eq_true_eq] at hbelow
    exact hbelow.1.2
  · split at h
    · cases h
      exact Nat.succ_ne_zero _
    · cases h

theorem div_zeros_ne_zero {n : Nat} (hn : n ≠ 0) :
    n / 10 ^ ((digits n).reverse.takeWhile (· = '0')).length ≠ 0 := by
  fun_induction digits n with
  | case1 n h => simpa [digitChar_ne_zero h hn] using hn
  | case2 n h ih =>
    rw [List.reverse_append, List.reverse_singleton, List.singleton_append, List.takeWhile_cons]
    split
    · rw [List.length_cons, Nat.pow_succ', ← Nat.div_div_eq_div_mul]
      exact ih (by omega)
    · simpa using hn

theorem coefficient_reduced (hx : x.coefficient ≠ 0) : x.reduced.coefficient ≠ 0 :=
  div_zeros_ne_zero hx

/-- Either a decimal number is found, or the one that stands for none. -/
theorem coefficient_shortestDecimal (m : Nat) (e : Int) :
    (shortestDecimal m e).coefficient ≠ 0 ∨ shortestDecimal m e = ScaledDecimal.reduced ⟨0, 0⟩ := by
  rw [shortestDecimal, RoundingInterval.shortest]
  cases hfound : (List.range 17).findSome? fun k : Nat =>
      (RoundingInterval.ofBinary m e).onGrid ((RoundingInterval.ofBinary m e).leadingPlace - k) with
  | none => exact .inr rfl
  | some x =>
    obtain ⟨k, -, hk⟩ := List.exists_of_findSome?_eq_some hfound
    exact .inl (coefficient_reduced (coefficient_onGrid hk))

theorem Numeral.signed (h : Unsigned cs) (negative : Bool) :
    Numeral ((if negative then ['-'] else []) ++ cs) := by
  cases negative with
  | false => exact .unsigned h
  | true => exact .negative h

theorem binary64?_none (negative : Bool) :
    Json.binary64? ((if negative then ['-'] else []) ++
      decimalLexeme (ScaledDecimal.reduced ⟨0, 0⟩)) =
        some (.finite negative 0 Binary64.minExponent) := by
  revert negative
  decide +kernel

theorem numeral_ofBinary64 {x : Binary64} (h : (ofBinary64 x).binary64? = some x) :
    ∃ lexeme, ofBinary64 x = .number lexeme ∧ Numeral lexeme := by
  cases x with
  | infinite negative => cases h
  | notANumber => cases h
  | finite negative m e =>
    cases m with
    | zero =>
      have hzero : Unsigned ['0', '.', '0'] := ⟨.fraction, rfl, rfl⟩
      exact ⟨_, rfl, .signed hzero negative⟩
    | succ m =>
      refine ⟨_, rfl, .signed ?_ negative⟩
      rcases coefficient_shortestDecimal (m + 1) e with hne | hnone
      · exact unsigned_decimalLexeme hne
      · change Json.binary64? (_ ++ decimalLexeme (shortestDecimal (m + 1) e)) = _ at h
        rw [hnone, binary64?_none] at h
        cases h

end StorageTrials.Json

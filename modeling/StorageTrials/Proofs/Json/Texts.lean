import StorageTrials.Json.Written
import StorageTrials.Proofs.Json.Numerals
import StorageTrials.Proofs.Json.Strings

namespace StorageTrials.Json

variable {c : Char} {cs ds rest : List Char} {t : Token} {ts us : List Token} {depth : Nat}

def Scanned.tokens? (s : Scanned) (cs : List Char) : Option (List Token) :=
  (cs.foldlM step s).bind finish

theorem Scanned.tokens?_cons (s : Scanned) (c : Char) (cs : List Char) :
    s.tokens? (c :: cs) = (s.step c).bind fun s => s.tokens? cs := by
  rw [tokens?, List.foldlM_cons]
  cases s.step c <;> rfl

theorem Scanned.tokens?_append {s s' : Scanned} (h : cs.foldlM step s = some s')
    (rest : List Char) : s.tokens? (cs ++ rest) = s'.tokens? rest := by
  rw [tokens?, List.foldlM_append, h]
  rfl

/-- A text before others that falls into the given tokens. -/
def Scans (cs : List Char) (ts : List Token) (rest : List Char) : Prop :=
  ∀ before, Scanned.tokens? ⟨before, .between⟩ (cs ++ rest) =
    Scanned.tokens? ⟨ts.reverse ++ before, .between⟩ rest

theorem Scans.append (h : Scans cs ts (ds ++ rest)) (h' : Scans ds us rest) :
    Scans (cs ++ ds) (ts ++ us) rest := by
  intro before
  rw [List.append_assoc, h before, h', List.reverse_append, List.append_assoc]

theorem scans_mark (h : ∀ ts, Scanned.begin ts c = some ⟨t :: ts, .between⟩) (rest : List Char) :
    Scans [c] [t] rest := by
  intro before
  rw [List.singleton_append, Scanned.tokens?_cons]
  exact congrArg (Option.bind · _) (h before)

theorem scans_blank (h : isSpace c = true) (rest : List Char) : Scans [c] [] rest := by
  intro before
  rw [List.singleton_append, Scanned.tokens?_cons]
  exact congrArg (Option.bind · _) (if_pos h)

theorem scans_newLine (depth : Nat) (rest : List Char) : Scans (newLine depth) [] rest := by
  have hblanks (n : Nat) : Scans (List.replicate n ' ') [] rest := by
    induction n with
    | zero => exact fun _ => rfl
    | succ n ih => exact (scans_blank (c := ' ') rfl _).append ih
  exact (scans_blank (c := '\n') rfl _).append (hblanks _)

theorem Scans.append_newLine (h : Scans cs ts (newLine depth ++ rest)) :
    Scans (cs ++ newLine depth) ts rest := by
  have hline := h.append (scans_newLine depth rest)
  rwa [List.append_nil] at hline

theorem scans_quote (h : Quotable cs) (rest : List Char) : Scans (quote cs) [.string cs] rest := by
  intro before
  rw [quote, List.append_assoc, List.cons_append, Scanned.tokens?_cons]
  change Scanned.tokens? ⟨before, .string []⟩ (cs ++ ('"' :: rest)) = _
  rw [Scanned.tokens?_append (h before []), Scanned.tokens?_cons]
  simp [Scanned.step]

/-- A number or a word ends here. -/
def Ends (rest : List Char) : Prop := ∀ c ∈ rest.head?, c = '\n' ∨ c = ','

theorem ends_nil : Ends [] := nofun

theorem ends_newLine (depth : Nat) (rest : List Char) : Ends (newLine depth ++ rest) :=
  fun _ hc => .inl (Option.some.inj hc).symm

theorem tokens?_of_ends {s : Scanned} (hfinish : s.finish = some (t :: ts).reverse)
    (hstep : ∀ c, c = '\n' ∨ c = ',' → s.step c = Scanned.begin (t :: ts) c) (h : Ends rest) :
    s.tokens? rest = Scanned.tokens? ⟨t :: ts, .between⟩ rest := by
  cases rest with
  | nil => exact hfinish
  | cons c rest =>
    rw [Scanned.tokens?_cons, Scanned.tokens?_cons, hstep c (h c rfl)]
    rfl

theorem foldlM_number {p q : NumberPart} (h : p.Leads cs q) (before : List Token)
    (lexeme : List Char) :
    cs.foldlM Scanned.step ⟨before, .number p lexeme⟩ =
      some ⟨before, .number q (cs.reverse ++ lexeme)⟩ := by
  induction cs generalizing p lexeme with
  | nil =>
    cases h
    rfl
  | cons c cs ih =>
    obtain ⟨p', hnext, hrest⟩ := Option.bind_eq_some_iff.mp h
    have hstep : Scanned.step ⟨before, .number p lexeme⟩ c =
        some ⟨before, .number p' (c :: lexeme)⟩ := by
      simp only [Scanned.step, hnext]
    rw [List.foldlM_cons, hstep, List.reverse_cons, List.append_assoc]
    exact ih hrest (c :: lexeme)

theorem next_eq_none (q : NumberPart) (hc : c = '\n' ∨ c = ',') : q.next c = none := by
  rcases hc with rfl | rfl <;> cases q <;> rfl

theorem tokens?_number {p q : NumberPart} (h : p.Leads cs q) (hq : q.isComplete = true)
    (hrest : Ends rest) (before : List Token) (lexeme : List Char) :
    Scanned.tokens? ⟨before, .number p lexeme⟩ (cs ++ rest) =
      Scanned.tokens? ⟨.number (lexeme.reverse ++ cs) :: before, .between⟩ rest := by
  rw [Scanned.tokens?_append (foldlM_number h before lexeme)]
  have hlexeme : (cs.reverse ++ lexeme).reverse = lexeme.reverse ++ cs := by
    rw [List.reverse_append, List.reverse_reverse]
  refine tokens?_of_ends ?_ (fun c hc => ?_) hrest
  · simp only [Scanned.finish, hq, hlexeme, if_true]
  · simp only [Scanned.step, next_eq_none q hc, hq, hlexeme, if_true]

theorem begin_digit (h : c.isDigit = true) (before : List Token) :
    Scanned.begin before c = some ⟨before, .number (if c = '0' then .zero else .whole) [c]⟩ := by
  have hne (d : Char) (hd : d.isDigit = false) : c ≠ d := fun he => by
    rw [he, hd] at h
    cases h
  simp [Scanned.begin, isSpace, h, hne ' ' rfl, hne '\t' rfl, hne '\n' rfl, hne '\r' rfl,
    hne '"' rfl, hne '-' rfl]

theorem begin_number {p : NumberPart} (h : NumberPart.sign.next c = some p)
    (before : List Token) : Scanned.begin before c = some ⟨before, .number p [c]⟩ := by
  rw [NumberPart.next] at h
  split at h
  · rename_i hzero
    cases h
    rw [begin_digit (by rw [hzero]; rfl), if_pos hzero]
  · rename_i hzero
    split at h
    · rename_i hdigit
      cases h
      rw [begin_digit hdigit, if_neg hzero]
    · cases h

theorem scans_number (h : Numeral cs) (hrest : Ends rest) : Scans cs [.number cs] rest := by
  intro before
  cases h with
  | unsigned h =>
    obtain ⟨q, hleads, hq⟩ := h
    cases cs with
    | nil =>
      cases hleads
      cases hq
    | cons c cs =>
      obtain ⟨p, hnext, hleads⟩ := Option.bind_eq_some_iff.mp hleads
      rw [List.cons_append, Scanned.tokens?_cons]
      exact (congrArg (Option.bind · _) (begin_number hnext before)).trans
        (tokens?_number hleads hq hrest before [c])
  | @negative cs h =>
    obtain ⟨q, hleads, hq⟩ := h
    exact tokens?_number hleads hq hrest before ['-']

theorem tokens?_word (lexeme : List Char) (h : word? lexeme.reverse = some t) (hrest : Ends rest)
    (before : List Token) : Scanned.tokens? ⟨before, .word lexeme⟩ rest =
      Scanned.tokens? ⟨t :: before, .between⟩ rest := by
  refine tokens?_of_ends ?_ (fun c hc => ?_) hrest
  · simp only [Scanned.finish, h, Option.map_some]
  · have hlower : c.isLower = false := by rcases hc with rfl | rfl <;> rfl
    simp [Scanned.step, hlower, h]

theorem scans_null (hrest : Ends rest) : Scans ['n', 'u', 'l', 'l'] [.null] rest :=
  tokens?_word ['l', 'l', 'u', 'n'] rfl hrest

theorem scans_true (hrest : Ends rest) : Scans ['t', 'r', 'u', 'e'] [.boolean true] rest :=
  tokens?_word ['e', 'u', 'r', 't'] rfl hrest

theorem scans_false (hrest : Ends rest) : Scans ['f', 'a', 'l', 's', 'e'] [.boolean false] rest :=
  tokens?_word ['e', 's', 'l', 'a', 'f'] rfl hrest

mutual

def Value.tokens : Value → List Token
  | .null => [.null]
  | .boolean b => [.boolean b]
  | .number lexeme => [.number lexeme]
  | .string lexeme => [.string lexeme]
  | .array [] => [.openArray, .closeArray]
  | .array (v :: vs) => .openArray :: v.tokens ++ itemTokens vs ++ [.closeArray]
  | .object [] => [.openObject, .closeObject]
  | .object ((k, v) :: ms) =>
    .openObject :: .string k :: .colon :: v.tokens ++ memberTokens ms ++ [.closeObject]

def itemTokens : List Value → List Token
  | [] => []
  | v :: vs => .comma :: v.tokens ++ itemTokens vs

def memberTokens : List (List Char × Value) → List Token
  | [] => []
  | (k, v) :: ms => .comma :: .string k :: .colon :: v.tokens ++ memberTokens ms

end

/-- All numbers and strings in a value are lexical elements. -/
inductive Value.Legible : Value → Prop
  | null : Legible .null
  | boolean (b : Bool) : Legible (.boolean b)
  | number {lexeme : List Char} (h : Numeral lexeme) : Legible (.number lexeme)
  | string {lexeme : List Char} (h : Quotable lexeme) : Legible (.string lexeme)
  | array {items : List Value} (h : ∀ v ∈ items, Legible v) : Legible (.array items)
  | object {members : List (List Char × Value)} (hkeys : ∀ m ∈ members, Quotable m.1)
      (h : ∀ m ∈ members, Legible m.2) : Legible (.object members)

def Falls (v : Value) : Prop := ∀ depth rest, Ends rest → Scans (v.written depth) v.tokens rest

theorem ends_items (vs : List Value) (depth : Nat) (h : Ends rest) :
    Ends (writtenItems depth vs ++ rest) := by
  cases vs with
  | nil => exact h
  | cons v vs => exact fun _ hc => .inr (Option.some.inj hc).symm

theorem ends_members (ms : List (List Char × Value)) (depth : Nat) (h : Ends rest) :
    Ends (writtenMembers depth ms ++ rest) := by
  cases ms with
  | nil => exact h
  | cons m ms => exact fun _ hc => .inr (Option.some.inj hc).symm

theorem scans_mark_newLine (h : ∀ ts, Scanned.begin ts c = some ⟨t :: ts, .between⟩) (depth : Nat)
    (rest : List Char) : Scans (c :: newLine depth) [t] rest :=
  (scans_mark h _).append_newLine

theorem scans_items {vs : List Value} (h : ∀ v ∈ vs, Falls v) (depth : Nat) (hrest : Ends rest) :
    Scans (writtenItems depth vs) (itemTokens vs) rest := by
  induction vs with
  | nil => exact fun _ => rfl
  | cons v vs ih =>
    obtain ⟨hv, hvs⟩ := List.forall_mem_cons.mp h
    rw [writtenItems, itemTokens]
    exact ((scans_mark_newLine (fun _ => rfl) depth _).append
      (hv depth _ (ends_items vs depth hrest))).append (ih hvs)

theorem scans_key (h : Quotable cs) (rest : List Char) :
    Scans (quote cs ++ [':', ' ']) [.string cs, .colon] rest :=
  (scans_quote h _).append ((scans_mark (c := ':') (fun _ => rfl) _).append
    (scans_blank (c := ' ') rfl rest))

theorem scans_members {ms : List (List Char × Value)} (hkeys : ∀ m ∈ ms, Quotable m.1)
    (h : ∀ m ∈ ms, Falls m.2) (depth : Nat) (hrest : Ends rest) :
    Scans (writtenMembers depth ms) (memberTokens ms) rest := by
  induction ms with
  | nil => exact fun _ => rfl
  | cons m ms ih =>
    obtain ⟨hk, hks⟩ := List.forall_mem_cons.mp hkeys
    obtain ⟨hv, hvs⟩ := List.forall_mem_cons.mp h
    rw [writtenMembers, memberTokens, List.append_assoc (',' :: newLine depth)]
    exact (((scans_mark_newLine (fun _ => rfl) depth _).append (scans_key hk _)).append
      (hv depth _ (ends_members ms depth hrest))).append (ih hks hvs)

theorem falls_of_legible {v : Value} (h : v.Legible) : Falls v := by
  induction h with
  | null => exact fun _ _ => scans_null
  | boolean b =>
    cases b with
    | true => exact fun _ _ => scans_true
    | false => exact fun _ _ => scans_false
  | number h => exact fun _ _ => scans_number h
  | string h => exact fun _ _ _ => scans_quote h _
  | @array items h ih =>
    intro depth rest hrest
    cases items with
    | nil => exact (scans_mark (c := '[') (fun _ => rfl) _).append (scans_mark (fun _ => rfl) _)
    | cons v vs =>
      obtain ⟨hv, hvs⟩ := List.forall_mem_cons.mp ih
      rw [Value.written, Value.tokens]
      exact (((scans_mark_newLine (fun _ => rfl) (depth + 1) _).append
        (hv (depth + 1) _ (ends_items vs _ (ends_newLine depth _)))).append
        (scans_items hvs (depth + 1) (ends_newLine depth _))).append_newLine.append
        (scans_mark (fun _ => rfl) _)
  | @object members hkeys h ih =>
    intro depth rest hrest
    cases members with
    | nil => exact (scans_mark (c := '\x7b') (fun _ => rfl) _).append (scans_mark (fun _ => rfl) _)
    | cons m ms =>
      obtain ⟨hk, hks⟩ := List.forall_mem_cons.mp hkeys
      obtain ⟨hv, hvs⟩ := List.forall_mem_cons.mp ih
      rw [Value.written, Value.tokens, List.append_assoc ('\x7b' :: newLine (depth + 1))]
      exact ((((scans_mark_newLine (fun _ => rfl) (depth + 1) _).append (scans_key hk _)).append
        (hv (depth + 1) _ (ends_members ms _ (ends_newLine depth _)))).append
        (scans_members hks hvs (depth + 1) (ends_newLine depth _))).append_newLine.append
        (scans_mark (fun _ => rfl) _)

theorem scan?_written {v : Value} (h : v.Legible) : scan? (v.written 0) = some v.tokens := by
  have hscan := falls_of_legible h 0 [] ends_nil []
  rw [List.append_nil, List.append_nil] at hscan
  refine hscan.trans ?_
  exact congrArg some (List.reverse_reverse _)

/-- The tokens of a value build it up, wherever it stands. -/
def Builds (v : Value) : Prop :=
  ∀ stack, v.tokens.foldlM Build.step (.value stack) = some (.put v stack)

theorem foldlM_first (v : Value) (ts : List Token) (stack : List Frame) :
    (v.tokens ++ ts).foldlM Build.step (.itemOrEnd stack) =
      (v.tokens ++ ts).foldlM Build.step (.value (.array [] :: stack)) := by
  cases v with
  | array items => cases items <;> rfl
  | object members => cases members <;> rfl
  | _ => rfl

theorem Builds.append {v : Value} (h : Builds v) (ts : List Token) (stack : List Frame) :
    (v.tokens ++ ts).foldlM Build.step (.value stack) = ts.foldlM Build.step (.put v stack) := by
  rw [List.foldlM_append, h stack]
  rfl

theorem foldlM_items {vs : List Value} (h : ∀ v ∈ vs, Builds v) (before : List Value)
    (ts : List Token) (stack : List Frame) :
    (itemTokens vs ++ ts).foldlM Build.step (.rest (.array before) stack) =
      ts.foldlM Build.step (.rest (.array (vs.reverse ++ before)) stack) := by
  induction vs generalizing before with
  | nil => rfl
  | cons v vs ih =>
    obtain ⟨hv, hvs⟩ := List.forall_mem_cons.mp h
    rw [itemTokens, List.append_assoc, List.reverse_cons, List.append_assoc]
    exact (hv.append _ _).trans (ih hvs (v :: before))

theorem foldlM_members {ms : List (List Char × Value)} (h : ∀ m ∈ ms, Builds m.2)
    (before : List (List Char × Value)) (ts : List Token) (stack : List Frame) :
    (memberTokens ms ++ ts).foldlM Build.step (.rest (.object before []) stack) =
      ts.foldlM Build.step (.rest (.object (ms.reverse ++ before) []) stack) := by
  induction ms generalizing before with
  | nil => rfl
  | cons m ms ih =>
    obtain ⟨hv, hvs⟩ := List.forall_mem_cons.mp h
    rw [memberTokens, List.append_assoc, List.reverse_cons, List.append_assoc]
    exact (hv.append _ _).trans (ih hvs (m :: before))

theorem builds_of_legible {v : Value} (h : v.Legible) : Builds v := by
  induction h with
  | null | boolean | number | string => exact fun _ => rfl
  | @array items h ih =>
    intro stack
    cases items with
    | nil => rfl
    | cons v vs =>
      obtain ⟨hv, hvs⟩ := List.forall_mem_cons.mp ih
      rw [Value.tokens, List.append_assoc]
      refine (foldlM_first v _ stack).trans ((hv.append _ _).trans ?_)
      refine (foldlM_items hvs [v] _ stack).trans ?_
      have hitems : (vs.reverse ++ [v]).reverse = v :: vs := by simp
      exact congrArg (fun items => some (Build.put (.array items) stack)) hitems
  | @object members hkeys h ih =>
    intro stack
    cases members with
    | nil => rfl
    | cons m ms =>
      obtain ⟨hv, hvs⟩ := List.forall_mem_cons.mp ih
      rw [Value.tokens, List.append_assoc]
      refine (hv.append _ (.object [] m.1 :: stack)).trans ?_
      refine (foldlM_members hvs [m] _ stack).trans ?_
      have hmembers : (ms.reverse ++ [m]).reverse = m :: ms := by simp
      exact congrArg (fun members => some (Build.put (.object members) stack)) hmembers

/-- The text of a value is read as that value. -/
theorem read?_text {v : Value} (h : v.Legible) : Value.read? v.text = some v := by
  rw [Value.read?, Value.text, String.toList_ofList, scan?_written h, Option.bind_some,
    Value.ofTokens?, builds_of_legible h []]
  rfl

end StorageTrials.Json

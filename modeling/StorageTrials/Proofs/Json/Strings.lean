import StorageTrials.Json.Token

namespace StorageTrials.Json

open StorageTrials.Text

variable {c x : Char} {cs ds : List Char}

theorem decode?_plain (h : c ≠ '\\') (rest : List Char) :
    decode? (c :: rest) = (decode? rest).map (c :: ·) := by
  rw [decode?] <;> simp [h]

theorem decode?_escape (hx : escaped? x = some c) (hu : x ≠ 'u') (rest : List Char) :
    decode? ('\\' :: x :: rest) = (decode? rest).map (c :: ·) := by
  rw [decode?, hx]
  · rfl
  · simp [hu]
  · simp [hu]

/-- A number that is no half of a pair stands for its character, whatever comes next. -/
theorem decode?_code {p q r s : Char} (hlead : isLeadingSurrogate (hexNumber [p, q, r, s]) = false)
    (htrail : isTrailingSurrogate (hexNumber [p, q, r, s]) = false) (rest : List Char) :
    decode? ('\\' :: 'u' :: p :: q :: r :: s :: rest) =
      (decode? rest).map (Char.ofNat (hexNumber [p, q, r, s]) :: ·) := by
  by_cases hnext : ∃ e f g h rest', rest = '\\' :: 'u' :: e :: f :: g :: h :: rest'
  · obtain ⟨e, f, g, h, rest', rfl⟩ := hnext
    rw [decode?]
    simp only [hlead, htrail, Bool.false_eq_true, if_false]
  · rw [decode?]
    · simp only [hlead, htrail, Bool.or_self, Bool.false_eq_true, if_false]
    · exact fun e f g h rest' he => hnext ⟨e, f, g, h, rest', he⟩

theorem encodeChar_cases (c : Char) :
    (∃ x, escaped? x = some c ∧ x ≠ 'u' ∧ encodeChar c = ['\\', x]) ∨
    (c.toNat < 0x20 ∧ encodeChar c = controlEscape c) ∨
    (0x20 ≤ c.toNat ∧ c ≠ '"' ∧ c ≠ '\\' ∧ encodeChar c = [c]) := by
  unfold encodeChar
  split
  case h_8 =>
    split
    · rename_i h
      exact .inr (.inl ⟨h, rfl⟩)
    · rename_i h
      exact .inr (.inr ⟨Nat.not_lt.mp h, by assumption, by assumption, rfl⟩)
  all_goals exact .inl ⟨_, rfl, by decide, rfl⟩

theorem controlEscape_eq (h : c.toNat < 0x20) :
    ∃ a b, controlEscape c = ['\\', 'u', '0', '0', a, b] ∧
      hexNumber ['0', '0', a, b] = c.toNat ∧ isHexDigit a = true ∧ isHexDigit b = true := by
  have hall : ∀ n < 0x20,
      hexNumber ['0', '0', Nat.digitChar (n / 16), Nat.digitChar (n % 16)] = n ∧
        isHexDigit (Nat.digitChar (n / 16)) = true ∧
        isHexDigit (Nat.digitChar (n % 16)) = true := by
    decide
  exact ⟨_, _, rfl, hall c.toNat h⟩

theorem decode?_encodeChar (c : Char) (rest : List Char) :
    decode? (encodeChar c ++ rest) = (decode? rest).map (c :: ·) := by
  rcases encodeChar_cases c with ⟨x, hx, hu, hc⟩ | ⟨h, hc⟩ | ⟨h, hquote, hslash, hc⟩ <;> rw [hc]
  · exact decode?_escape hx hu rest
  · obtain ⟨a, b, hab, hn, -, -⟩ := controlEscape_eq h
    have hcode := decode?_code (p := '0') (q := '0') (r := a) (s := b)
      (by simp [hn, isLeadingSurrogate]; omega) (by simp [hn, isTrailingSurrogate]; omega) rest
    rw [hn, Char.ofNat_toNat] at hcode
    rwa [hab]
  · exact decode?_plain hslash rest

theorem decode?_encode (cs : List Char) : decode? (encode cs) = some cs := by
  induction cs with
  | nil => rfl
  | cons c cs ih =>
    rw [encode, List.flatMap_cons, decode?_encodeChar, ← encode, ih, Option.map_some]

/-- Within a string, the characters are taken as they are. -/
def Quotable (cs : List Char) : Prop :=
  ∀ ts lexeme, cs.foldlM Scanned.step ⟨ts, .string lexeme⟩ =
    some ⟨ts, .string (cs.reverse ++ lexeme)⟩

theorem Quotable.nil : Quotable [] := fun _ _ => rfl

theorem Quotable.append (h : Quotable cs) (h' : Quotable ds) : Quotable (cs ++ ds) := by
  intro ts lexeme
  rw [List.foldlM_append, h ts lexeme, Option.bind_eq_bind, Option.bind_some, h',
    List.reverse_append, List.append_assoc]

theorem quotable_plain (h : 0x20 ≤ c.toNat) (hquote : c ≠ '"') (hslash : c ≠ '\\') :
    Quotable [c] := by
  intro ts lexeme
  simp [Scanned.step, hquote, hslash, Nat.not_lt.mpr h]

theorem step_code (hx : isHexDigit x = true) (ts : List Token) (left : Nat) (lexeme : List Char) :
    Scanned.step ⟨ts, .code left lexeme⟩ x =
      some ⟨ts, if left = 1 then .string (x :: lexeme) else .code (left - 1) (x :: lexeme)⟩ :=
  if_pos hx

theorem quotable_code {p q r s : Char} (hp : isHexDigit p = true) (hq : isHexDigit q = true)
    (hr : isHexDigit r = true) (hs : isHexDigit s = true) : Quotable ['\\', 'u', p, q, r, s] := by
  intro ts lexeme
  change [p, q, r, s].foldlM Scanned.step ⟨ts, .code 4 ('u' :: '\\' :: lexeme)⟩ = _
  simp [step_code, hp, hq, hr, hs]

theorem quotable_encodeChar (c : Char) : Quotable (encodeChar c) := by
  rcases encodeChar_cases c with ⟨x, hx, hu, hc⟩ | ⟨h, hc⟩ | ⟨h, hquote, hslash, hc⟩ <;> rw [hc]
  · intro ts lexeme
    simp [Scanned.step, hx, hu]
  · obtain ⟨a, b, hab, -, ha, hb⟩ := controlEscape_eq h
    rw [hab]
    exact quotable_code rfl rfl ha hb
  · exact quotable_plain h hquote hslash

theorem quotable_encode (cs : List Char) : Quotable (encode cs) := by
  induction cs with
  | nil => exact .nil
  | cons c cs ih => exact (quotable_encodeChar c).append ih

end StorageTrials.Json

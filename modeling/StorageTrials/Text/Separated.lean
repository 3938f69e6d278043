namespace StorageTrials.Text

variable {sep : Char}

/-- The pieces of a text between separators. There is always at least one. -/
def pieces (sep : Char) (cs : List Char) : List (List Char) :=
  match cs with
  | [] => [[]]
  | c :: cs =>
    if c = sep then [] :: pieces sep cs
    else
      match pieces sep cs with
      | p :: ps => (c :: p) :: ps
      | [] => [[c]]

theorem pieces_ne_nil (cs : List Char) : pieces sep cs ≠ [] := by
  cases cs with
  | nil => simp [pieces]
  | cons c cs => simp only [pieces]; split <;> (try split) <;> simp

theorem pieces_of_not_mem {cs : List Char} (h : sep ∉ cs) : pieces sep cs = [cs] := by
  induction cs with
  | nil => rfl
  | cons c cs ih =>
    simp only [List.mem_cons, not_or] at h
    simp [pieces, ih h.2, Ne.symm h.1]

theorem pieces_append {cs : List Char} (h : sep ∉ cs) (ds : List Char) :
    pieces sep (cs ++ sep :: ds) = cs :: pieces sep ds := by
  induction cs with
  | nil => simp [pieces]
  | cons c cs ih =>
    simp only [List.mem_cons, not_or] at h
    simp [pieces, ih h.2, Ne.symm h.1]

theorem pieces_intercalate {ps : List (List Char)} (hne : ps ≠ []) (h : ∀ p ∈ ps, sep ∉ p) :
    pieces sep ([sep].intercalate ps) = ps := by
  induction ps with
  | nil => exact absurd rfl hne
  | cons p ps ih =>
    obtain ⟨hp, hps⟩ := List.forall_mem_cons.mp h
    cases ps with
    | nil => rw [List.intercalate_singleton, pieces_of_not_mem hp]
    | cons q qs =>
      rw [List.intercalate_cons_cons, List.append_assoc, List.singleton_append, pieces_append hp,
        ih (List.cons_ne_nil q qs) hps]

theorem pieces_flatMap {ps : List (List Char)} (h : ∀ p ∈ ps, sep ∉ p) :
    pieces sep (ps.flatMap (· ++ [sep])) = ps ++ [[]] := by
  induction ps with
  | nil => rfl
  | cons p ps ih =>
    obtain ⟨hp, hps⟩ := List.forall_mem_cons.mp h
    rw [List.flatMap_cons, List.append_assoc, List.singleton_append, pieces_append hp, ih hps,
      List.cons_append]

theorem not_mem_of_mem_pieces {cs p : List Char} (h : p ∈ pieces sep cs) : sep ∉ p := by
  induction cs generalizing p with
  | nil => simp_all [pieces]
  | cons c cs ih =>
    by_cases hc : c = sep
    · rw [pieces, if_pos hc, List.mem_cons] at h
      rcases h with rfl | h
      · simp
      · exact ih h
    · rw [pieces, if_neg hc] at h
      cases hp : pieces sep cs with
      | nil => exact absurd hp (pieces_ne_nil cs)
      | cons q qs =>
        rw [hp, List.mem_cons] at h
        rcases h with rfl | h
        · simpa [Ne.symm hc] using ih (hp ▸ List.mem_cons_self)
        · exact ih (hp ▸ List.mem_cons_of_mem _ h)

end StorageTrials.Text

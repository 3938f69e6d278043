namespace StorageTrials.Text

variable {before after cs : List Char} {s : String} {c : Char}

/-- Whether a character has the Unicode property `White_Space`. -/
def isBlank (c : Char) : Bool :=
  let n := c.toNat
  (0x9 ≤ n && n ≤ 0xd) || n = 0x20 || n = 0x85 || n = 0xa0 || n = 0x1680 ||
    (0x2000 ≤ n && n ≤ 0x200a) || n = 0x2028 || n = 0x2029 || n = 0x202f || n = 0x205f ||
    n = 0x3000

def trimStart (cs : List Char) : List Char := cs.dropWhile isBlank

def trimEnd (cs : List Char) : List Char := (cs.reverse.dropWhile isBlank).reverse

def trim (s : String) : String := String.ofList (trimEnd (trimStart s.toList))

theorem trimStart_append (h : ∀ c ∈ before, isBlank c = true) :
    trimStart (before ++ cs) = trimStart cs :=
  List.dropWhile_append_of_pos h

theorem trimStart_eq_self (h : ∀ c ∈ cs.head?, isBlank c = false) : trimStart cs = cs := by
  cases cs with
  | nil => rfl
  | cons c cs => exact List.dropWhile_cons_of_neg (Bool.eq_false_iff.mp (h c rfl))

theorem trimEnd_eq (cs : List Char) : trimEnd cs = (trimStart cs.reverse).reverse := rfl

theorem isBlank_head?_trimStart (h : c ∈ (trimStart cs).head?) : isBlank c = false := by
  have := List.head?_dropWhile_not isBlank cs
  rw [trimStart, Option.mem_def] at h
  rwa [h] at this

theorem isPrefix_trimEnd (cs : List Char) : trimEnd cs <+: cs := by
  have := List.reverse_prefix.mpr (List.dropWhile_suffix isBlank (l := cs.reverse))
  rwa [List.reverse_reverse] at this

theorem isBlank_head?_trim (h : c ∈ (trim s).toList.head?) : isBlank c = false := by
  rw [trim, String.toList_ofList] at h
  obtain ⟨t, ht⟩ := isPrefix_trimEnd (trimStart s.toList)
  have hstart : c ∈ (trimStart s.toList).head? := by
    rw [← ht, List.head?_append, Option.mem_def.mp h]
    rfl
  exact isBlank_head?_trimStart hstart

theorem isBlank_getLast?_trim (h : c ∈ (trim s).toList.getLast?) : isBlank c = false := by
  rw [trim, String.toList_ofList, trimEnd_eq, List.getLast?_reverse] at h
  exact isBlank_head?_trimStart h

theorem mem_of_mem_trim (h : c ∈ (trim s).toList) : c ∈ s.toList := by
  rw [trim, String.toList_ofList] at h
  exact (List.dropWhile_suffix _).mem ((isPrefix_trimEnd _).mem h)

theorem trim_padded (hbefore : ∀ c ∈ before, isBlank c = true)
    (hafter : ∀ c ∈ after, isBlank c = true) (hhead : ∀ c ∈ s.toList.head?, isBlank c = false)
    (hlast : ∀ c ∈ s.toList.getLast?, isBlank c = false) :
    trim (String.ofList (before ++ s.toList ++ after)) = s := by
  have hend : trimEnd (s.toList ++ after) = s.toList := by
    rw [trimEnd_eq, List.reverse_append, trimStart_append (by simpa using hafter),
      trimStart_eq_self (by simpa using hlast), List.reverse_reverse]
  rw [trim, String.toList_ofList, List.append_assoc, trimStart_append hbefore]
  cases hs : s.toList with
  | nil =>
    rw [List.nil_append, ← List.append_nil after, trimStart_append hafter]
    exact (String.toList_eq_nil_iff.mp hs).symm
  | cons c cs =>
    rw [hs] at hhead hend
    rw [trimStart_eq_self (by simpa using hhead), hend, ← hs, String.ofList_toList]

theorem trim_eq_empty (h : ∀ c ∈ s.toList, isBlank c = true) : trim s = "" := by
  have : trim (String.ofList (s.toList ++ "".toList ++ [])) = "" :=
    trim_padded h (by simp) (by simp) (by simp)
  simpa using this

end StorageTrials.Text

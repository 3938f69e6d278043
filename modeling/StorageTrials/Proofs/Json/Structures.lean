import Mathlib.Data.List.Nodup
import StorageTrials.Json.Names
import StorageTrials.Proofs.Json.Texts
import StorageTrials.Proofs.Optional

namespace StorageTrials.Json.Value

open StorageTrials.Number StorageTrials.Text

variable {v : Value} {members : List (String × Value)}

@[simp]
theorem text?_ofText (s : String) : (ofText s).text? = some s := by
  rw [ofText, text?, decode?_encode, Option.map_some, String.ofList_toList]

@[simp]
theorem name?_ofText (s : String) : (ofText s).name? = some s := text?_ofText s

theorem legible_ofText (s : String) : (ofText s).Legible := .string (quotable_encode _)

theorem quotable_of_isDigit {cs : List Char} (h : ∀ c ∈ cs, c.isDigit = true) : Quotable cs := by
  induction cs with
  | nil => exact .nil
  | cons c cs ih =>
    obtain ⟨hc, hcs⟩ := List.forall_mem_cons.mp h
    have hlow : 0x20 ≤ c.toNat := Nat.le_trans (by decide) (Char.isDigit_iff_toNat.mp hc).1
    have hquote : c ≠ '"' := fun he => by simp [he] at hc
    have hslash : c ≠ '\\' := fun he => by simp [he] at hc
    exact (quotable_plain hlow hquote hslash).append (ih hcs)

theorem nat?_ofNat {n bits : Nat} (h : n < 2 ^ bits) : (ofNat n).nat? bits = some n := by
  rw [ofNat, nat?, natural?, readDigits?_digits, Option.filter_some, if_pos (decide_eq_true h)]

theorem legible_ofNat (n : Nat) : (ofNat n).Legible := .number (numeral_digits n)

@[simp]
theorem duration?_ofDuration (d : Duration) :
    (ofDuration d).duration? = some (.ofLow64 d.nanos) := by
  have hbound : d.nanos < 2 ^ 128 := Nat.lt_of_lt_of_le d.bounded (by decide)
  rw [ofDuration, duration?, nat?_ofNat hbound, Option.map_some]

theorem legible_ofDuration (d : Duration) : (ofDuration d).Legible := legible_ofNat _

theorem nanos_of_duration? {d : Duration} (h : v.duration? = some d) : d.nanos < 2 ^ 64 := by
  obtain ⟨n, -, rfl⟩ := Option.map_eq_some_iff.mp h
  exact Nat.mod_lt n (by decide)

theorem legible_of_binary64? {x : Binary64} (h : (ofBinary64 x).binary64? = some x) :
    (ofBinary64 x).Legible := by
  obtain ⟨lexeme, hx, hlexeme⟩ := numeral_ofBinary64 h
  rw [hx]
  exact .number hlexeme

theorem legible_ofMembers (h : ∀ m ∈ members, m.2.Legible) : (ofMembers members).Legible := by
  refine .object (List.forall_mem_map.mpr fun m _ => quotable_encode _)
    (List.forall_mem_map.mpr fun m hm => h m hm)

theorem filter_of_mem {m : String × Value} (hnames : (members.map (·.1)).Nodup)
    (hm : m ∈ members) : members.filter (·.1 = m.1) = [m] := by
  induction members with
  | nil => cases hm
  | cons m' members ih =>
    obtain ⟨hnew, hnames⟩ := List.nodup_cons.mp hnames
    rcases List.mem_cons.mp hm with rfl | hm
    · rw [List.filter_cons_of_pos (by simp), List.filter_eq_nil_iff.mpr]
      intro m' hm' he
      exact hnew (List.mem_map.mpr ⟨m', hm', of_decide_eq_true he⟩)
    · have hne : m'.1 ≠ m.1 := fun he => hnew (List.mem_map.mpr ⟨m, hm, he.symm⟩)
      rw [List.filter_cons_of_neg (by simpa using hne), ih hnames hm]

theorem member?_of_mem {m : String × Value} (hnames : (members.map (·.1)).Nodup)
    (hm : m ∈ members) : member? members m.1 = some m.2 := by
  rw [member?, filter_of_mem hnames hm]

/-- A structure is read member by member, as no two have the same name. -/
theorem structure?_ofMembers (hnames : (members.map (·.1)).Nodup) :
    (ofMembers members).structure? (members.map (·.1)) = some (members.map (·.2)) := by
  have hkeys : (members.map fun m => (encode m.1.toList, m.2)).mapM
      (fun m => (decode? m.1).map fun k => (String.ofList k, m.2)) = some members := by
    rw [List.mapM_map]
    refine (mapM_eq_some (g := id) fun m _ => ?_).trans (congrArg some (List.map_id members))
    simp only [Function.comp_apply, decode?_encode, Option.map_some, String.ofList_toList, id_eq]
  rw [ofMembers, structure?]
  refine (congrArg (Option.bind · _) hkeys).trans ?_
  rw [Option.bind_some, List.mapM_map]
  exact mapM_eq_some fun m hm => member?_of_mem hnames hm

end StorageTrials.Json.Value

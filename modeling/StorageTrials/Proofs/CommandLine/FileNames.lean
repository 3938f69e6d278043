import Mathlib.Data.List.Forall2
import StorageTrials.Proofs.CommandLine.Precedence
import StorageTrials.SourceFile
import StorageTrials.Text.Separated

namespace StorageTrials

open StorageTrials.Text

variable {env : Environment} {d d' e : Draft} {fs : List String} {p : Parameter} {t name : String}
  {i j : Item} {items items' : List Item} {ws : List String} {c : CommandLine}

/-- A name that can be listed: there is something to it, no comma, and no blank at either end. -/
structure Expressible (name : String) : Prop where
  ne_empty : name ≠ ""
  not_mem_comma : ',' ∉ name.toList
  head : ∀ c ∈ name.toList.head?, isBlank c = false
  last : ∀ c ∈ name.toList.getLast?, isBlank c = false

theorem Expressible.of_trim (hne : name ≠ "") (hcomma : ',' ∉ name.toList) (h : trim name = name) :
    Expressible name :=
  ⟨hne, hcomma, fun _ hc => isBlank_head?_trim (h.symm ▸ hc),
    fun _ hc => isBlank_getLast?_trim (h.symm ▸ hc)⟩

/-- What stands between two commas: a name with blanks around it, or blanks only. -/
structure ListItem where
  before : List Char
  name : String
  after : List Char
  blank_before : ∀ c ∈ before, isBlank c = true
  blank_after : ∀ c ∈ after, isBlank c = true
  expressible : name = "" ∨ Expressible name

def ListItem.text (x : ListItem) : String := String.ofList (x.before ++ x.name.toList ++ x.after)

/-- A part of a command line on which the files stand behind equals signs. -/
inductive LinePart
  | word (w : String) (h : ∀ next, CommandLine.valueAt .files w next = none)
  | list (xs : List ListItem)

namespace LinePart

def text : LinePart → String
  | word w _ => w
  | list xs => Parameter.files.assignment (",".intercalate (xs.map ListItem.text))

def bare : LinePart → String
  | word w _ => w
  | list _ => Parameter.files.assignment ""

def names : LinePart → List String
  | word _ _ => []
  | list xs => (xs.map ListItem.name).filter (· ≠ "")

end LinePart

/-- Two items that are the same or both have files. -/
inductive Item.Alike : Item → Item → Prop
  | same (i : Item) : Alike i i
  | files (t u : String) : Alike (.choice .files (some t)) (.choice .files (some u))

theorem Item.Alike.refl_all (items : List Item) : List.Forall₂ Item.Alike items items :=
  List.forall₂_same.mpr fun i _ => .same i

theorem LinePart.text_eq {x : LinePart} {w : String} (hx : x.bare = w)
    (hw : Word.ofString w ≠ .long Parameter.files.name (some "")) : x.text = w := by
  cases x with
  | word => exact hx
  | list => exact absurd (hx ▸ Word.ofString_assignment .files "") hw

theorem written_text {parts : List LinePart} (h : Item.Written items (parts.map LinePart.bare)) :
    ∃ items', Item.Written items' (parts.map LinePart.text) ∧
      List.Forall₂ Item.Alike items items' := by
  generalize hws : parts.map LinePart.bare = ws at h
  induction h generalizing parts with
  | nil =>
    obtain rfl := List.map_eq_nil_iff.mp hws
    exact ⟨[], .nil, .nil⟩
  | terminator =>
    obtain ⟨x, rest, rfl, hx, hrest⟩ := List.map_eq_cons_iff.mp hws
    obtain rfl := List.map_eq_nil_iff.mp hrest
    rw [List.map_singleton, x.text_eq hx (by decide)]
    exact ⟨[], .terminator, .nil⟩
  | apart q ht _ ih =>
    obtain ⟨x, rest, rfl, hx, hrest⟩ := List.map_eq_cons_iff.mp hws
    obtain ⟨y, rest, rfl, hy, hrest⟩ := List.map_eq_cons_iff.mp hrest
    obtain ⟨items', hitems', halike⟩ := ih hrest
    rw [List.map_cons, List.map_cons, x.text_eq hx (by simp [Word.ofString_flag]),
      y.text_eq hy (by simp [ht])]
    exact ⟨_, .apart q ht hitems', .cons (.same _) halike⟩
  | assigned q t _ ih =>
    obtain ⟨x, rest, rfl, hx, hrest⟩ := List.map_eq_cons_iff.mp hws
    obtain ⟨items', hitems', halike⟩ := ih hrest
    rw [List.map_cons]
    cases x with
    | word w _ =>
      obtain rfl : w = q.assignment t := hx
      exact ⟨_, .assigned q t hitems', .cons (.same _) halike⟩
    | list xs =>
      obtain ⟨rfl, -⟩ := CommandLine.assignment_inj hx
      exact ⟨_, .assigned .files _ hitems', .cons (.files t _) halike⟩
  | verbose _ ih =>
    obtain ⟨x, rest, rfl, hx, hrest⟩ := List.map_eq_cons_iff.mp hws
    obtain ⟨items', hitems', halike⟩ := ih hrest
    rw [List.map_cons, x.text_eq hx (by decide)]
    exact ⟨_, .verbose hitems', .cons (.same _) halike⟩
  | letters n _ ih =>
    obtain ⟨x, rest, rfl, hx, hrest⟩ := List.map_eq_cons_iff.mp hws
    obtain ⟨items', hitems', halike⟩ := ih hrest
    rw [List.map_cons, x.text_eq hx (by rw [Item.ofString_letters]; exact Word.noConfusion)]
    exact ⟨_, .letters n hitems', List.rel_append (Item.Alike.refl_all _) halike⟩

namespace Draft

def withFiles (d : Draft) (fs : List String) : Draft := { d with files := fs }

theorem set_withFiles (hp : p ≠ .files) (d : Draft) (fs : List String) (t : String) :
    (d.withFiles fs).set p t = (d.set p t).map (·.withFiles fs) := by
  cases p with
  | files => exact absurd rfl hp
  | server | db | collection => rfl
  | mode => simp only [set]; cases readMode .mode t <;> rfl
  | port => simp only [set]; cases readNumber .port 16 t <;> rfl
  | loopCount => simp only [set]; cases readNumber .loopCount 32 t <;> rfl
  | timeout => simp only [set]; cases readSpan .timeout t <;> rfl
  | sourceDir | destinationDir | outfile | summary | defaults =>
    simp only [set]
    cases readPath _ t <;> rfl

theorem settled_withFiles (d : Draft) (fs : List String) :
    (d.withFiles fs).settled = d.settled := by
  funext p
  cases p <;> rfl

theorem flip_withFiles (d : Draft) (fs : List String) (s : Switch) :
    (d.withFiles fs).flip s = (d.flip s).map (·.withFiles fs) := by
  cases s with
  | help | version => rfl
  | verbose =>
    have hverbose : (d.withFiles fs).choices.verbose = d.choices.verbose := rfl
    simp only [flip, hverbose]
    split <;> rfl

theorem take_withFiles (hi : ∀ t, i ≠ .choice .files (some t)) (d : Draft) (fs : List String) :
    (d.withFiles fs).take i = (d.take i).map (·.withFiles fs) := by
  cases i with
  | refused cause => rfl
  | switch s => exact flip_withFiles d fs s
  | choice p value =>
    cases value with
    | none => rfl
    | some t =>
      have hp : p ≠ .files := fun e => hi t (e ▸ rfl)
      simp only [take, settled_withFiles, set_withFiles hp]
      split <;> rfl

theorem readFiles_ne_nil (t : String) : readFiles t ≠ [] :=
  mt List.map_eq_nil_iff.mp (pieces_ne_nil _)

theorem take_alike (hij : i.Alike j) (hfs : fs = [] ↔ d.files = []) (h : d.take i = .ok d') :
    ∃ fs', (d.withFiles fs).take j = .ok (d'.withFiles fs') ∧ (fs' = [] ↔ d'.files = []) := by
  have hfiles : ∀ t u, d.take (.choice .files (some t)) = .ok d' →
      ∃ fs', (d.withFiles fs).take (.choice .files (some u)) = .ok (d'.withFiles fs') ∧
        (fs' = [] ↔ d'.files = []) := by
    intro t u h
    obtain rfl := Except.ok.inj h
    exact ⟨fs ++ readFiles u, rfl, by simp [readFiles_ne_nil]⟩
  cases hij with
  | files t u => exact hfiles t u h
  | same =>
    by_cases hi : ∃ t, i = .choice .files (some t)
    · obtain ⟨t, rfl⟩ := hi
      exact hfiles t t h
    · have htake := take_withFiles (not_exists.mp hi) d
      -- with the files that it has, the draft is itself
      have hsame : d.take i = (d.take i).map (·.withFiles d.files) := htake d.files
      rw [h] at hsame
      refine ⟨fs, by rw [htake, h]; rfl, ?_⟩
      rw [congrArg files (Except.ok.inj hsame)]
      exact hfs

theorem takeAll_alike (hall : List.Forall₂ Item.Alike items items') (hfs : fs = [] ↔ d.files = [])
    (h : d.takeAll items = .ok d') :
    ∃ fs', (d.withFiles fs).takeAll items' = .ok (d'.withFiles fs') ∧
      (fs' = [] ↔ d'.files = []) := by
  induction hall generalizing d fs with
  | nil => exact ⟨fs, Except.ok.inj h ▸ rfl, Except.ok.inj h ▸ hfs⟩
  | cons hij _ ih =>
    obtain ⟨d₁, hi, hrest⟩ := exists_of_bind_eq_ok h
    obtain ⟨fs₁, hj, hfs₁⟩ := take_alike hij hfs hi
    obtain ⟨fs', hrest', hfs'⟩ := ih hfs₁ hrest
    refine ⟨fs', ?_, hfs'⟩
    rw [takeAll, List.foldlM_cons, hj]
    exact hrest'

theorem standIn_withFiles (env : Environment) (d : Draft) (fs : List String) (p : Parameter) :
    (d.withFiles fs).standIn env p = (d.standIn env p).map (·.withFiles fs) := by
  by_cases hp : p = .files
  · subst hp
    rfl
  · simp only [standIn, settled_withFiles, set_withFiles hp]
    split
    case isTrue => rfl
    case isFalse => split <;> rfl

theorem standInAll_withFiles {ps : List Parameter} (h : ps.foldlM (standIn env) d = .ok d')
    (fs : List String) : ps.foldlM (standIn env) (d.withFiles fs) = .ok (d'.withFiles fs) := by
  induction ps generalizing d with
  | nil => exact Except.ok.inj h ▸ rfl
  | cons p ps ih =>
    obtain ⟨d₁, hp, hrest⟩ := exists_of_bind_eq_ok h
    rw [List.foldlM_cons, standIn_withFiles, hp]
    exact ih hrest

end Draft

theorem complete_withFiles {mode : Mode} (hmode : d.mode = some mode) (hfs : fs ≠ []) :
    ∃ c, (d.withFiles fs).complete = .ok c := by
  obtain ⟨f, fs, rfl⟩ := List.exists_cons_of_ne_nil hfs
  exact ⟨_, by rw [Draft.complete, Draft.withFiles, hmode]⟩

theorem read_text {parts : List LinePart}
    (h : CommandLine.read env (parts.map LinePart.bare) = .ok c) :
    ∃ c', CommandLine.read env (parts.map LinePart.text) = .ok c' := by
  obtain ⟨d, htake, h⟩ := exists_of_bind_eq_ok h
  obtain ⟨d', hstand, h⟩ := exists_of_bind_eq_ok h
  obtain ⟨mode, hmode, hne, -⟩ := Draft.complete_eq_ok h
  have hwritten := Item.written_scan _ (Draft.holds_empty.takeAll htake).usable
  obtain ⟨items, hitems, halike⟩ := written_text hwritten
  have hnone : [] = [] ↔ Draft.empty.files = [] := Iff.rfl
  obtain ⟨fs, htake', hfs⟩ := Draft.takeAll_alike halike hnone htake
  have htake' : Draft.empty.takeAll items = .ok (d.withFiles fs) := htake'
  have hfiles : d'.files = d.files := (Draft.value?_standInAll hstand .files).2.1
  obtain ⟨c', hc'⟩ := complete_withFiles hmode (mt hfs.mp (hfiles ▸ hne))
  refine ⟨c', ?_⟩
  calc CommandLine.read env (parts.map LinePart.text)
      = Parameter.all.foldlM (Draft.standIn env) (d.withFiles fs) >>= Draft.complete := by
        rw [CommandLine.read, hitems.ofWords, htake']
        rfl
    _ = (d'.withFiles fs).complete := by
        rw [Draft.standInAll_withFiles hstand]
        rfl
    _ = .ok c' := hc'

namespace ListItem

theorem ne_comma_of_isBlank {c : Char} (h : isBlank c = true) : c ≠ ',' := by
  rintro rfl
  exact absurd h (by decide)

theorem comma_not_mem_text (x : ListItem) : ',' ∉ x.text.toList := by
  have hname : ',' ∉ x.name.toList := by
    rcases x.expressible with h | h
    · simp [h]
    · exact h.not_mem_comma
  rw [text, String.toList_ofList, List.mem_append, List.mem_append, not_or, not_or]
  exact ⟨⟨fun h => ne_comma_of_isBlank (x.blank_before _ h) rfl, hname⟩,
    fun h => ne_comma_of_isBlank (x.blank_after _ h) rfl⟩

theorem trim_text (x : ListItem) : trim x.text = x.name := by
  refine trim_padded x.blank_before x.blank_after ?_ ?_
  · rcases x.expressible with h | h
    · simp [h]
    · exact h.head
  · rcases x.expressible with h | h
    · simp [h]
    · exact h.last

end ListItem

theorem readFiles_intercalate {ts : List String} (hne : ts ≠ [])
    (h : ∀ t ∈ ts, ',' ∉ t.toList) : Draft.readFiles (",".intercalate ts) = ts := by
  have hpieces := pieces_intercalate (mt List.map_eq_nil_iff.mp hne) (List.forall_mem_map.mpr h)
  have hsep : ",".toList = [','] := rfl
  rw [Draft.readFiles, String.toList_intercalate, hsep, hpieces, List.map_map]
  simp [Function.comp_def]

def readNames (t : String) : List String := ((Draft.readFiles t).map trim).filter (· ≠ "")

theorem readNames_list (xs : List ListItem) :
    readNames (",".intercalate (xs.map ListItem.text)) =
      (xs.map ListItem.name).filter (· ≠ "") := by
  cases xs with
  | nil => rfl
  | cons x xs =>
    rw [readNames, readFiles_intercalate (by simp)
      (List.forall_mem_map.mpr fun y _ => y.comma_not_mem_text), List.map_map]
    simp only [Function.comp_def, ListItem.trim_text]

theorem names_given (parts : List LinePart) :
    (CommandLine.given .files (parts.map LinePart.text)).flatMap readNames =
      parts.flatMap LinePart.names := by
  induction parts with
  | nil => rfl
  | cons x parts ih =>
    cases x with
    | word w h => simpa [CommandLine.given, LinePart.text, LinePart.names, h] using ih
    | list xs =>
      simpa [CommandLine.given, LinePart.text, LinePart.names, CommandLine.valueAt_assignment,
        readNames_list] using ih

theorem fileNames_eq (h : c.Says env ws) :
    c.fileNames = (CommandLine.given .files ws).flatMap readNames := by
  rw [CommandLine.fileNames, h.files, List.map_flatMap, List.filter_flatMap]
  rfl

theorem expressible_of_mem_readNames (h : name ∈ readNames t) : Expressible name := by
  obtain ⟨hmem, hne⟩ := List.mem_filter.mp h
  obtain ⟨item, hitem, rfl⟩ := List.mem_map.mp hmem
  obtain ⟨cs, hcs, rfl⟩ := List.mem_map.mp hitem
  have hcomma : ',' ∉ (trim (String.ofList cs)).toList := fun hc => by
    have := mem_of_mem_trim hc
    rw [String.toList_ofList] at this
    exact not_mem_of_mem_pieces hcs this
  exact ⟨of_decide_eq_true hne, hcomma, fun c hc => isBlank_head?_trim hc,
    fun c hc => isBlank_getLast?_trim hc⟩

/-- The files of a run are the names that stand between the commas of all lists on its line, in that
order. Whatever the line, none of them is blank, and a line of blank items only names no file. -/
theorem file_names_arrive :
    (∀ (env : Environment) (parts : List LinePart) (c : CommandLine),
      CommandLine.read env (parts.map LinePart.bare) = .ok c →
        ∃ c', CommandLine.read env (parts.map LinePart.text) = .ok c' ∧
          ∀ text d, Defaults.parse text = .ok d →
            ∃ s, c'.settings d = .ok s ∧ s.files = parts.flatMap LinePart.names) ∧
    (∀ (env : Environment) (ws : List String) (c : CommandLine) (d : Defaults) (s : Settings),
      CommandLine.read env ws = .ok c → c.settings d = .ok s →
        (∀ name ∈ s.files, Expressible name) ∧
        ((∀ item ∈ (CommandLine.given .files ws).flatMap Draft.readFiles,
            ∀ c ∈ item.toList, isBlank c = true) →
          s.files = [] ∧ ∀ b, s.checkFor b = .fail (.settings .noFiles))) := by
  refine ⟨fun env parts c hc => ?_, fun env ws c d s hc hs => ?_⟩
  · obtain ⟨c', hc'⟩ := read_text hc
    refine ⟨c', hc', fun text d hd => ?_⟩
    obtain ⟨_, _, -, htimeout, -⟩ := Defaults.parse_eq_ok hd
    obtain ⟨s, hs, hfiles, -⟩ := c'.settings_eq_ok htimeout
    refine ⟨s, hs, ?_⟩
    rw [hfiles, fileNames_eq (says_of_read hc'), names_given]
  · obtain ⟨_, -, rfl⟩ := exists_of_map_eq_ok hs
    have hline := says_of_read hc
    refine ⟨fun name hname => ?_, fun hblank => ?_⟩
    · rw [fileNames_eq hline] at hname
      obtain ⟨t, -, ht⟩ := List.mem_flatMap.mp hname
      exact expressible_of_mem_readNames ht
    · have hnone : c.fileNames = [] := by
        rw [CommandLine.fileNames, hline.files, List.filter_eq_nil_iff, List.forall_mem_map]
        exact fun item hitem => by simp [trim_eq_empty (hblank item hitem)]
      exact ⟨hnone, fun b => if_pos (List.isEmpty_iff.mpr hnone)⟩

theorem file_names_arrive_padded :
    (∃ c s,
      CommandLine.read [] ["--files= b.bin,,a.bin\t", "--run=both", "--files=b.bin, "] = .ok c ∧
      c.settings .empty = .ok s ∧ s.files = ["b.bin", "a.bin", "b.bin"] ∧
      ∀ name ∈ s.files, Expressible name) ∧
    ∃ c s, CommandLine.read [] ["--run=both", "--files", " ,,"] = .ok c ∧
      c.settings .empty = .ok s ∧ s.files = [] ∧
      ∀ b, s.checkFor b = .fail (.settings .noFiles) := by
  have hname : Expressible "b.bin" := .of_trim (by decide) (by decide) rfl
  have hname' : Expressible "a.bin" := .of_trim (by decide) (by decide) rfl
  have hnone : ∀ c ∈ [], isBlank c = true := List.forall_mem_nil _
  let parts : List LinePart :=
    [.list [⟨[' '], "b.bin", [], List.forall_mem_singleton.mpr rfl, hnone, .inr hname⟩,
        ⟨[], "", [], hnone, hnone, .inl rfl⟩,
        ⟨[], "a.bin", ['\t'], hnone, List.forall_mem_singleton.mpr rfl, .inr hname'⟩],
      .word "--run=both" fun _ => rfl,
      .list [⟨[], "b.bin", [], hnone, hnone, .inr hname⟩,
        ⟨[' '], "", [], List.forall_mem_singleton.mpr rfl, hnone, .inl rfl⟩]]
  have hwords : parts.map LinePart.bare = ["--files=", "--run=both", "--files="] := by
    simp only [parts, List.map, LinePart.bare]
    decide
  have htext : parts.map LinePart.text =
      ["--files= b.bin,,a.bin\t", "--run=both", "--files=b.bin, "] := by
    simp only [parts, List.map, LinePart.text, ListItem.text]
    decide
  have hbare : CommandLine.read [] (parts.map LinePart.bare) =
      .ok { Choices.none with mode := .both, files := ["", ""] } := by rw [hwords]; rfl
  obtain ⟨c, hc, hall⟩ := file_names_arrive.1 [] parts _ hbare
  obtain ⟨s, hs, hfiles⟩ := hall "" .empty rfl
  rw [htext] at hc
  obtain ⟨c', hc'⟩ : ∃ c, CommandLine.read [] ["--run=both", "--files", " ,,"] = .ok c := ⟨_, rfl⟩
  have htimeout : Defaults.empty.timeoutSpan = .ok none := rfl
  obtain ⟨s', hs', -⟩ := c'.settings_eq_ok htimeout
  have hitems : (CommandLine.given .files ["--run=both", "--files", " ,,"]).flatMap
      Draft.readFiles = [" ", "", ""] := rfl
  have hblank := (file_names_arrive.2 _ _ _ _ _ hc' hs').2 (by rw [hitems]; simp [isBlank])
  exact ⟨⟨c, s, hc, hs, hfiles, (file_names_arrive.2 _ _ _ _ _ hc hs).1⟩,
    c', s', hc', hs', hblank⟩

end StorageTrials

import StorageTrials.Proofs.Number.Places
import StorageTrials.Proofs.Optional
import StorageTrials.Proofs.Outcomes
import StorageTrials.Text.Separated

namespace StorageTrials

open StorageTrials.Text

/-- The cells of a text, line by line. What stands behind the last line break is a line as well. -/
def cellsOf (text : String) : List (List String) :=
  (pieces '\n' text.toList).map fun line => (pieces '\t' line).map String.ofList

def Line.cells (l : Line) : List String := if l.texts = [] then [""] else l.texts

/-- The characters that set columns and lines apart are in no column. -/
def Line.Tabular (l : Line) : Prop := ∀ t ∈ l.texts, '\t' ∉ t.toList ∧ '\n' ∉ t.toList

variable {l : Line} {ls : List Line} {r : Record} {rs : List Record}

theorem not_mem_intercalate {c d : Char} {ps : List (List Char)} (hcd : c ≠ d)
    (h : ∀ p ∈ ps, c ∉ p) : c ∉ [d].intercalate ps := by
  induction ps with
  | nil => exact List.not_mem_nil
  | cons p ps ih =>
    obtain ⟨hp, hps⟩ := List.forall_mem_cons.mp h
    cases ps with
    | nil => rwa [List.intercalate_singleton]
    | cons q qs =>
      rw [List.intercalate_cons_cons, List.mem_append, List.mem_append, List.mem_singleton]
      rintro ((hc | hc) | hc)
      · exact hp hc
      · exact hcd hc
      · exact ih hps hc

def Line.chars (l : Line) : List Char := ['\t'].intercalate (l.texts.map String.toList)

theorem toList_text (l : Line) : l.text.toList = l.chars ++ ['\n'] := by
  rw [Line.text, String.toList_append, String.toList_intercalate]
  rfl

theorem toList_textOf (ls : List Line) :
    (textOf ls).toList = (ls.map Line.chars).flatMap (· ++ ['\n']) := by
  rw [textOf, String.toList_join, List.flatMap_map, List.flatMap_map]
  exact congrArg (ls.flatMap ·) (funext toList_text)

theorem Line.Tabular.not_mem_chars (h : l.Tabular) : '\n' ∉ l.chars :=
  not_mem_intercalate (by decide) (List.forall_mem_map.mpr fun t ht => (h t ht).2)

theorem Line.Tabular.pieces_chars (h : l.Tabular) :
    (pieces '\t' l.chars).map String.ofList = l.cells := by
  rw [Line.chars, Line.cells]
  split
  case isTrue hnone =>
    rw [hnone]
    rfl
  case isFalse hsome =>
    have hne : l.texts.map String.toList ≠ [] := fun hnil => hsome (List.map_eq_nil_iff.mp hnil)
    rw [pieces_intercalate hne (List.forall_mem_map.mpr fun t ht => (h t ht).1), List.map_map]
    exact List.map_id'' (fun t => String.ofList_toList) l.texts

theorem cellsOf_textOf (h : ∀ l ∈ ls, l.Tabular) :
    cellsOf (textOf ls) = ls.map Line.cells ++ [[""]] := by
  have hlines : ∀ p ∈ ls.map Line.chars, '\n' ∉ p :=
    List.forall_mem_map.mpr fun l hl => (h l hl).not_mem_chars
  rw [cellsOf, toList_textOf, pieces_flatMap hlines, List.map_append, List.map_map]
  refine congrArg₂ (· ++ ·) ?_ rfl
  exact List.map_congr_left fun l hl => (h l hl).pieces_chars

def Record.Tabular (r : Record) : Prop := '\t' ∉ r.file.toList ∧ '\n' ∉ r.file.toList

instance (r : Record) : Decidable r.Tabular :=
  inferInstanceAs (Decidable ('\t' ∉ r.file.toList ∧ '\n' ∉ r.file.toList))

structure Shown where
  file : String
  operation : Operation
  size : Nat
deriving DecidableEq, Repr

def Record.shown (r : Record) : Shown := ⟨r.file, r.operation, r.size⟩

inductive Row
  | header
  | record (s : Shown)
  | blank
deriving DecidableEq, Repr

/-- How many columns are looked at. The last one, with the time, is left out. -/
def Row.width : Nat := 4

def Row.read? (cells : List String) : Option Row :=
  match cells.take width with
  | [file, operation, size, count] =>
    if [file, operation, size, count] = Record.columns.take width then some .header
    else if count = "1" then do
      some (.record ⟨file, ← Operation.ofName? operation, ← readDigits? size.toList⟩)
    else none
  | cells => if cells = [""] then some .blank else none

theorem tabular_header : Line.header.Tabular := by
  have hall : ∀ t ∈ Record.columns, '\t' ∉ t.toList ∧ '\n' ∉ t.toList := by decide
  exact hall

theorem tabular_footer : Line.footer.Tabular := List.forall_mem_nil _

theorem tabular_of_visible {t : String} (h : ∀ c ∈ t.toList, ' ' < c) :
    '\t' ∉ t.toList ∧ '\n' ∉ t.toList :=
  ⟨fun ht => absurd (h _ ht) (by decide), fun hn => absurd (h _ hn) (by decide)⟩

theorem Record.Tabular.record (h : r.Tabular) : (Line.record r).Tabular := by
  have hdecimal (n : Nat) : ∀ c ∈ (decimal n).toList, ' ' < c := by
    intro c hc
    rw [decimal, String.toList_ofList] at hc
    exact Number.visible_of_isDigit (isDigit_of_mem_digits hc)
  have hname (op : Operation) : ∀ c ∈ op.name.toList, ' ' < c := by
    have hall : op.name.toList.all (' ' < ·) := by cases op <;> decide
    exact fun c hc => of_decide_eq_true (List.all_eq_true.mp hall c hc)
  refine List.forall_mem_cons.mpr ⟨h, ?_⟩
  refine List.forall_mem_cons.mpr ⟨tabular_of_visible (hname r.operation), ?_⟩
  refine List.forall_mem_cons.mpr ⟨tabular_of_visible (hdecimal r.size), ?_⟩
  refine List.forall_mem_cons.mpr ⟨tabular_of_visible (hdecimal Record.repeatCount), ?_⟩
  refine List.forall_mem_singleton.mpr (tabular_of_visible fun c hc => ?_)
  exact Number.visible_of_mem_fixed hc

theorem Row.read?_header : Row.read? Record.columns = some .header := rfl

theorem fields_ne_columns (r : Record) :
    r.fields.take Row.width ≠ Record.columns.take Row.width := by
  intro h
  have hname : r.operation.name = "op" := (List.cons.inj (List.cons.inj h).2).1
  revert hname
  cases r.operation <;> decide

theorem decimal_repeatCount : decimal Record.repeatCount = "1" := by
  rw [decimal, digits]
  rfl

theorem Row.read?_fields (r : Record) : Row.read? r.fields = some (.record r.shown) := by
  have hsize : readDigits? (decimal r.size).toList = some r.size := by
    rw [decimal, String.toList_ofList, readDigits?_digits]
  have hread : Row.read? r.fields = if r.fields.take Row.width = Record.columns.take Row.width then
      some .header else if decimal Record.repeatCount = "1" then do
        some (.record ⟨r.file, ← Operation.ofName? r.operation.name,
          ← readDigits? (decimal r.size).toList⟩) else none := rfl
  rw [hread, if_neg (fields_ne_columns r), if_pos decimal_repeatCount, Operation.ofName?_name,
    hsize]
  rfl

def Line.block (rs : List Record) : List Line := .header :: rs.map .record ++ [.footer]

def Row.block (ss : List Shown) : List Row := .header :: ss.map .record ++ [.blank]

def Row.blocks : List Row → List (List Shown)
  | [] => []
  | .header :: rows => blocks rows
  | .blank :: rows => [] :: blocks rows
  | .record s :: rows =>
    match blocks rows with
    | ss :: rest => (s :: ss) :: rest
    | [] => [[s]]

variable {blocks others : List (List Record)}

theorem Row.blocks_block (ss : List Shown) (rows : List Row) :
    Row.blocks (Row.block ss ++ rows) = ss :: Row.blocks rows := by
  induction ss with
  | nil => rfl
  | cons s ss ih =>
    have hrest : Row.blocks (ss.map Row.record ++ [Row.blank] ++ rows) = ss :: Row.blocks rows := ih
    simp only [Row.block, List.map_cons, List.cons_append, Row.blocks, hrest]

theorem Row.blocks_flatMap (bs : List (List Shown)) : Row.blocks (bs.flatMap Row.block) = bs := by
  induction bs with
  | nil => rfl
  | cons ss bs ih => rw [List.flatMap_cons, Row.blocks_block, ih]

def firstColumns (text : String) : List (List String) := (cellsOf text).map (·.take Row.width)

def rows? (text : String) : Option (List Row) := (firstColumns text).dropLast.mapM Row.read?

theorem tabular_block (h : ∀ r ∈ rs, r.Tabular) : ∀ l ∈ Line.block rs, l.Tabular := by
  intro l hl
  rw [Line.block, List.mem_append, List.mem_cons, List.mem_map, List.mem_singleton] at hl
  rcases hl with (rfl | ⟨r, hr, rfl⟩) | rfl
  · exact tabular_header
  · exact (h r hr).record
  · exact tabular_footer

theorem tabular_blocks (h : ∀ rs ∈ blocks, ∀ r ∈ rs, r.Tabular) :
    ∀ l ∈ blocks.flatMap Line.block, l.Tabular := by
  intro l hl
  obtain ⟨rs, hrs, hl⟩ := List.mem_flatMap.mp hl
  exact tabular_block (h rs hrs) l hl

theorem cells_block (rs : List Record) :
    (Line.block rs).map Line.cells = Record.columns :: rs.map Record.fields ++ [[""]] := by
  rw [Line.block, List.map_append, List.map_cons, List.map_map]
  rfl

theorem cellsOf_blocks (h : ∀ rs ∈ blocks, ∀ r ∈ rs, r.Tabular) :
    cellsOf (textOf (blocks.flatMap Line.block)) =
      blocks.flatMap (fun rs => Record.columns :: rs.map Record.fields ++ [[""]]) ++ [[""]] := by
  rw [cellsOf_textOf (tabular_blocks h), List.map_flatMap]
  exact congrArg (· ++ [[""]]) (congrArg (blocks.flatMap ·) (funext cells_block))

theorem Row.read?_take (cells : List String) : Row.read? (cells.take width) = Row.read? cells := by
  rw [Row.read?, List.take_take, Nat.min_self, Row.read?]

theorem mapM_read?_block (rs : List Record) :
    (Record.columns :: rs.map Record.fields ++ [[""]]).mapM Row.read? =
      some (Row.block (rs.map Record.shown)) := by
  have hrecords : (rs.map Record.fields).mapM Row.read? =
      some ((rs.map Record.shown).map Row.record) := by
    rw [List.mapM_map, List.map_map]
    exact mapM_eq_some fun r _ => Row.read?_fields r
  rw [List.mapM_append, List.mapM_cons, Row.read?_header, hrecords]
  rfl

theorem mapM_read?_blocks (blocks : List (List Record)) :
    (blocks.flatMap fun rs => Record.columns :: rs.map Record.fields ++ [[""]]).mapM Row.read? =
      some ((blocks.map (·.map Record.shown)).flatMap Row.block) := by
  induction blocks with
  | nil => rfl
  | cons rs blocks ih =>
    rw [List.flatMap_cons, List.mapM_append, mapM_read?_block, ih]
    rfl

theorem rows?_blocks (h : ∀ rs ∈ blocks, ∀ r ∈ rs, r.Tabular) :
    rows? (textOf (blocks.flatMap Line.block)) =
      some ((blocks.map (·.map Record.shown)).flatMap Row.block) := by
  rw [rows?, firstColumns, cellsOf_blocks h, List.map_append, List.map_singleton,
    List.dropLast_concat, List.mapM_map, ← mapM_read?_blocks]
  exact congrArg (List.mapM · _) (funext Row.read?_take)

namespace Surroundings

variable {w : Surroundings} {x : ByteArray}

def stream? (w : Surroundings) : Option ByteArray :=
  match w.output with
  | .file id => w.files.content? id
  | _ => some w.written.toUTF8

def printAll (w : Surroundings) (ls : List Line) : Surroundings :=
  ls.foldl (fun w l => (w.print l).1) w

theorem stream?_cancelIf (w : Surroundings) (b : Bool) : (w.cancelIf b).stream? = w.stream? := by
  cases b <;> rfl

theorem stream?_print (h : w.stream? = some x) (l : Line) :
    (w.print l).1.stream? = some (x ++ l.text.toUTF8) := by
  have hwritten (hx : some w.written.toUTF8 = some x) :
      some (w.written ++ l.text).toUTF8 = some (x ++ l.text.toUTF8) := by
    cases hx
    rw [String.toUTF8_eq_toByteArray, String.toUTF8_eq_toByteArray, String.toUTF8_eq_toByteArray,
      String.toByteArray_append]
  unfold stream? at h
  unfold print
  cases hout : w.output with
  | standard =>
    simp only [hout] at h
    simp only [stream?]
    exact hwritten h
  | kept s =>
    simp only [hout] at h
    simp only [stream?_cancelIf]
    exact hwritten h
  | file id =>
    simp only [hout] at h
    have hne : w.files.node? id ≠ some (.device .full) := by
      intro hfull
      rw [FileSystem.content?, hfull] at h
      cases h
    simp only [stream?]
    exact (FileSystem.append_of_ne_full hne l.text.toUTF8).2.2 x h

theorem stream?_printAll (h : w.stream? = some x) (ls : List Line) :
    (w.printAll ls).stream? = some (x ++ (textOf ls).toUTF8) := by
  induction ls generalizing w x with
  | nil =>
    rw [printAll, List.foldl_nil, h]
    exact congrArg some ByteArray.append_empty.symm
  | cons l ls ih =>
    have htext : textOf (l :: ls) = l.text ++ textOf ls := String.join_cons
    have hrest := ih (stream?_print h l)
    rw [ByteArray.append_assoc, String.toUTF8_eq_toByteArray, String.toUTF8_eq_toByteArray,
      ← String.toByteArray_append, ← htext] at hrest
    exact hrest

end Surroundings

/-- What is printed in blocks is found again in the text: the lines with their columns, and from the
first four of these each record apart from its time, in its block. So other records are printed as
other columns, and none as a header or as a blank line. -/
theorem statistics_read_back (h : ∀ rs ∈ blocks, ∀ r ∈ rs, r.Tabular) :
    (∀ w : Surroundings, w.stream? = some .empty →
      (w.printAll (blocks.flatMap Line.block)).stream? =
        some (textOf (blocks.flatMap Line.block)).toUTF8) ∧
    cellsOf (textOf (blocks.flatMap Line.block)) =
      blocks.flatMap (fun rs => Record.columns :: rs.map Record.fields ++ [[""]]) ++ [[""]] ∧
    (∀ r : Record, r.fields.length = 5 ∧ r.fields[3]? = some "1" ∧
      Row.read? (r.fields.take 4) = some (.record r.shown) ∧
      r.fields.take 4 ≠ Record.columns.take 4 ∧ r.fields ≠ [""]) ∧
    (rows? (textOf (blocks.flatMap Line.block))).map Row.blocks =
      some (blocks.map (·.map Record.shown)) ∧
    ∀ others : List (List Record), (∀ rs ∈ others, ∀ r ∈ rs, r.Tabular) →
      firstColumns (textOf (others.flatMap Line.block)) =
        firstColumns (textOf (blocks.flatMap Line.block)) →
      others.map (·.map Record.shown) = blocks.map (·.map Record.shown) := by
  have hrows := rows?_blocks h
  refine ⟨fun w hw => ?_, cellsOf_blocks h, fun r => ⟨rfl, ?_, ?_, fields_ne_columns r, ?_⟩, ?_,
    fun others hothers hsame => ?_⟩
  · rw [Surroundings.stream?_printAll hw, ByteArray.empty_append]
  · exact congrArg some decimal_repeatCount
  · exact (Row.read?_take r.fields).trans (Row.read?_fields r)
  · exact fun hblank => nomatch (List.cons.inj hblank).2
  · rw [hrows, Option.map_some, Row.blocks_flatMap]
  · have hboth : rows? (textOf (others.flatMap Line.block)) =
        rows? (textOf (blocks.flatMap Line.block)) := by
      rw [rows?, hsame, rows?]
    rw [hrows, rows?_blocks hothers] at hboth
    rw [← Row.blocks_flatMap (others.map _), Option.some.inj hboth, Row.blocks_flatMap]

def misleadingBlocks : List (List Record) :=
  [[⟨"file", .write, 0, .zero⟩, ⟨"", .read, 10, .zero⟩], [], [⟨"1 read", .read, 1, .zero⟩]]

/-- Moved into another block, a record is found there. -/
theorem statistics_read_back_misleading :
    (∀ rs ∈ misleadingBlocks, ∀ r ∈ rs, r.Tabular) ∧
    (rows? (textOf (misleadingBlocks.flatMap Line.block))).map Row.blocks =
      some [[⟨"file", .write, 0⟩, ⟨"", .read, 10⟩], [], [⟨"1 read", .read, 1⟩]] ∧
    firstColumns (textOf (misleadingBlocks.reverse.flatMap Line.block)) ≠
      firstColumns (textOf (misleadingBlocks.flatMap Line.block)) := by
  have hall : ∀ rs ∈ misleadingBlocks, ∀ r ∈ rs, r.Tabular := by
    decide
  have hreverse : ∀ rs ∈ misleadingBlocks.reverse, ∀ r ∈ rs, r.Tabular :=
    fun rs hrs => hall rs (List.mem_reverse.mp hrs)
  obtain ⟨-, -, -, hread, hinjective⟩ := statistics_read_back hall
  refine ⟨hall, hread, fun hsame => ?_⟩
  exact absurd (hinjective _ hreverse hsame) (by decide)

end StorageTrials

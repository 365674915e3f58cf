/-
DocGate.Proofs.Report.Columns — the columns of the table of violations.

* `IsSetLeft`, `IsSetRight` — a cell of the table is filled up with blanks behind it or
  in front of it.
* `isLeast_width` — the width of a column is the least one in which all its cells find
  room.
* `Row.IsSet.isAligned` — so in each line of the table, the names of the columns
  included, the cells are as long as their columns are wide, and stand at the same
  place.
* `columns_stand_in_line` — this is so in the text of every report with violations. It
  is the text without colours, whose codes would take no room.

Lengths and places are counted in characters, and there is no limit to them (see
`DocGate.Report.Text`).
-/
import DocGate.Proofs.Report.Agreement
import Mathlib.Data.List.Forall2
import Mathlib.Order.Bounds.Defs

namespace DocGate.TextReport

open PaintedLine (joined)

/-! ## Cells -/

@[simp] theorem length_blanks (n : Nat) : (blanks n).length = n := by
  simp [blanks]

/-- A field of the table is a cell with blanks behind it, and `w` characters long. -/
def IsSetLeft (w : Nat) (cell field : String) : Prop :=
  field.length = w ∧ ∃ n, field = cell ++ blanks n

/-- A field of the table is a cell with blanks in front of it, and `w` characters long. -/
def IsSetRight (w : Nat) (cell field : String) : Prop :=
  field.length = w ∧ ∃ n, field = blanks n ++ cell

theorem isSetLeft_padRight {w : Nat} {cell : String} (h : cell.length ≤ w) :
    IsSetLeft w cell (padRight w cell) := by
  refine ⟨?_, _, rfl⟩
  rw [padRight, String.length_append, length_blanks]
  omega

theorem isSetRight_padLeft {w : Nat} {cell : String} (h : cell.length ≤ w) :
    IsSetRight w cell (padLeft w cell) := by
  refine ⟨?_, _, rfl⟩
  rw [padLeft, String.length_append, length_blanks]
  omega

/-- A cell finds room in a column if it is not longer than the column is wide. -/
theorem exists_isSetLeft_iff {w : Nat} {cell : String} :
    (∃ field, IsSetLeft w cell field) ↔ cell.length ≤ w := by
  constructor
  · rintro ⟨field, hlength, n, rfl⟩
    rw [String.length_append] at hlength
    omega
  · exact fun h => ⟨_, isSetLeft_padRight h⟩

theorem exists_isSetRight_iff {w : Nat} {cell : String} :
    (∃ field, IsSetRight w cell field) ↔ cell.length ≤ w := by
  constructor
  · rintro ⟨field, hlength, n, rfl⟩
    rw [String.length_append] at hlength
    omega
  · exact fun h => ⟨_, isSetRight_padLeft h⟩

/-! ## Widths -/

theorem foldl_max_length_le_iff {cells : List String} {w n : Nat} :
    cells.foldl (fun w c => max w c.length) w ≤ n ↔ w ≤ n ∧ ∀ c ∈ cells, c.length ≤ n := by
  induction cells generalizing w with
  | nil => simp
  | cons c cells ih =>
    rw [List.foldl_cons, ih, Nat.max_le, List.forall_mem_cons, and_assoc]

theorem isLeast_width (cells : List String) :
    IsLeast {n | ∀ c ∈ cells, c.length ≤ n} (width cells) := by
  have hle {n : Nat} : width cells ≤ n ↔ ∀ c ∈ cells, c.length ≤ n := by
    rw [width, foldl_max_length_le_iff]
    simp
  exact ⟨hle.mp (Nat.le_refl _), fun n => hle.mpr⟩

/-- Each column is as narrow as it can be if the rows are to find room in it. -/
structure Widths.IsNarrowest (w : Widths) (rows : List Row) : Prop where
  file : IsLeast {n | ∀ r ∈ rows, ∃ field, IsSetLeft n r.file field} w.file
  function : IsLeast {n | ∀ r ∈ rows, ∃ field, IsSetLeft n r.function field} w.function
  line : IsLeast {n | ∀ r ∈ rows, ∃ field, IsSetRight n r.line field} w.line
  score : IsLeast {n | ∀ r ∈ rows, ∃ field, IsSetRight n r.score field} w.score

theorem Widths.isNarrowest_ofRows (rows : List Row) : (ofRows rows).IsNarrowest rows := by
  have hcolumn (cell : Row → String) :
      IsLeast {n | ∀ r ∈ rows, (cell r).length ≤ n} (width (rows.map cell)) := by
    simpa using isLeast_width (rows.map cell)
  constructor
  · simpa only [ofRows, exists_isSetLeft_iff] using hcolumn Row.file
  · simpa only [ofRows, exists_isSetLeft_iff] using hcolumn Row.function
  · simpa only [ofRows, exists_isSetRight_iff] using hcolumn Row.line
  · simpa only [ofRows, exists_isSetRight_iff] using hcolumn Row.score

/-! ## Lines -/

/-- The fields of a line of the table are those of a row in columns of the given widths. -/
structure Row.IsSet (w : Widths) (r fields : Row) : Prop where
  file : IsSetLeft w.file r.file fields.file
  function : IsSetLeft w.function r.function fields.function
  line : IsSetRight w.line r.line fields.line
  score : IsSetRight w.score r.score fields.score
  severity : fields.severity = r.severity

/-- The line of the table that is made of the given fields. -/
def Row.text (fields : Row) : String :=
  String.join
    ["  ", fields.file, "  ", fields.function, "  ", fields.line, "  ", fields.score, "  ",
     fields.severity]

/-- A field stands in a line with `place` characters in front of it. -/
def StandsAt (place : Nat) (field line : String) : Prop :=
  ∃ before after, line = before ++ field ++ after ∧ before.length = place

/-- The fields of a line stand where the widths of the columns let them start. -/
structure Row.IsAligned (w : Widths) (fields : Row) : Prop where
  file : StandsAt 2 fields.file fields.text
  function : StandsAt (4 + w.file) fields.function fields.text
  line : StandsAt (6 + w.file + w.function) fields.line fields.text
  score : StandsAt (8 + w.file + w.function + w.line) fields.score fields.text
  severity : StandsAt (10 + w.file + w.function + w.line + w.score) fields.severity fields.text

theorem length_join (pieces : List String) :
    (String.join pieces).length = (pieces.map String.length).sum := by
  induction pieces with
  | nil => rfl
  | cons piece pieces ih =>
    rw [String.join_cons, String.length_append, ih, List.map_cons, List.sum_cons]

/-- A piece of a line stands behind the pieces in front of it. -/
theorem standsAt_join {place : Nat} {field : String} (front back : List String)
    (hplace : (front.map String.length).sum = place) :
    StandsAt place field (String.join (front ++ field :: back)) := by
  refine ⟨String.join front, String.join back, ?_, by rw [length_join, hplace]⟩
  rw [String.join_append, String.join_cons, String.append_assoc]

/-- Where a field starts depends on the widths of the columns in front of it only. -/
theorem Row.IsSet.isAligned {w : Widths} {r fields : Row} (h : r.IsSet w fields) :
    fields.IsAligned w := by
  obtain ⟨⟨hfile, -⟩, ⟨hfunction, -⟩, ⟨hline, -⟩, ⟨hscore, -⟩, -⟩ := h
  have hgap : "  ".length = 2 := rfl
  constructor
  · exact standsAt_join ["  "] _ (by simp [hgap])
  · exact standsAt_join ["  ", fields.file, "  "] _ (by simp [hgap, hfile]; omega)
  · exact standsAt_join ["  ", fields.file, "  ", fields.function, "  "] _
      (by simp [hgap, hfile, hfunction]; omega)
  · exact standsAt_join ["  ", fields.file, "  ", fields.function, "  ", fields.line, "  "] _
      (by simp [hgap, hfile, hfunction, hline]; omega)
  · exact standsAt_join
      ["  ", fields.file, "  ", fields.function, "  ", fields.line, "  ", fields.score, "  "] _
      (by simp [hgap, hfile, hfunction, hline, hscore]; omega)

/-- The fields that a row is shown by. -/
def Row.fields (w : Widths) (r : Row) : Row where
  file := padRight w.file r.file
  function := padRight w.function r.function
  line := padLeft w.line r.line
  score := padLeft w.score r.score
  severity := r.severity

/-- Rows that find room in the columns are set in them. -/
theorem Widths.IsNarrowest.isSet {w : Widths} {rows : List Row} (h : w.IsNarrowest rows) {r : Row}
    (hr : r ∈ rows) : r.IsSet w (r.fields w) where
  file := isSetLeft_padRight (exists_isSetLeft_iff.mp (h.file.1 r hr))
  function := isSetLeft_padRight (exists_isSetLeft_iff.mp (h.function.1 r hr))
  line := isSetRight_padLeft (exists_isSetRight_iff.mp (h.line.1 r hr))
  score := isSetRight_padLeft (exists_isSetRight_iff.mp (h.score.1 r hr))
  severity := rfl

theorem text_headerLine_fields (w : Widths) :
    PaintedLine.text (headerLine w) = (header.fields w).text := by
  simp [headerLine, Row.text, Row.fields, String.join, String.append_assoc]

theorem text_rowLine_fields (w : Widths) (r : Row) :
    PaintedLine.text (rowLine w r) = (r.fields w).text := by
  simp [rowLine, PaintedLine.text, Row.text, Row.fields, String.join, String.append_assoc]

/-! ## The table -/

/-- A text holds a table of the violations, whose lines are made of the given fields: first those
of the names of the columns, then those of each violation in order. -/
structure Tabulates (r : ScanReport) (text : String) (w : Widths) (fields : List Row) : Prop where
  text_eq : ∃ above below : List String,
    text = joined (above ++ "" :: "Documentation violations:" :: fields.map Row.text ++ below)
  isSet : List.Forall₂ (Row.IsSet w) (header :: rows r) fields
  isNarrowest : w.IsNarrowest (header :: rows r)
  isAligned : ∀ f ∈ fields, f.IsAligned w

theorem map_text_table_fields (r : ScanReport) :
    (table r).map PaintedLine.text
      = "" :: "Documentation violations:" :: ((header :: rows r).map
          (Row.fields (.ofRows (header :: rows r)))).map Row.text := by
  simp only [table, List.map_cons, PaintedLine.text_nil, PaintedLine.text_all,
    text_headerLine_fields, List.map_map, Function.comp_def, text_rowLine_fields]

/-- A report with violations shows the table between its other blocks. -/
theorem exists_render_eq {r : ScanReport} (h : r.hasViolations) (o : Options) :
    ∃ above below : List String,
      render false o r = joined (above ++ (table r).map PaintedLine.text ++ below) := by
  have hfiles : r.files ≠ [] := by
    intro hnil
    rw [ScanReport.hasViolations, hnil] at h
    cases h
  rw [render_eq_text hfiles, Blocks.text]
  have htable : (Blocks.ofReport o r).table = (table r).map PaintedLine.text := if_pos h
  by_cases hverbose : 1 ≤ o.verbosity
  · exact ⟨_, _, by rw [if_pos hverbose, htable]⟩
  · exact ⟨_, [], by rw [if_neg hverbose, htable, List.append_nil]⟩

/-- **The columns of the table stand in line.** A text report on a scan with violations, without
colours, shows them in a table with a line for the names of the columns and one for each
violation. In all lines each column but the last has the same width, which is the least one in
which its cells find room; a cell is shown as it is, with blanks behind it in the columns of files
and functions and in front of it in those of lines and scores. So each column starts behind the
same number of characters in all lines. -/
theorem columns_stand_in_line (o : Options) (r : ScanReport) (h : r.hasViolations) :
    ∃ (w : Widths) (fields : List Row), Tabulates r (render false o r) w fields := by
  have hnarrowest := Widths.isNarrowest_ofRows (header :: rows r)
  refine ⟨.ofRows (header :: rows r),
    (header :: rows r).map (Row.fields (.ofRows (header :: rows r))), ?_, ?_, hnarrowest, ?_⟩
  · obtain ⟨above, below, hrender⟩ := exists_render_eq h o
    rw [map_text_table_fields] at hrender
    exact ⟨above, below, hrender⟩
  · rw [List.forall₂_map_right_iff, List.forall₂_same]
    exact fun cells => hnarrowest.isSet
  · intro f hf
    obtain ⟨cells, hcells, rfl⟩ := List.mem_map.mp hf
    exact (hnarrowest.isSet hcells).isAligned

/-- A path and a name that are longer than the names of their columns, the name with characters of
more than one byte, and a shorter name. -/
def unevenReport : ScanReport :=
  .ofFunctions 5
    [("src/größe.py", [⟨"prüfe_größe", 7, 4294967295, false⟩, ⟨"f", 1200, 6, false⟩])]

theorem columns_of_unevenReport :
    unevenReport.hasViolations ∧
    ∃ (w : Widths) (fields : List Row),
      Tabulates unevenReport (render false ⟨1, .one⟩ unevenReport) w fields ∧
      w.function = 11 := by
  have hviolations : unevenReport.hasViolations := by decide
  obtain ⟨w, fields, h⟩ := columns_stand_in_line ⟨1, .one⟩ unevenReport hviolations
  have hleast := (Widths.isNarrowest_ofRows (header :: rows unevenReport)).function
  have hwidth : (Widths.ofRows (header :: rows unevenReport)).function = 11 := by decide
  refine ⟨hviolations, w, fields, h, ?_⟩
  rw [← hwidth]
  exact Nat.le_antisymm (h.isNarrowest.function.2 hleast.1) (hleast.2 h.isNarrowest.function.1)

end DocGate.TextReport

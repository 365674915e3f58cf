/-
DocGate.Proofs.Report.Agreement — reports for people and reports for programs.

A text report goes through all violations of a scan at once, a structured report through
the violations of one file after the other. Both tell the same.

* `Blocks` — the blocks of a text report; `Blocks.text` puts together those that are
  shown on demand.
* `Blocks.Shows` — each block can be written down from the summary that the structured
  report holds.
* `text_shows_structured_report` — for every report, the blocks made from the JSON text
  are those of the text report, at every level of detail. Colours are off, and the
  report must have a file: without any the text says only that.
-/
import DocGate.Proofs.Report.RoundTrip
import DocGate.Proofs.Report.Totals
import DocGate.Report.Text

namespace DocGate

/-! ## Lines without colours -/

namespace PaintedLine

/-- The text of a line without its paints. -/
def text (l : PaintedLine) : String := String.join (l.map Span.text)

@[simp] theorem text_nil : text [] = "" := rfl

@[simp] theorem text_plain (s : String) : text (plain s) = s := by simp [text, plain]

@[simp] theorem text_all (paint : Paint) (s : String) : text (all paint s) = s := by
  simp [text, all]

/-- Texts one below the other. -/
def joined (ls : List String) : String := String.join (ls.map (· ++ "\n"))

theorem render_plain (l : PaintedLine) : render false l = text l ++ "\n" := by
  have hspan : Span.render false = Span.text := by
    funext s
    simp [Span.render]
  rw [render, hspan, text]

theorem renderAll_plain (ls : List PaintedLine) : renderAll false ls = joined (ls.map text) := by
  rw [renderAll, joined, List.map_map]
  exact congrArg String.join (List.map_congr_left fun l _ => render_plain l)

end PaintedLine

namespace TextReport

open PaintedLine (joined)

/-! ## What the blocks of a report say -/

/-- The violations of all files with the paths of their files, in order. -/
def located (s : Summary) : List (String × ViolationSummary) :=
  s.files.flatMap fun f => f.violations.map fun v => (f.path, v)

def summaryText (s : Summary) : List String :=
  let documented := (s.files.map FileSummary.documented).sum
  ["Scan Results",
   "",
   "Files analyzed: " ++ toString s.totalFiles,
   "Total functions: " ++ toString s.totalFunctions,
   "Documentation coverage: " ++ (coverageOf documented s.totalFunctions).percent ++ "%",
   "Violations: " ++ toString s.violations]

def fileText (f : FileSummary) : String :=
  String.join
    ["  ", f.path, ": ", toString f.functions, " functions, ", toString f.documented,
     " documented (", (coverageOf f.documented f.functions).percent, "%)"]

def headerText (w : Widths) : String :=
  String.join
    ["  ", padRight w.file "File", "  ", padRight w.function "Function", "  ",
     padLeft w.line "Line", "  ", padLeft w.score "Score", "  ", "Severity"]

def rowText (w : Widths) (path : String) (v : ViolationSummary) : String :=
  String.join
    ["  ", padRight w.file path, "  ", padRight w.function v.function, "  ",
     padLeft w.line (toString v.line), "  ", padLeft w.score (toString v.complexity), "  ",
     v.severity.symbol, " ", v.severity.name]

def legendText (s : Severity) : String := "  " ++ s.symbol ++ " " ++ s.description

/-- The blocks of a text report, line by line. -/
structure Blocks where
  summary : List String
  files : List String
  table : List String
  legend : List String

namespace Blocks

/-- The blocks one below the other, without those of files and severities if nothing more than the
least is asked for. -/
def text (b : Blocks) (verbosity : Nat) : String :=
  if 1 ≤ verbosity then joined (b.summary ++ b.files ++ b.table ++ b.legend)
  else joined (b.summary ++ b.table)

/-- The blocks say what the summary says. -/
structure Shows (b : Blocks) (s : Summary) : Prop where
  summary_eq : b.summary = summaryText s
  files_eq : b.files = "" :: s.files.map fileText
  table_iff : b.table ≠ [] ↔ 0 < s.violations
  table_eq : b.table ≠ [] → ∃ w : Widths,
    b.table = "" :: "Documentation violations:" :: headerText w
      :: (located s).map fun (path, v) => rowText w path v
  legend_iff : b.legend ≠ [] ↔ b.table ≠ []
  /-- Each severity is there at most once, the lightest first. -/
  legend_eq : b.legend ≠ [] → ∃ severities : List Severity,
    b.legend = "" :: severities.map legendText ∧ severities.Sublist Severity.all ∧
      ∀ x, x ∈ severities ↔ ∃ f ∈ s.files, ∃ v ∈ f.violations, v.severity = x

/-- The blocks of the text report on a scan. -/
def ofReport (o : Options) (r : ScanReport) : Blocks where
  summary := (TextReport.summary o r).map PaintedLine.text
  files := (fileBlock r).map PaintedLine.text
  table := if r.hasViolations then (TextReport.table r).map PaintedLine.text else []
  legend := if r.hasViolations then (TextReport.legend r).map PaintedLine.text else []

end Blocks

/-! ## The blocks of a scan -/

theorem render_eq_text {r : ScanReport} (h : r.files ≠ []) (o : Options) :
    render false o r = (Blocks.ofReport o r).text o.verbosity := by
  rw [render, PaintedLine.renderAll_plain, lines, if_neg (by simpa using h), Blocks.text]
  by_cases hverbose : 1 ≤ o.verbosity <;> by_cases hviolations : r.hasViolations <;>
    simp [Blocks.ofReport, hverbose, hviolations]

theorem map_text_summary (o : Options) (r : ScanReport) :
    (summary o r).map PaintedLine.text = summaryText (.ofReport r) := by
  have hdocumented : ((Summary.ofReport r).files.map FileSummary.documented).sum
      = r.documentedCount := by
    simp [Summary.ofReport, FileSummary.ofFile, ScanReport.documentedCount,
      ScanReport.total_eq_sum, Function.comp_def]
  rw [summaryText, hdocumented]
  simp [summary, PaintedLine.text, PaintedLine.plain, PaintedLine.all, Summary.ofReport,
    ScanReport.coverage, String.append_assoc]

theorem text_fileLine (f : FileReport) :
    PaintedLine.text (fileLine f) = fileText (.ofFile f) := by
  simp [fileLine, PaintedLine.text, fileText, FileSummary.ofFile, FileReport.coverage, String.join,
    String.append_assoc]

theorem text_headerLine (w : Widths) : PaintedLine.text (headerLine w) = headerText w := by
  simp [headerLine, headerText, header, String.join, String.append_assoc]

theorem text_rowLine (w : Widths) (f : FileReport) (v : ScoredFunction) :
    PaintedLine.text (rowLine w (.ofViolation f v)) = rowText w f.path (.ofFunction v) := by
  simp [rowLine, PaintedLine.text, rowText, Row.ofViolation, ViolationSummary.ofFunction,
    String.join, String.append_assoc]

/-- Going through all violations is going through those of each file. -/
theorem located_ofReport (r : ScanReport) :
    located (.ofReport r) = r.violations.map fun (f, v) => (f.path, .ofFunction v) := by
  simp [located, Summary.ofReport, FileSummary.ofFile, ScanReport.violations, List.map_flatMap,
    List.flatMap_map, Function.comp_def]

theorem map_text_table (r : ScanReport) :
    ∃ w : Widths, (table r).map PaintedLine.text
      = "" :: "Documentation violations:" :: headerText w
          :: (located (.ofReport r)).map fun (path, v) => rowText w path v := by
  refine ⟨Widths.ofRows (header :: rows r), ?_⟩
  simp only [table, List.map_cons, PaintedLine.text_nil, PaintedLine.text_all, text_headerLine,
    rows, located_ofReport, List.map_map, Function.comp_def, text_rowLine]

theorem map_text_legend (r : ScanReport) :
    (legend r).map PaintedLine.text = "" :: (severities r).map legendText := by
  simp only [legend, List.map_cons, PaintedLine.text_nil, List.map_map, Function.comp_def,
    PaintedLine.text_plain]
  rfl

theorem mem_severities (r : ScanReport) (x : Severity) :
    x ∈ severities r
      ↔ ∃ f ∈ (Summary.ofReport r).files, ∃ v ∈ f.violations, v.severity = x := by
  have hall : x ∈ Severity.all := by cases x <;> decide
  simp [severities, hall, ScanReport.violations, Summary.ofReport, FileSummary.ofFile,
    ViolationSummary.ofFunction]

theorem table_ofReport_ne_nil (o : Options) (r : ScanReport) :
    (Blocks.ofReport o r).table ≠ [] ↔ r.hasViolations := by
  cases h : r.hasViolations <;> simp [Blocks.ofReport, h, table]

theorem legend_ofReport_ne_nil (o : Options) (r : ScanReport) :
    (Blocks.ofReport o r).legend ≠ [] ↔ r.hasViolations := by
  cases h : r.hasViolations <;> simp [Blocks.ofReport, h, legend]

theorem shows_ofReport (o : Options) (r : ScanReport) :
    (Blocks.ofReport o r).Shows (.ofReport r) where
  summary_eq := map_text_summary o r
  files_eq := by
    simp only [Blocks.ofReport, fileBlock, List.map_cons, PaintedLine.text_nil, List.map_map,
      Function.comp_def, text_fileLine, Summary.ofReport]
  table_iff := (table_ofReport_ne_nil o r).trans (ScanReport.hasViolations_iff r)
  table_eq h := by
    rw [table_ofReport_ne_nil] at h
    simpa only [Blocks.ofReport, h, if_true] using map_text_table r
  legend_iff := (legend_ofReport_ne_nil o r).trans (table_ofReport_ne_nil o r).symm
  legend_eq h := by
    rw [legend_ofReport_ne_nil] at h
    refine ⟨severities r, ?_, List.filter_sublist, mem_severities r⟩
    simpa only [Blocks.ofReport, h, if_true] using map_text_legend r

/-- **Both reports tell the same.** Of a scan with at least one file, the structured report is read
back as a summary, and the text report without colours is made of blocks that say what the summary
says, line by line and in the same order: the counts, a line for each file, and if there are
violations, and only then, a table with a row for each and a legend of their severities. The
blocks do not depend on how much is asked for; those of files and severities are left out if
nothing more than the least is. -/
theorem text_shows_structured_report (r : ScanReport) (h : r.files ≠ []) (target : Binary64) :
    ∃ (s : Summary) (b : Blocks),
      Json.read? (StructuredReport.render r) >>= Summary.ofJson? = some s ∧
      (∀ verbosity, render false ⟨verbosity, target⟩ r = b.text verbosity) ∧
      b.Shows s ∧
      (0 < s.violations ↔ r.hasViolations) := by
  refine ⟨.ofReport r, .ofReport ⟨0, target⟩ r, ?_, ?_, shows_ofReport _ r, ?_⟩
  · exact StructuredReport.summary_of_isDecoder Json.isDecoder_read? r
  · intro verbosity
    exact render_eq_text h ⟨verbosity, target⟩
  · exact (ScanReport.hasViolations_iff r).symm

/-- Three files with functions of one name. The second one has no violation: its function is as
complex as the threshold allows. -/
def mixedReport : ScanReport :=
  .ofFunctions 5
    [("a.py", [⟨"run", 1, 12, false⟩, ⟨"run", 9, 6, true⟩]), ("b.py", [⟨"run", 4, 5, false⟩]),
     ("c.py", [⟨"run", 2, 6, false⟩])]

theorem text_of_mixedReport :
    mixedReport.files ≠ [] ∧
    ∃ (s : Summary) (b : Blocks),
      (located s).map Prod.fst = ["a.py", "c.py"] ∧ b.Shows s ∧
      render false ⟨1, .one⟩ mixedReport = joined (b.summary ++ b.files ++ b.table ++ b.legend) ∧
      render false ⟨0, .one⟩ mixedReport = joined (b.summary ++ b.table) := by
  have hfiles : mixedReport.files ≠ [] := by decide
  obtain ⟨s, b, hread, htext, hshows, -⟩ := text_shows_structured_report mixedReport hfiles .one
  rw [StructuredReport.summary_of_isDecoder Json.isDecoder_read?] at hread
  cases hread
  exact ⟨hfiles, _, b, by decide, hshows, htext 1, htext 0⟩

end TextReport

end DocGate

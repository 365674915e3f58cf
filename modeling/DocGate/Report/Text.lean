/-
DocGate.Report.Text — reports for people: a summary, on demand a line for each file, and
a table of the violations, on demand with a legend.

The columns of the table are as wide as their widest cell, counted in characters; file
and function are set to the left, line and score to the right.

* `Options` — how much is shown, and the target that the coverage is measured against.
* `summary`, `fileBlock`, `table`, `legend` — the blocks of a report; `lines` puts
  together those that are to be shown.
* `Widths.ofRows`, `padRight`, `padLeft` — the widths of the columns, and a cell in a
  column.
* `render` — the text of a report.

A cell is filled up to any width here. Formatting that stores a width in sixteen bits
gives out at a cell of more than 65535 characters; reports with such cells are outside
this library.
-/
import DocGate.Number.Spelling
import DocGate.Report.Basic
import DocGate.Report.Painted

namespace DocGate.TextReport

/-- How a report is shown. -/
structure Options where
  /-- At one or more, files and the legend are shown. -/
  verbosity : Nat
  /-- Coverage from here on is good. -/
  target : Binary64

/-! ## Summary and files -/

def summary (o : Options) (r : ScanReport) : List PaintedLine :=
  let coveragePaint : Paint := if o.target.le r.coverage then .green else .yellow
  let violationPaint : Paint := if 0 < r.violationCount then .red else .green
  [.all .bold "Scan Results",
   [],
   .plain ("Files analyzed: " ++ toString r.fileCount),
   .plain ("Total functions: " ++ toString r.functionCount),
   [⟨"Documentation coverage: ", []⟩, ⟨r.coverage.percent ++ "%", [coveragePaint]⟩],
   [⟨"Violations: ", []⟩, ⟨toString r.violationCount, [violationPaint]⟩]]

def fileLine (f : FileReport) : PaintedLine :=
  [⟨"  ", []⟩, ⟨f.path, [.cyan]⟩,
   ⟨": " ++ toString f.functionCount ++ " functions, " ++ toString f.documentedCount
      ++ " documented (" ++ f.coverage.percent ++ "%)", []⟩]

def fileBlock (r : ScanReport) : List PaintedLine := [] :: r.files.map fileLine

/-! ## The table of violations -/

/-- The cells of a row. -/
structure Row where
  file : String
  function : String
  line : String
  score : String
  severity : String
  deriving DecidableEq, Repr

def Row.ofViolation (f : FileReport) (v : ScoredFunction) : Row :=
  { file := f.path
    function := v.name
    line := toString v.line
    score := toString v.complexity
    severity := v.severity.symbol ++ " " ++ v.severity.name }

/-- The names of the columns. -/
def header : Row := ⟨"File", "Function", "Line", "Score", "Severity"⟩

/-- The width of a column that holds the given cells. -/
def width (cells : List String) : Nat := cells.foldl (fun w c => max w c.length) 0

/-- The widths of all columns but the last, which ends the line. -/
structure Widths where
  file : Nat
  function : Nat
  line : Nat
  score : Nat
  deriving DecidableEq, Repr

/-- The least widths that fit the rows. -/
def Widths.ofRows (rows : List Row) : Widths :=
  { file := width (rows.map (·.file))
    function := width (rows.map (·.function))
    line := width (rows.map (·.line))
    score := width (rows.map (·.score)) }

def blanks (n : Nat) : String := String.ofList (List.replicate n ' ')

/-- A cell set to the left. A formatter that counts widths in 16 bits refuses a width above 65535
and writes no report then; cells as wide as that are outside this library, where a width is any
number. -/
def padRight (w : Nat) (cell : String) : String := cell ++ blanks (w - cell.length)

/-- A cell set to the right, of any width as well. -/
def padLeft (w : Nat) (cell : String) : String := blanks (w - cell.length) ++ cell

def headerLine (w : Widths) : PaintedLine :=
  .all .dim
    ("  " ++ padRight w.file header.file ++ "  " ++ padRight w.function header.function ++ "  "
      ++ padLeft w.line header.line ++ "  " ++ padLeft w.score header.score ++ "  "
      ++ header.severity)

def rowLine (w : Widths) (r : Row) : PaintedLine :=
  [⟨"  ", []⟩, ⟨padRight w.file r.file, [.cyan]⟩, ⟨"  ", []⟩,
   ⟨padRight w.function r.function, [.yellow]⟩,
   ⟨"  " ++ padLeft w.line r.line ++ "  " ++ padLeft w.score r.score ++ "  " ++ r.severity, []⟩]

def rows (r : ScanReport) : List Row := r.violations.map fun (f, v) => .ofViolation f v

def table (r : ScanReport) : List PaintedLine :=
  let rows := rows r
  let widths := Widths.ofRows (header :: rows)
  [] :: .all .red "Documentation violations:" :: headerLine widths :: rows.map (rowLine widths)

/-- The severities that occur among the violations, the lightest first. -/
def severities (r : ScanReport) : List Severity :=
  Severity.all.filter fun s => r.violations.any fun (_, v) => v.severity == s

def legend (r : ScanReport) : List PaintedLine :=
  [] :: (severities r).map fun s => .plain ("  " ++ s.symbol ++ " " ++ s.description)

/-! ## The whole report -/

/-- The lines of a report. -/
def lines (o : Options) (r : ScanReport) : List PaintedLine :=
  if r.files.isEmpty then [.all .yellow "No files analyzed"]
  else
    summary o r
      ++ (if 1 ≤ o.verbosity then fileBlock r else [])
      ++ (if r.hasViolations then
          table r ++ (if 1 ≤ o.verbosity then legend r else [])
        else [])

/-- A report as a text. -/
def render (colours : Bool) (o : Options) (r : ScanReport) : String :=
  PaintedLine.renderAll colours (lines o r)

end DocGate.TextReport

/-
DocGate.Report.Structured — reports for programs: the same facts as JSON, with counts,
coverage, and for every file its violations.

* `value` — the value that tells of a report, from those of its files (`file`) and of
  their violations (`violation`). The order of the fields is fixed.
* `render` — its text. There is no line feed at its end.

That nothing of the summary is lost in the text is proved in
`DocGate.Proofs.Report.RoundTrip`.
-/
import DocGate.Json.Writer
import DocGate.Number.Spelling
import DocGate.Report.Basic

namespace DocGate.StructuredReport

def violation (v : ScoredFunction) : Json :=
  .object
    [("function", .string v.name), ("line", .nat v.line), ("complexity", .nat v.complexity),
     ("severity", .string v.severity.name)]

def file (f : FileReport) : Json :=
  .object
    [("path", .string f.path), ("functions", .nat f.functionCount),
     ("documented", .nat f.documentedCount), ("violations", .array (f.violations.map violation))]

/-- A report as a JSON value. -/
def value (r : ScanReport) : Json :=
  .object
    [("total_files", .nat r.fileCount), ("total_functions", .nat r.functionCount),
     ("coverage", .number (r.coverage.spell Binary64.reportStyle)),
     ("violations", .nat r.violationCount), ("files", .array (r.files.map file))]

/-- A report as JSON text. -/
def render (r : ScanReport) : String := (value r).render

end DocGate.StructuredReport

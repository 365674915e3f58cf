/-
DocGate.Report.Format — formats of reports: for people and for programs.

* `ReportFormat.ofName` — the format that a name means, in letters of either case, or
  what is wrong with the name.
* `ReportFormat.render` — a report in a format. Colours and options matter to the format
  for people only.
-/
import DocGate.Report.Structured
import DocGate.Report.Text

namespace DocGate

/-- A format of reports. -/
inductive ReportFormat where
  | text
  | json
  deriving DecidableEq, Repr

namespace ReportFormat

def name : ReportFormat → String
  | text => "text"
  | json => "json"

/-- The format with a name, in any case. Only letters of the Latin alphabet have one of these
letters as their small form. -/
def ofName (s : String) : Except String ReportFormat :=
  let lower := String.ofList (s.toList.map Char.toLower)
  if lower = "text" then .ok .text
  else if lower = "json" then .ok .json
  else .error ("Unknown output format: " ++ s)

/-- A report in a format. -/
def render (format : ReportFormat) (colours : Bool) (o : TextReport.Options) (r : ScanReport) :
    String :=
  match format with
  | text => TextReport.render colours o r
  | json => StructuredReport.render r

end ReportFormat

end DocGate

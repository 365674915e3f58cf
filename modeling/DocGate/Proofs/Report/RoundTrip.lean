/-
DocGate.Proofs.Report.RoundTrip — structured reports read back.

* `Summary`, `Summary.ofReport` — what a structured report tells of a report. The
  coverage is told by its text.
* `Summary.ofJson?` — the summary that a JSON value tells of, if it tells of one.
* `summary_of_rendered` — the text of a structured report is JSON, and every decoder
  that knows the format finds the same summary in it. So reports with the same text have
  the same summary.

There is no side condition on the report: whatever characters there are in the names of
files and functions, they come back.
-/
import DocGate.Proofs.Json.Reading
import DocGate.Proofs.Number.Spelling
import DocGate.Report.Structured

namespace DocGate

/-! ## Reading single values -/

namespace Json

def nat? : Json → Option Nat
  | .number text =>
    if text.toList.all Char.isDigit then some (Nat.ofDigitChars 10 text.toList 0) else none
  | _ => none

def numberText? : Json → Option String
  | .number text => some text
  | _ => none

def string? : Json → Option String
  | .string s => some s
  | _ => none

def items? : Json → Option (List Json)
  | .array items => some items
  | _ => none

@[simp] theorem nat?_nat (n : Nat) : (nat n).nat? = some n := by
  have hdigits : (Nat.toDigits 10 n).all Char.isDigit :=
    List.all_eq_true.mpr (isDigits_toDigits n).2
  simp only [nat, nat?, Nat.toString_eq_ofList_toDigits, String.toList_ofList, hdigits, if_true,
    Nat.ofDigitChars_ten_toDigits]

/-- A list of values is read item by item. -/
theorem mapM_ofJson?_map {α β : Type} {encode : α → Json} {decode : Json → Option β} {f : α → β}
    (xs : List α) (h : ∀ x, decode (encode x) = some (f x)) :
    (xs.map encode).mapM decode = some (xs.map f) := by
  have hread : decode ∘ encode = fun x => pure (f x) := funext h
  rw [List.mapM_map, hread, List.mapM_pure]
  rfl

end Json

open Json (mapM_ofJson?_map)

/-- The severity with a name. -/
def Severity.ofName? (name : String) : Option Severity := all.find? (·.name == name)

@[simp] theorem Severity.ofName?_name (s : Severity) : ofName? s.name = some s := by
  cases s <;> decide

/-! ## Summaries -/

/-- What a structured report tells of a violation. -/
structure ViolationSummary where
  function : String
  line : Nat
  complexity : Nat
  severity : Severity
  deriving DecidableEq, Repr

/-- What it tells of a file. -/
structure FileSummary where
  path : String
  functions : Nat
  documented : Nat
  violations : List ViolationSummary
  deriving DecidableEq, Repr

/-- What it tells of a scan. -/
structure Summary where
  totalFiles : Nat
  totalFunctions : Nat
  /-- The text of a number. -/
  coverage : String
  violations : Nat
  files : List FileSummary
  deriving DecidableEq, Repr

namespace ViolationSummary

def ofFunction (v : ScoredFunction) : ViolationSummary where
  function := v.name
  line := v.line
  complexity := v.complexity
  severity := v.severity

def ofJson? (v : Json) : Option ViolationSummary := do
  let function ← v.field? "function" >>= Json.string?
  let line ← v.field? "line" >>= Json.nat?
  let complexity ← v.field? "complexity" >>= Json.nat?
  let severity ← v.field? "severity" >>= Json.string? >>= Severity.ofName?
  return { function, line, complexity, severity }

theorem ofJson?_violation (v : ScoredFunction) :
    ofJson? (StructuredReport.violation v) = some (ofFunction v) := by
  simp [ofJson?, StructuredReport.violation, Json.field?, List.lookup_cons, Json.string?, ofFunction]

end ViolationSummary

namespace FileSummary

def ofFile (f : FileReport) : FileSummary where
  path := f.path
  functions := f.functionCount
  documented := f.documentedCount
  violations := f.violations.map ViolationSummary.ofFunction

def ofJson? (v : Json) : Option FileSummary := do
  let path ← v.field? "path" >>= Json.string?
  let functions ← v.field? "functions" >>= Json.nat?
  let documented ← v.field? "documented" >>= Json.nat?
  let violations ← v.field? "violations" >>= Json.items?
  return { path, functions, documented, violations := ← violations.mapM ViolationSummary.ofJson? }

theorem ofJson?_file (f : FileReport) :
    ofJson? (StructuredReport.file f) = some (ofFile f) := by
  have hviolations := mapM_ofJson?_map f.violations ViolationSummary.ofJson?_violation
  simp [ofJson?, StructuredReport.file, Json.field?, List.lookup_cons, Json.string?, Json.items?,
    hviolations, ofFile]

end FileSummary

namespace Summary

/-- The summary of a report. -/
def ofReport (r : ScanReport) : Summary where
  totalFiles := r.fileCount
  totalFunctions := r.functionCount
  coverage := r.coverage.spell Binary64.reportStyle
  violations := r.violationCount
  files := r.files.map FileSummary.ofFile

/-- The summary that a JSON value holds. -/
def ofJson? (v : Json) : Option Summary := do
  let totalFiles ← v.field? "total_files" >>= Json.nat?
  let totalFunctions ← v.field? "total_functions" >>= Json.nat?
  let coverage ← v.field? "coverage" >>= Json.numberText?
  let violations ← v.field? "violations" >>= Json.nat?
  let files ← v.field? "files" >>= Json.items?
  return { totalFiles, totalFunctions, coverage, violations,
           files := ← files.mapM FileSummary.ofJson? }

theorem ofJson?_value (r : ScanReport) :
    ofJson? (StructuredReport.value r) = some (ofReport r) := by
  have hfiles := mapM_ofJson?_map r.files FileSummary.ofJson?_file
  simp [ofJson?, StructuredReport.value, Json.field?, List.lookup_cons, Json.numberText?, Json.items?,
    hfiles, ofReport]

end Summary

/-! ## The text of a structured report -/

theorem ScanReport.documentedCount_le_functionCount (r : ScanReport) :
    r.documentedCount ≤ r.functionCount := by
  rw [documentedCount, functionCount, total, total]
  induction r.files with
  | nil => exact Nat.le_refl 0
  | cons f fs ih =>
    have hfile : f.documentedCount ≤ f.functionCount := List.countP_le_length
    simp only [List.foldr_cons]
    omega

namespace StructuredReport

theorem wellFormed_violation (v : ScoredFunction) : (violation v).WellFormed := by
  refine .object fun field hfield => ?_
  simp only [List.mem_cons, List.not_mem_nil, or_false] at hfield
  rcases hfield with rfl | rfl | rfl | rfl
  · exact .string v.name
  · exact Json.wellFormed_nat v.line
  · exact Json.wellFormed_nat v.complexity
  · exact .string v.severity.name

theorem wellFormed_file (f : FileReport) : (file f).WellFormed := by
  refine .object fun field hfield => ?_
  simp only [List.mem_cons, List.not_mem_nil, or_false] at hfield
  rcases hfield with rfl | rfl | rfl | rfl
  · exact .string f.path
  · exact Json.wellFormed_nat f.functionCount
  · exact Json.wellFormed_nat f.documentedCount
  · exact .array_map wellFormed_violation f.violations

/-- The coverage is a number of the format. -/
theorem isNumber_coverage (r : ScanReport) :
    Json.IsNumber (r.coverage.spell Binary64.reportStyle).toList := by
  have hend : Json.IsFraction ['.', '0'] := .digits ⟨by simp, by simp⟩
  obtain ⟨units, hunits⟩ := Binary64.exists_coverageOf_eq r.documentedCount_le_functionCount
  rw [ScanReport.coverage, hunits]
  exact Binary64.isNumber_spell (by simpa [Binary64.reportStyle] using hend) false units

theorem wellFormed_value (r : ScanReport) : (value r).WellFormed := by
  refine .object fun field hfield => ?_
  simp only [List.mem_cons, List.not_mem_nil, or_false] at hfield
  rcases hfield with rfl | rfl | rfl | rfl | rfl
  · exact Json.wellFormed_nat r.fileCount
  · exact Json.wellFormed_nat r.functionCount
  · exact .number (isNumber_coverage r)
  · exact Json.wellFormed_nat r.violationCount
  · exact .array_map wellFormed_file r.files

theorem isTextOf_render (r : ScanReport) : Json.IsTextOf (value r) (render r) :=
  (wellFormed_value r).isTextOf_render

/-- Every decoder reads the summary of a report from its text. -/
theorem summary_of_isDecoder {decode : String → Option Json} (h : Json.IsDecoder decode)
    (r : ScanReport) : decode (render r) >>= Summary.ofJson? = some (.ofReport r) := by
  rw [h _ _ (isTextOf_render r)]
  exact Summary.ofJson?_value r

/-- **Structured reports read back.** The text of a structured report is JSON. Every decoder that
knows JSON, and there is one, reads from it the summary of the report: its counts, the text of its
coverage, and for every file in order its path, its counts and its violations in order. So two
reports with the same text have the same summary. -/
theorem summary_of_rendered (r : ScanReport) :
    Json.IsTextOf (value r) (render r) ∧
    Json.IsDecoder Json.read? ∧
    (∀ decode, Json.IsDecoder decode →
      decode (render r) >>= Summary.ofJson? = some (.ofReport r)) ∧
    ∀ r', render r' = render r → Summary.ofReport r' = Summary.ofReport r := by
  refine ⟨isTextOf_render r, Json.isDecoder_read?, fun decode h => summary_of_isDecoder h r, ?_⟩
  intro r' htext
  have hsummary' := summary_of_isDecoder Json.isDecoder_read? r'
  have hsummary := summary_of_isDecoder Json.isDecoder_read? r
  rw [htext, hsummary] at hsummary'
  exact (Option.some.inj hsummary').symm

end StructuredReport

end DocGate

/-
DocGate.Report.Basic — what a scan has to report.

A function violates the rule if its complexity is above the threshold and it has no
documentation. The report on a file keeps all its functions and the places of the
violations among them; the report on a scan keeps the reports on its files.

* `ScoredFunction` — a function as a report knows it; `ScoredFunction.violates` is the
  rule.
* `FileReport.check` — the report on a file under a threshold.
* `ScanReport.total` — a number that a scan gets by adding up over its files; its counts
  are all made this way.
* `coverageOf` — which part of the functions is documented. Of no functions it is all.

The places of violations are places in the list of functions only if `FileReport.check`
made them. What follows from that is proved in `DocGate.Proofs.Report.Totals`.
-/
import DocGate.FunctionUnit
import DocGate.Number.Binary64

namespace DocGate

/-- A function with its complexity. -/
structure ScoredFunction where
  name : String
  line : Nat
  complexity : Nat
  documented : Bool
  deriving DecidableEq, Repr

namespace ScoredFunction

def ofUnit (u : FunctionUnit) : ScoredFunction := ⟨u.name, u.line, u.score, u.documented⟩

def severity (f : ScoredFunction) : Severity := .ofScore f.complexity

/-- Whether the function is too complex to go without documentation. -/
def violates (threshold : Nat) (f : ScoredFunction) : Bool :=
  threshold < f.complexity && !f.documented

end ScoredFunction

/-- The part of the whole, and one if there is no whole. -/
def coverageOf (documented total : Nat) : Binary64 :=
  if total = 0 then .one else .ofRatio false documented total

/-- The functions of a file and the places of the violations among them, in their order. -/
structure FileReport where
  path : String
  functions : List ScoredFunction
  flagged : List Nat
  deriving DecidableEq, Repr

namespace FileReport

/-- The places, counted from `i`, of the functions that violate the rule. -/
def flaggedFrom (threshold : Nat) : Nat → List ScoredFunction → List Nat
  | _, [] => []
  | i, f :: fs =>
    if f.violates threshold then i :: flaggedFrom threshold (i + 1) fs
    else flaggedFrom threshold (i + 1) fs

/-- The report on a file with the given functions. -/
def check (threshold : Nat) (path : String) (functions : List ScoredFunction) : FileReport :=
  ⟨path, functions, flaggedFrom threshold 0 functions⟩

/-- The functions that violate the rule. -/
def violations (r : FileReport) : List ScoredFunction :=
  let functions := r.functions.toArray
  r.flagged.filterMap fun i => functions[i]?

def functionCount (r : FileReport) : Nat := r.functions.length

def documentedCount (r : FileReport) : Nat := r.functions.countP (·.documented)

def violationCount (r : FileReport) : Nat := r.flagged.length

def hasViolations (r : FileReport) : Bool := !r.flagged.isEmpty

def coverage (r : FileReport) : Binary64 := coverageOf r.documentedCount r.functionCount

end FileReport

/-- The reports on the files of a scan. -/
structure ScanReport where
  files : List FileReport := []
  deriving DecidableEq, Repr

namespace ScanReport

def fileCount (r : ScanReport) : Nat := r.files.length

/-- What the files count together. -/
def total (r : ScanReport) (count : FileReport → Nat) : Nat :=
  r.files.foldr (fun f n => count f + n) 0

def functionCount (r : ScanReport) : Nat := r.total FileReport.functionCount

def documentedCount (r : ScanReport) : Nat := r.total FileReport.documentedCount

def violationCount (r : ScanReport) : Nat := r.total FileReport.violationCount

def hasViolations (r : ScanReport) : Bool := r.files.any (·.hasViolations)

/-- The documented part of all functions of the scan. -/
def coverage (r : ScanReport) : Binary64 := coverageOf r.documentedCount r.functionCount

/-- All violations with their files, in the order of the files. -/
def violations (r : ScanReport) : List (FileReport × ScoredFunction) :=
  r.files.flatMap fun f => f.violations.map fun v => (f, v)

end ScanReport

end DocGate

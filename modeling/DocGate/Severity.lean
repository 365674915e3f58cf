/-
DocGate.Severity — complexity in four steps, for a reader of a report.

* `Severity.ofScore` — the step of a score. It has no part in what is a violation.
* `Severity.name`, `symbol`, `description` — how a report tells of a step.
-/

namespace DocGate

/-- How hard a function is to read. -/
inductive Severity where
  | simple
  | moderate
  | complex
  | veryComplex
  deriving DecidableEq, Repr

namespace Severity

/-- The severities, the lightest first. -/
def all : List Severity := [simple, moderate, complex, veryComplex]

/-- Up to 5 is simple, up to 10 moderate, up to 15 complex. -/
def ofScore (score : Nat) : Severity :=
  if score ≤ 5 then simple
  else if score ≤ 10 then moderate
  else if score ≤ 15 then complex
  else veryComplex

/-- The name in reports of every format. -/
def name : Severity → String
  | simple => "simple"
  | moderate => "moderate"
  | complex => "complex"
  | veryComplex => "very_complex"

def symbol : Severity → String
  | simple => "🟢"
  | moderate => "🟡"
  | complex => "🟠"
  | veryComplex => "🔴"

def description : Severity → String
  | simple => "Simple - Easy to understand"
  | moderate => "Moderate - Reasonably clear"
  | complex => "Complex - Requires careful reading"
  | veryComplex => "Very Complex - Consider refactoring"

end Severity

end DocGate

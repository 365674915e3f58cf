/-
DocGate.FunctionUnit — a function, method or named function value of a source file, as
the checks see it.

* `FunctionUnit` — a name, a line, an outline, and whether the unit is documented.
* `FunctionUnit.score`, `FunctionUnit.severity` — what is measured on the outline, with
  the own name of the unit, since calls of itself cost.
-/
import DocGate.Outline.Score
import DocGate.Severity

namespace DocGate

/-- A function that a source file declares. -/
structure FunctionUnit where
  name : String
  /-- The line, counted from one, on which it starts. -/
  line : Nat
  outline : Outline
  documented : Bool

namespace FunctionUnit

def score (u : FunctionUnit) : Nat := u.outline.score u.name

def severity (u : FunctionUnit) : Severity := Severity.ofScore u.score

end FunctionUnit

end DocGate

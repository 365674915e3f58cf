/-
DocGate.Outline.Score — cognitive complexity.

A construct that branches, loops or handles an exception costs one more than the number
of such constructs around it; a resource scope and a conditional expression cost one, a
boolean chain one for each operator, and a call of the function itself two.

Scores and depths are numbers of 32 bits, and no addition goes past the largest of them.
What is still to be scored waits in a list, so that there is no limit to how deep an
outline is.

* `charge` — what one construct costs at a depth.
* `scorePending` — the score of what waits in the list.
* `Outline.score` — the score of the body of a function with a name.

The sum without the ceiling is in `DocGate.Proofs.Outline.ExactScore`.
-/
import DocGate.Outline.Basic

namespace DocGate

/-- The largest score. -/
def scoreCeiling : Nat := UInt32.size - 1

/-- The sum of two scores or depths, cut off at the ceiling. -/
def addScore (a b : Nat) : Nat := min scoreCeiling (a + b)

namespace Construct

/-- What a construct adds to the score of the function `name`, at a depth. -/
def charge (name : String) (depth : Nat) : Construct → Nat
  | conditional | loop | handler => addScore depth 1
  | resource | ternary => 1
  | chain operands => min scoreCeiling (operands - 1)
  | call callee => if callee = some name then 2 else 0
  | other => 0

/-- The depth at which what is inside a construct is scored. -/
def depthBelow (depth : Nat) (k : Construct) : Nat :=
  if k.nests then addScore depth 1 else depth

end Construct

namespace Outline

/-- The outlines `cs` at a depth, in front of what waits already. -/
def enqueue (depth : Nat) (cs : List Outline) (rest : List (Outline × Nat)) :
    List (Outline × Nat) :=
  cs.map (fun c => (c, depth)) ++ rest

/-- How much there is to score. -/
noncomputable def pendingSize : List (Outline × Nat) → Nat
  | [] => 0
  | (o, _) :: rest => sizeOf o + pendingSize rest

theorem pendingSize_enqueue_le (depth : Nat) (cs : List Outline) (rest : List (Outline × Nat)) :
    pendingSize (enqueue depth cs rest) ≤ sizeOf cs + pendingSize rest := by
  induction cs with
  | nil => simp [enqueue]
  | cons c cs ih =>
    simp only [enqueue, List.map_cons, List.cons_append, pendingSize, List.cons.sizeOf_spec]
      at ih ⊢
    omega

/-- The score of the outlines that wait, each with its depth, on top of the score `sum`. The
outlines inside the first one take its place. -/
def scorePending (name : String) (sum : Nat) : List (Outline × Nat) → Nat
  | [] => sum
  | (node k cs, depth) :: rest =>
    scorePending name (addScore sum (k.charge name depth)) (enqueue (k.depthBelow depth) cs rest)
termination_by pending => pendingSize pending
decreasing_by
  have hsize := pendingSize_enqueue_le (k.depthBelow depth) cs rest
  simp only [pendingSize, node.sizeOf_spec]
  omega

/-- The cognitive complexity of the function `name` with the given outline. -/
def score (name : String) (o : Outline) : Nat := scorePending name 0 [(o, 0)]

end Outline

end DocGate

/-
DocGate.Proofs.Outline.ExactScore — scores without a ceiling.

`Outline.exact` adds up what the constructs of an outline cost, in numbers of any size.
A score is cut off at every addition, and so are the depths and the costs that go into
it.

* `Outline.score_eq_min_exact` — because costs are never negative, that comes to one cut
  at the end: a depth is cut off only inside a construct that brings the sum to the
  ceiling by itself.
* `IsExactScore` — says by its rules alone what it is to add up exactly.
* `score_eq_capped_sum` — there is one way to do so, which the score follows up to the
  ceiling, for every outline and every name.
-/
import DocGate.Outline.Score
import Mathlib.Algebra.Ring.Nat
import Mathlib.Logic.ExistsUnique

namespace DocGate

@[simp] theorem addScore_le (a b : Nat) : addScore a b ≤ scoreCeiling := Nat.min_le_left _ _

/-- A sum that has been cut off once is cut off in the same way by what is added later. -/
theorem min_addScore_add (a b c : Nat) :
    min scoreCeiling (addScore a b + c) = min scoreCeiling (a + b + c) := by
  unfold addScore
  omega

namespace Construct

/-- What a construct costs by itself in the function `name`, under `depth` nesting constructs. -/
def cost (name : String) (depth : Nat) : Construct → Nat
  | conditional | loop | handler => depth + 1
  | resource | ternary => 1
  | chain operands => operands - 1
  | call callee => if callee = some name then 2 else 0
  | other => 0

/-- The depth of what is inside a construct. -/
def depthInside (depth : Nat) (k : Construct) : Nat :=
  if k.nests then depth + 1 else depth

/-- What a construct adds to a score is what it costs, up to the ceiling. -/
theorem charge_eq_min (name : String) (depth : Nat) (k : Construct) :
    k.charge name depth = min scoreCeiling (k.cost name depth) := by
  cases k with
  | call callee =>
    by_cases h : callee = some name <;> simp [charge, cost, h, scoreCeiling, UInt32.size]
  | _ => simp [charge, cost, addScore, scoreCeiling, UInt32.size]

theorem cost_of_nests {k : Construct} (h : k.nests) (name : String) (depth : Nat) :
    k.cost name depth = depth + 1 := by
  cases k with
  | conditional | loop | handler => rfl
  | _ => cases h

/-- A depth is cut off only inside a construct that costs more than the ceiling by itself. -/
theorem depthBelow_eq_or_lt_cost (name : String) (depth : Nat) (k : Construct) :
    k.depthBelow depth = k.depthInside depth ∨ scoreCeiling < k.cost name depth := by
  unfold depthBelow depthInside
  cases hk : k.nests with
  | false => exact Or.inl rfl
  | true =>
    rw [cost_of_nests hk, if_pos rfl, if_pos rfl, addScore]
    omega

end Construct

namespace Outline

mutual

/-- What the constructs of an outline cost together, the outline being at a depth. -/
def exact (name : String) (depth : Nat) : Outline → Nat
  | node k cs => k.cost name depth + exactAll name (k.depthInside depth) cs

/-- What the constructs of several outlines cost together. -/
def exactAll (name : String) (depth : Nat) : List Outline → Nat
  | [] => 0
  | c :: cs => exact name depth c + exactAll name depth cs

end

/-- A chain nests nothing and costs one for each operator. -/
theorem exact_chain (name : String) (depth n : Nat) (os : List Outline) :
    exact name depth (.node (.chain n) os) = n - 1 + exactAll name depth os := by
  simp [exact, Construct.cost, Construct.depthInside, Construct.nests]

theorem exactAll_eq_sum (name : String) (depth : Nat) (os : List Outline) :
    exactAll name depth os = (os.map (exact name depth)).sum := by
  induction os with
  | nil => rfl
  | cons o os ih => simp [exactAll, ih]

@[simp] theorem exactAll_append (name : String) (depth : Nat) (os ps : List Outline) :
    exactAll name depth (os ++ ps) = exactAll name depth os + exactAll name depth ps := by
  simp [exactAll_eq_sum]

theorem exact_node (name : String) (depth : Nat) (k : Construct) (cs : List Outline) :
    exact name depth (.node k cs)
      = k.cost name depth + (cs.map (exact name (k.depthInside depth))).sum := by
  rw [exact, exactAll_eq_sum]

/-! ## The run over what waits -/

/-- What the outlines that wait cost together. -/
def exactPending (name : String) (pending : List (Outline × Nat)) : Nat :=
  (pending.map fun p => exact name p.2 p.1).sum

theorem exactPending_cons (name : String) (o : Outline) (depth : Nat)
    (rest : List (Outline × Nat)) :
    exactPending name ((o, depth) :: rest) = exact name depth o + exactPending name rest := by
  simp [exactPending]

theorem exactPending_enqueue (name : String) (depth : Nat) (cs : List Outline)
    (rest : List (Outline × Nat)) :
    exactPending name (enqueue depth cs rest)
      = exactAll name depth cs + exactPending name rest := by
  simp [exactPending, enqueue, exactAll_eq_sum, Function.comp_def]

/-- Taking a construct from what waits leaves the sum that there will be, up to the ceiling. -/
theorem min_step (name : String) (sum depth later : Nat) (k : Construct) (cs : List Outline) :
    min scoreCeiling
        (addScore sum (k.charge name depth) + (exactAll name (k.depthBelow depth) cs + later))
      = min scoreCeiling (sum + (exact name depth (.node k cs) + later)) := by
  rw [min_addScore_add, exact, k.charge_eq_min name depth]
  rcases k.depthBelow_eq_or_lt_cost name depth with hdepth | hcost
  · rw [hdepth]
    omega
  · -- the sum is at the ceiling by now, whatever is inside
    omega

/-- Adding what waits to a score that is within bounds cuts off the exact sum once. -/
theorem scorePending_eq_min (name : String) (sum : Nat) (pending : List (Outline × Nat))
    (hsum : sum ≤ scoreCeiling) :
    scorePending name sum pending = min scoreCeiling (sum + exactPending name pending) := by
  fun_induction scorePending name sum pending with
  | case1 sum =>
    simp only [exactPending, List.map_nil, List.sum_nil]
    omega
  | case2 sum k cs depth rest ih =>
    rw [ih (addScore_le _ _), exactPending_enqueue, exactPending_cons, min_step]

/-- A score is the exact sum of all costs, or the ceiling if that is less. -/
theorem score_eq_min_exact (name : String) (o : Outline) :
    o.score name = min scoreCeiling (o.exact name 0) := by
  have hrun := scorePending_eq_min name 0 [(o, 0)] (Nat.zero_le _)
  simpa [score, exactPending] using hrun

/-! ## The rules of exact scores -/

/-- The rules by which the constructs of an outline at a depth add up to the score of the function
`name`, in numbers of any size. -/
structure IsExactScore (name : String) (S : Nat → Outline → Nat) : Prop where
  nesting : ∀ k ∈ [Construct.conditional, .loop, .handler], ∀ depth cs,
    S depth (.node k cs) = 1 + depth + (cs.map (S (depth + 1))).sum
  single : ∀ k ∈ [Construct.resource, .ternary], ∀ depth cs,
    S depth (.node k cs) = 1 + (cs.map (S depth)).sum
  /-- Without any operand there is no operator either. -/
  chain : ∀ operands depth cs,
    S depth (.node (.chain operands) cs) = (operands - 1) + (cs.map (S depth)).sum
  recursion : ∀ depth cs,
    S depth (.node (.call (some name)) cs) = 2 + (cs.map (S depth)).sum
  call : ∀ callee, callee ≠ some name → ∀ depth cs,
    S depth (.node (.call callee) cs) = (cs.map (S depth)).sum
  other : ∀ depth cs, S depth (.node .other cs) = (cs.map (S depth)).sum

theorem isExactScore_exact (name : String) : IsExactScore name (exact name) where
  nesting k hk depth cs := by
    rw [exact_node, Nat.add_comm 1]
    simp only [List.mem_cons, List.not_mem_nil, or_false] at hk
    rcases hk with rfl | rfl | rfl <;> rfl
  single k hk depth cs := by
    rw [exact_node]
    simp only [List.mem_cons, List.not_mem_nil, or_false] at hk
    rcases hk with rfl | rfl <;> rfl
  chain operands depth cs := exact_node name depth (.chain operands) cs
  recursion depth cs := by
    simp [exact_node, Construct.cost, Construct.depthInside, Construct.nests]
  call callee hcallee depth cs := by
    simp [exact_node, Construct.cost, Construct.depthInside, Construct.nests, hcallee]
  other depth cs := by
    simp [exact_node, Construct.cost, Construct.depthInside, Construct.nests]

/-- The rules say of every construct what it costs and how deep the constructs inside are. -/
theorem IsExactScore.node_eq {name : String} {S : Nat → Outline → Nat} (h : IsExactScore name S)
    (depth : Nat) (k : Construct) (cs : List Outline) :
    S depth (.node k cs) = k.cost name depth + (cs.map (S (k.depthInside depth))).sum := by
  cases k with
  | conditional | loop | handler =>
    rw [h.nesting _ (by simp), Nat.add_comm 1]
    rfl
  | resource | ternary => exact h.single _ (by simp) depth cs
  | chain operands => exact h.chain operands depth cs
  | call callee =>
    by_cases hcallee : callee = some name
    · subst hcallee
      simpa [Construct.cost, Construct.depthInside, Construct.nests] using h.recursion depth cs
    · simpa [Construct.cost, Construct.depthInside, Construct.nests, hcallee]
        using h.call callee hcallee depth cs
  | other => simpa [Construct.cost, Construct.depthInside, Construct.nests] using h.other depth cs

mutual

theorem IsExactScore.eq_exact {name : String} {S : Nat → Outline → Nat}
    (h : IsExactScore name S) : ∀ (depth : Nat) (o : Outline), S depth o = exact name depth o
  | depth, .node k cs => by
      rw [h.node_eq, exact, h.sum_eq_exactAll _ cs]

theorem IsExactScore.sum_eq_exactAll {name : String} {S : Nat → Outline → Nat}
    (h : IsExactScore name S) :
    ∀ (depth : Nat) (os : List Outline), (os.map (S depth)).sum = exactAll name depth os
  | _, [] => rfl
  | depth, o :: os => by
      rw [List.map_cons, List.sum_cons, h.eq_exact depth o, h.sum_eq_exactAll depth os, exactAll]

end

/-- **Scores are exact up to the ceiling.** One function follows the rules of exact scores, and
the score of an outline is what it says of the outline at depth zero, cut off at the largest
number of 32 bits. -/
theorem score_eq_capped_sum (name : String) :
    (∃! S, IsExactScore name S) ∧
    ∀ S, IsExactScore name S → ∀ o : Outline, o.score name = min (2 ^ 32 - 1) (S 0 o) := by
  refine ⟨⟨exact name, isExactScore_exact name, ?_⟩, ?_⟩
  · intro S hS
    funext depth o
    exact hS.eq_exact depth o
  · intro S hS o
    rw [hS.eq_exact 0 o]
    exact score_eq_min_exact name o

end Outline

end DocGate

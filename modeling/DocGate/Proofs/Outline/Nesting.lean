/-
DocGate.Proofs.Outline.Nesting — what nesting costs.

A construct around a piece of code costs something by itself, and if it nests, it also
makes every nesting construct of that piece cost one more. Where the piece stands in its
function decides how deep the new construct is, and nothing else.

* `Context`, `Context.fill` — an outline with a hole in it, and the hole filled.
* `exact_shift` — what depth does to the exact score.
* `exact_fill_add` — the surroundings of a hole cost the same whatever fills it.
* `score_of_wrapped` — a piece with a construct around it, in every context: by how much
  the exact score grows, and that the score does not fall. It grows strictly unless it
  is at the ceiling already.
-/
import DocGate.Proofs.Outline.ExactScore

namespace DocGate

namespace Construct

theorem cost_shift (name : String) (depth extra : Nat) (k : Construct) :
    k.cost name (depth + extra) = k.cost name depth + extra * k.nests.toNat := by
  cases k <;> simp [cost, nests] <;> omega

theorem depthInside_eq (depth : Nat) (k : Construct) :
    k.depthInside depth = depth + k.nests.toNat := by
  cases k <;> simp [depthInside, nests]

end Construct

namespace Outline

mutual

/-- How many conditionals, loops and handlers there are in an outline. -/
def nestingCount : Outline → Nat
  | node k cs => k.nests.toNat + nestingCountAll cs

/-- How many there are in several outlines. -/
def nestingCountAll : List Outline → Nat
  | [] => 0
  | c :: cs => nestingCount c + nestingCountAll cs

end

mutual

/-- So many levels deeper, every nesting construct costs so much more. -/
theorem exact_shift (name : String) (depth extra : Nat) :
    ∀ o : Outline, exact name (depth + extra) o = exact name depth o + extra * o.nestingCount
  | node k cs => by
      have hcs := exactAll_shift name (k.depthInside depth) extra cs
      have hinside : k.depthInside (depth + extra) = k.depthInside depth + extra := by
        rw [k.depthInside_eq, k.depthInside_eq]
        omega
      rw [exact, exact, nestingCount, k.cost_shift, hinside, hcs, Nat.mul_add]
      omega

theorem exactAll_shift (name : String) (depth extra : Nat) :
    ∀ os : List Outline,
      exactAll name (depth + extra) os = exactAll name depth os + extra * nestingCountAll os
  | [] => rfl
  | o :: os => by
      rw [exactAll, exactAll, nestingCountAll, exact_shift name depth extra o,
        exactAll_shift name depth extra os, Nat.mul_add]
      omega

end

/-! ## Outlines with a hole -/

/-- An outline with a hole in the place of one of its nodes. -/
inductive Context where
  | hole
  /-- A construct with the hole somewhere inside one of its children. -/
  | inside (construct : Construct) (before : List Outline) (inner : Context)
      (after : List Outline)

namespace Context

/-- The outline with `o` in the hole. -/
def fill (o : Outline) : Context → Outline
  | hole => o
  | inside k before inner after => .node k (before ++ inner.fill o :: after)

/-- How many conditionals, loops and handlers there are around the hole. -/
def depth : Context → Nat
  | hole => 0
  | inside k _ inner _ => k.nests.toNat + inner.depth

/-- Whatever fills the hole, the surroundings cost the same. -/
theorem exact_fill_add (name : String) (d : Nat) (C : Context) (o p : Outline) :
    exact name d (C.fill o) + exact name (d + C.depth) p
      = exact name d (C.fill p) + exact name (d + C.depth) o := by
  induction C generalizing d with
  | hole => exact Nat.add_comm _ _
  | inside k before inner after ih =>
    have hinner := ih (k.depthInside d)
    have hdepth : k.depthInside d + inner.depth = d + (k.nests.toNat + inner.depth) := by
      rw [k.depthInside_eq]
      omega
    rw [hdepth] at hinner
    simp only [fill, depth, exact, exactAll_append, exactAll]
    omega

/-- One more construct around the hole costs what it costs there, and moves what fills the hole
one level deeper if it nests. -/
theorem exact_fill_wrapped (name : String) (C : Context) (k : Construct) (t : Outline) :
    exact name 0 (C.fill (.node k [t]))
      = exact name 0 (C.fill t) + k.cost name C.depth + k.nests.toNat * t.nestingCount := by
  have hswap := C.exact_fill_add name 0 (.node k [t]) t
  have hshift := exact_shift name C.depth k.nests.toNat t
  rw [Nat.zero_add, exact, exactAll, exactAll, k.depthInside_eq] at hswap
  omega

end Context

/-- **What a construct around some code costs.** Let `t` fill a hole with so many conditionals,
loops and handlers around it. With a conditional, loop or handler around `t` the exact score is
one more than before, and more by the constructs that nest around the hole and inside `t`; with a
resource scope or a conditional expression around it, it is one more. So the score is not less
than before, and more unless it was at the ceiling. -/
theorem score_of_wrapped (C : Context) (t : Outline) (name : String) :
    (∀ k ∈ [Construct.conditional, .loop, .handler],
      (C.fill (.node k [t])).score name
        = min (2 ^ 32 - 1) ((C.fill t).exact name 0 + 1 + C.depth + t.nestingCount)) ∧
    (∀ k ∈ [Construct.resource, .ternary],
      (C.fill (.node k [t])).score name = min (2 ^ 32 - 1) ((C.fill t).exact name 0 + 1)) ∧
    (∀ k ∈ [Construct.conditional, .loop, .handler, .resource, .ternary],
      (C.fill t).score name ≤ (C.fill (.node k [t])).score name ∧
      ((C.fill t).score name = 2 ^ 32 - 1 ∨
        (C.fill t).score name < (C.fill (.node k [t])).score name)) := by
  have hceiling : scoreCeiling = 2 ^ 32 - 1 := rfl
  refine ⟨?_, ?_, ?_⟩
  · intro k hk
    have hcost : k.cost name C.depth = C.depth + 1 ∧ k.nests = true := by
      simp only [List.mem_cons, List.not_mem_nil, or_false] at hk
      rcases hk with rfl | rfl | rfl <;> exact ⟨rfl, rfl⟩
    rw [score_eq_min_exact, C.exact_fill_wrapped, hcost.1, hcost.2, hceiling]
    simp only [Bool.toNat_true, Nat.one_mul]
    omega
  · intro k hk
    have hcost : k.cost name C.depth = 1 ∧ k.nests = false := by
      simp only [List.mem_cons, List.not_mem_nil, or_false] at hk
      rcases hk with rfl | rfl <;> exact ⟨rfl, rfl⟩
    rw [score_eq_min_exact, C.exact_fill_wrapped, hcost.1, hcost.2, hceiling]
    simp only [Bool.toNat_false, Nat.zero_mul, Nat.add_zero]
  · intro k hk
    have hcost : 1 ≤ k.cost name C.depth := by
      simp only [List.mem_cons, List.not_mem_nil, or_false] at hk
      rcases hk with rfl | rfl | rfl | rfl | rfl <;> simp [Construct.cost]
    rw [score_eq_min_exact, score_eq_min_exact, C.exact_fill_wrapped, hceiling]
    omega

/-- The place inside a loop, behind a conditional expression. -/
def Context.insideLoop : Context :=
  .inside .other [] (.inside .loop [.node .ternary []] .hole []) []

/-- A handler around a branch in a loop costs three more: two where it stands and one inside. In
front of a chain of very many operands, it reaches the ceiling. -/
theorem score_of_wrapped_branch :
    (Context.insideLoop.fill (.node .conditional [])).score "f" = 4 ∧
    (Context.insideLoop.fill (.node .handler [.node .conditional []])).score "f" = 7 ∧
    (Context.insideLoop.fill (.node .handler [.node (.chain (2 ^ 32 - 3)) []])).score "f"
      = 2 ^ 32 - 1 := by
  refine ⟨?_, ?_, ?_⟩
  · rw [score_eq_min_exact]
    decide
  · rw [(score_of_wrapped Context.insideLoop (.node .conditional []) "f").1 .handler (by decide)]
    decide
  · rw [(score_of_wrapped Context.insideLoop (.node (.chain (2 ^ 32 - 3)) []) "f").1 .handler
      (by decide)]
    decide

end Outline

end DocGate

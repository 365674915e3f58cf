/-
DocGate.Proofs.Outline.TreeWeight — what the nodes of a tree weigh.

A score is computed on an outline, in which operations with the same boolean operator
have been joined into chains. Here it is told on the tree itself, node by node.

* `Vocabulary` — names the kinds of a language that weigh anything;
  `Vocabulary.Describes` ties it to a reading.
* `Vocabulary.weight`, `Vocabulary.total` — what one node weighs inside so many nesting
  nodes, and that added up over all nodes reached through named children.
* `exactAll_operands` — a chain over `k` operands stands for `k - 1` operations, said of
  the operands among some siblings.
* `exact_lower` — the exact score of the outline is the total of the tree, whatever the
  way in which operations are nested in one another.

The side condition is `Vocabulary.Binary`: every boolean operation in the tree has two
operands.
-/
import DocGate.Proofs.Grammar.Preorder
import DocGate.Proofs.Outline.ExactScore
import DocGate.Proofs.Outline.Lowering
import Mathlib.Algebra.Ring.Nat

namespace DocGate

open Grammar

/-- How many of the siblings are named. -/
def Grammar.ParseTree.namedCount {κ : Type} (cs : List (ParseTree κ)) : Nat :=
  cs.countP ParseTree.isNamed

theorem Grammar.ParseTree.namedCount_cons_named {κ : Type} {c : ParseTree κ} (hc : c.isNamed)
    (cs : List (ParseTree κ)) : namedCount (c :: cs) = namedCount cs + 1 := by
  simp [namedCount, hc]

theorem Grammar.ParseTree.namedCount_cons_unnamed {κ : Type} {c : ParseTree κ}
    (hc : ¬ c.isNamed) (cs : List (ParseTree κ)) : namedCount (c :: cs) = namedCount cs := by
  simp [namedCount, hc]

/-- The kinds of a language that weigh in a score. -/
structure Vocabulary (κ : Type) where
  /-- Conditionals, loops and handlers of exceptions. -/
  nesting : List κ
  /-- Resource scopes and conditional expressions. -/
  single : List κ
  /-- Operations with an operator, and the spellings of those that evaluate their right operand
  only if need be. -/
  operation : κ
  operators : List String
  call : κ
  /-- A plain name. -/
  identifier : κ

namespace Vocabulary

variable {κ : Type} [DecidableEq κ]

/-- Whether a node nests what is inside it. -/
def nests (v : Vocabulary κ) (t : ParseTree κ) : Bool := t.kind ∈ v.nesting

/-- Whether a node is a short-circuit operation. -/
def shortCircuits (v : Vocabulary κ) (t : ParseTree κ) : Bool :=
  t.kind = v.operation && (t.child? .operator).any fun c => c.text ∈ v.operators

/-- Whether a node calls a function by its plain name. -/
def calls (v : Vocabulary κ) (name : String) (t : ParseTree κ) : Bool :=
  t.kind = v.call && (t.child? .callee).any fun c => c.kind = v.identifier && c.text = name

/-- The plain name in the place of what a node calls. -/
def callee? (v : Vocabulary κ) (t : ParseTree κ) : Option String :=
  match t.child? .callee with
  | some c => if c.kind = v.identifier then some c.text else none
  | none => none

/-- What a node weighs in the function `name` inside so many nesting nodes. -/
def weight (v : Vocabulary κ) (name : String) (around : Nat) (t : ParseTree κ) : Nat :=
  if v.nests t then 1 + around
  else if t.kind ∈ v.single then 1
  else if v.shortCircuits t then 1
  else if v.calls name t then 2
  else 0

/-- What a node inside a tree weighs. -/
def weightOf (v : Vocabulary κ) (name : String) (o : ParseTree.Occurrence κ) : Nat :=
  v.weight name (o.ancestors.countP v.nests) o.node

/-- What all nodes weigh together that are reached through named children. -/
def total (v : Vocabulary κ) (name : String) (t : ParseTree κ) : Nat :=
  (t.occurrences.map (v.weightOf name)).sum

/-- Every short-circuit operation of a tree has two operands. -/
def Binary (v : Vocabulary κ) (t : ParseTree κ) : Prop :=
  ∀ n ∈ t.preorder, v.shortCircuits n → n.namedChildren.length = 2

theorem Binary.of_mem {v : Vocabulary κ} {t u : ParseTree κ} (h : v.Binary t)
    (hu : u ∈ t.preorder) : v.Binary u :=
  fun n hn => h n (ParseTree.mem_preorder_trans hn hu)

theorem Binary.of_child {v : Vocabulary κ} {t c : ParseTree κ} (h : v.Binary t)
    (hc : c ∈ t.children) (hn : c.isNamed) : v.Binary c := by
  have hv : c ∈ t.visibleChildren :=
    List.mem_filter.mpr ⟨hc, ParseTree.isVisible_of_isNamed hn⟩
  exact h.of_mem (ParseTree.mem_preorder_of_child hv (ParseTree.mem_preorder_self c))

theorem kind_of_shortCircuits {v : Vocabulary κ} {t : ParseTree κ} (h : v.shortCircuits t) :
    t.kind = v.operation := by
  simp only [shortCircuits, Bool.and_eq_true, decide_eq_true_eq] at h
  exact h.1

theorem calls_eq (v : Vocabulary κ) (name : String) {t : ParseTree κ} (ht : t.kind = v.call) :
    v.calls name t = decide (v.callee? t = some name) := by
  unfold calls callee?
  cases t.child? .callee with
  | none => simp
  | some c => by_cases hc : c.kind = v.identifier <;> simp [ht, hc]

/-- A reading takes for constructs and connectives what the vocabulary says. -/
structure Describes (v : Vocabulary κ) (r : Reading κ) : Prop where
  operation_not_nesting : v.operation ∉ v.nesting
  operation_not_single : v.operation ∉ v.single
  connective_isSome : ∀ t, (r.connective t).isSome = v.shortCircuits t
  construct_nesting : ∀ t, t.kind ∈ v.nesting →
    r.construct t ∈ [Construct.conditional, .loop, .handler]
  construct_single : ∀ t, t.kind ∈ v.single → r.construct t ∈ [Construct.resource, .ternary]
  construct_call : ∀ t, t.kind = v.call → r.construct t = .call (v.callee? t)
  construct_other : ∀ t, t.kind ∉ v.nesting → t.kind ∉ v.single → t.kind ≠ v.call →
    r.construct t = .other

theorem Describes.construct_nests {v : Vocabulary κ} {r : Reading κ} (h : v.Describes r)
    (t : ParseTree κ) : (r.construct t).nests = v.nests t := by
  by_cases hn : t.kind ∈ v.nesting
  · have hc := h.construct_nesting t hn
    simp only [List.mem_cons, List.not_mem_nil, or_false] at hc
    rcases hc with hc | hc | hc <;> simp [nests, hn, hc, Construct.nests]
  · by_cases hs : t.kind ∈ v.single
    · have hc := h.construct_single t hs
      simp only [List.mem_cons, List.not_mem_nil, or_false] at hc
      rcases hc with hc | hc <;> simp [nests, hn, hc, Construct.nests]
    · by_cases hk : t.kind = v.call
      · simp [nests, hn, h.construct_call t hk, Construct.nests]
      · simp [nests, hn, h.construct_other t hn hs hk, Construct.nests]

/-- A node that is no operation weighs what its construct costs. -/
theorem Describes.construct_cost {v : Vocabulary κ} {r : Reading κ} (h : v.Describes r)
    (name : String) (d : Nat) {t : ParseTree κ} (ht : v.shortCircuits t = false) :
    (r.construct t).cost name d = v.weight name d t := by
  by_cases hn : t.kind ∈ v.nesting
  · have hc := h.construct_nesting t hn
    simp only [List.mem_cons, List.not_mem_nil, or_false] at hc
    rcases hc with hc | hc | hc <;> simp [weight, nests, hn, hc, Construct.cost, Nat.add_comm]
  · by_cases hs : t.kind ∈ v.single
    · have hc := h.construct_single t hs
      simp only [List.mem_cons, List.not_mem_nil, or_false] at hc
      rcases hc with hc | hc <;> simp [weight, nests, hn, hs, hc, Construct.cost]
    · by_cases hk : t.kind = v.call
      · simp [weight, nests, hn, hs, ht, h.construct_call t hk, Construct.cost, calls_eq v name hk]
      · have hcalls : v.calls name t = false := by simp [calls, hk]
        simp [weight, nests, hn, hs, ht, h.construct_other t hn hs hk, Construct.cost, hcalls]

/-- An operation does not nest what is inside it. -/
theorem Describes.operation_nests {v : Vocabulary κ} {r : Reading κ} (h : v.Describes r)
    {t : ParseTree κ} (ht : v.shortCircuits t) : v.nests t = false := by
  have hk := kind_of_shortCircuits ht
  simp [nests, hk, h.operation_not_nesting]

theorem Describes.operation_weight {v : Vocabulary κ} {r : Reading κ} (h : v.Describes r)
    (name : String) (d : Nat) {t : ParseTree κ} (ht : v.shortCircuits t) :
    v.weight name d t = 1 := by
  have hk := kind_of_shortCircuits ht
  simp [weight, h.operation_nests ht, ht, hk, h.operation_not_single]

end Vocabulary

namespace Reading

variable {κ : Type} [DecidableEq κ] {v : Vocabulary κ} {r : Reading κ}

open Vocabulary ParseTree Outline

/-- What is inside an operation is no deeper than the operation. -/
theorem countP_cons_operation (h : v.Describes r) {t : ParseTree κ} (ht : v.shortCircuits t)
    (ancestors : List (ParseTree κ)) :
    (t :: ancestors).countP v.nests = ancestors.countP v.nests := by
  rw [List.countP_cons, h.operation_nests ht]
  simp

/-- A construct and the node that it comes from agree on the depth of what is inside. -/
theorem depthInside_construct (h : v.Describes r) (t : ParseTree κ)
    (ancestors : List (ParseTree κ)) :
    (r.construct t).depthInside (ancestors.countP v.nests)
      = (t :: ancestors).countP v.nests := by
  rw [Construct.depthInside, h.construct_nests t, List.countP_cons]
  split <;> rfl

/-- What the listing of siblings weighs together. -/
def weightAll (v : Vocabulary κ) (name : String) (ancestors : List (ParseTree κ))
    (cs : List (ParseTree κ)) : Nat :=
  ((occurrencesAll ancestors cs).map (v.weightOf name)).sum

theorem weightAll_cons_named (name : String) (ancestors : List (ParseTree κ)) {c : ParseTree κ}
    (hc : c.isNamed) (cs : List (ParseTree κ)) :
    weightAll v name ancestors (c :: cs)
      = ((occurrencesFrom ancestors c).map (v.weightOf name)).sum
        + weightAll v name ancestors cs := by
  simp [weightAll, occurrencesAll, hc]

theorem weightAll_cons_unnamed (name : String) (ancestors : List (ParseTree κ)) {c : ParseTree κ}
    (hc : ¬ c.isNamed) (cs : List (ParseTree κ)) :
    weightAll v name ancestors (c :: cs) = weightAll v name ancestors cs := by
  simp [weightAll, occurrencesAll, hc]

theorem namedCount_operation {k : κ} {ro : Role} {f : Option Field} {row : Nat} {s : String}
    {cs : List (ParseTree κ)} (ht : v.Binary (.node k ro f row s cs))
    (hs : v.shortCircuits (.node k ro f row s cs)) : namedCount cs = 2 := by
  rw [namedCount, List.countP_eq_length_filter]
  exact ht _ (mem_preorder_self _) hs

theorem shortCircuits_of_connective (h : v.Describes r) {t : ParseTree κ} {op : Connective}
    (hop : r.connective t = some op) : v.shortCircuits t = true := by
  rw [← h.connective_isSome, hop]
  rfl

/-- A node weighs what it weighs by itself and what is below it. -/
theorem weight_occurrencesFrom (name : String) (ancestors : List (ParseTree κ))
    (k : κ) (ro : Role) (f : Option Field) (row : Nat) (s : String) (cs : List (ParseTree κ)) :
    ((occurrencesFrom ancestors (.node k ro f row s cs)).map (v.weightOf name)).sum
      = v.weight name (ancestors.countP v.nests) (.node k ro f row s cs)
        + weightAll v name (.node k ro f row s cs :: ancestors) cs := by
  simp [occurrencesFrom, weightAll, weightOf]

mutual

/-- The outline of a tree inside `ancestors` costs what the nodes of the tree weigh. -/
theorem exact_lower_inside (h : v.Describes r) (name : String) :
    ∀ (ancestors : List (ParseTree κ)) (t : ParseTree κ), v.Binary t →
      exact name (ancestors.countP v.nests) (r.lower t)
        = ((occurrencesFrom ancestors t).map (v.weightOf name)).sum
  | ancestors, .node k ro f row s cs, ht => by
      have hb : ∀ c ∈ cs, c.isNamed → v.Binary c := fun c hc hn => ht.of_child hc hn
      rw [weight_occurrencesFrom]
      cases hop : r.connective (.node k ro f row s cs) with
      | none =>
        have hs : v.shortCircuits (.node k ro f row s cs) = false := by
          rw [← h.connective_isSome, hop]
          rfl
        rw [lower_plain hop, exact, h.construct_cost name _ hs,
          depthInside_construct h _ ancestors, ParseTree.namedChildren, ParseTree.children,
          exactAll_lower h name _ cs hb]
      | some op =>
        have hs := shortCircuits_of_connective h hop
        have htwo := namedCount_operation ht hs
        have hcost := exactAll_operands h name op (.node k ro f row s cs :: ancestors) cs hb
        have hlen := le_length_operands h op cs hb
        rw [countP_cons_operation h hs] at hcost
        rw [lower_operation hop, exact_chain, h.operation_weight name _ hs,
          ParseTree.namedChildren, ParseTree.children]
        omega

/-- The outlines of siblings cost what the listing of the siblings weighs. -/
theorem exactAll_lower (h : v.Describes r) (name : String) :
    ∀ (ancestors : List (ParseTree κ)) (cs : List (ParseTree κ)),
      (∀ c ∈ cs, c.isNamed → v.Binary c) →
      exactAll name (ancestors.countP v.nests) ((cs.filter isNamed).map r.lower)
        = weightAll v name ancestors cs
  | ancestors, [], _ => by simp [exactAll, weightAll, occurrencesAll]
  | ancestors, c :: cs, hb => by
      have hcs := exactAll_lower h name ancestors cs
        fun d hd => hb d (List.mem_cons_of_mem _ hd)
      by_cases hc : c.isNamed
      · rw [List.filter_cons_of_pos hc, List.map_cons, exactAll,
          weightAll_cons_named name ancestors hc, hcs,
          exact_lower_inside h name ancestors c (hb c List.mem_cons_self hc)]
      · rw [List.filter_cons_of_neg hc, weightAll_cons_unnamed name ancestors hc, hcs]

/-- The invariant of collecting a chain: costs and operands together are the weights and the
named siblings. An operand adds its cost and one on both sides; an operation that is looked
through has two operands for the one it weighs and the one it is. -/
theorem exactAll_operands (h : v.Describes r) (name : String) (op : Connective) :
    ∀ (ancestors : List (ParseTree κ)) (cs : List (ParseTree κ)),
      (∀ c ∈ cs, c.isNamed → v.Binary c) →
      exactAll name (ancestors.countP v.nests) ((r.operands op (cs.filter isNamed)).map r.lower)
          + (r.operands op (cs.filter isNamed)).length
        = weightAll v name ancestors cs + namedCount cs
  | ancestors, [], _ => by
      simp [exactAll, weightAll, occurrencesAll, namedCount]
  | ancestors, .node k ro f row s inner :: cs, hb => by
      have hcs := exactAll_operands h name op ancestors cs
        fun d hd => hb d (List.mem_cons_of_mem _ hd)
      by_cases hc : (ParseTree.node k ro f row s inner).isNamed
      · have hbc := hb _ List.mem_cons_self hc
        rw [List.filter_cons_of_pos hc, weightAll_cons_named name ancestors hc,
          namedCount_cons_named hc]
        by_cases hop : r.connective (.node k ro f row s inner) = some op
        · -- the same operator: its operands go on with the chain
          have hs := shortCircuits_of_connective h hop
          have hinner := exactAll_operands h name op
            (.node k ro f row s inner :: ancestors) inner fun d hd => hbc.of_child hd
          rw [countP_cons_operation h hs, namedCount_operation hbc hs] at hinner
          rw [operands_cons_operation hop, operands_append, List.map_append, exactAll_append,
            List.length_append, weight_occurrencesFrom, h.operation_weight name _ hs,
            ParseTree.namedChildren, ParseTree.children]
          omega
        · -- an operand
          rw [operands_cons_operand hop, List.map_cons, exactAll,
            exact_lower_inside h name ancestors _ hbc, List.length_cons]
          omega
      · rw [List.filter_cons_of_neg hc, weightAll_cons_unnamed name ancestors hc,
          namedCount_cons_unnamed hc]
        exact hcs

/-- A chain has at least as many operands as its topmost operation. -/
theorem le_length_operands (h : v.Describes r) (op : Connective) :
    ∀ (cs : List (ParseTree κ)), (∀ c ∈ cs, c.isNamed → v.Binary c) →
      namedCount cs ≤ (r.operands op (cs.filter isNamed)).length
  | [], _ => by simp [namedCount]
  | .node k ro f row s inner :: cs, hb => by
      have hcs := le_length_operands h op cs fun d hd => hb d (List.mem_cons_of_mem _ hd)
      by_cases hc : (ParseTree.node k ro f row s inner).isNamed
      · have hbc := hb _ List.mem_cons_self hc
        rw [List.filter_cons_of_pos hc, namedCount_cons_named hc]
        by_cases hop : r.connective (.node k ro f row s inner) = some op
        · have hs := shortCircuits_of_connective h hop
          have hinner := le_length_operands h op inner fun d hd => hbc.of_child hd
          rw [namedCount_operation hbc hs] at hinner
          rw [operands_cons_operation hop, operands_append, List.length_append,
            ParseTree.namedChildren, ParseTree.children]
          omega
        · rw [operands_cons_operand hop, List.length_cons]
          omega
      · rw [List.filter_cons_of_neg hc, namedCount_cons_unnamed hc]
        exact hcs

end

/-- Where operations have two operands, the exact score of the outline of a tree is the total
weight of the tree. -/
theorem exact_lower (h : v.Describes r) (name : String) (t : ParseTree κ) (ht : v.Binary t) :
    exact name 0 (r.lower t) = v.total name t :=
  exact_lower_inside h name [] t ht

end Reading

end DocGate

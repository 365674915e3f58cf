/-
DocGate.Proofs.Outline.UnitScore — what the score of a function means.

* `Python.vocabulary`, `Script.vocabulary` — the vocabularies of the two grammars, with
  the proof that they describe their readings.
* `unit_score_eq_capped_total` — the score of every unit is the weight of all nodes of
  the function, each counted once with the nesting around it, cut off at the ceiling.

The side condition is that boolean operations have two operands (`Vocabulary.Binary`). A
function inside another one counts in both.
-/
import DocGate.Proofs.Outline.TreeWeight
import DocGate.Python.Units
import DocGate.Script.Units

namespace DocGate

open Grammar

namespace Python

/-- What weighs in a Python file. -/
def vocabulary : Vocabulary Kind where
  nesting := [.ifStatement, .elifClause, .forStatement, .whileStatement, .exceptClause]
  single := [.withStatement, .conditionalExpression]
  operation := .booleanOperation
  operators := ["and", "or"]
  call := .call
  identifier := .identifier

theorem callee?_eq (t : ParseTree Kind) : vocabulary.callee? t = calleeName t := by
  unfold Vocabulary.callee? calleeName
  cases t.child? .callee <;> rfl

theorem connectiveOf_isSome (t : ParseTree Kind) :
    (connectiveOf t).isSome = vocabulary.shortCircuits t := by
  simp only [connectiveOf, Vocabulary.shortCircuits, vocabulary]
  by_cases hk : t.kind = .booleanOperation
  · cases t.child? .operator with
    | none => simp [hk]
    | some c =>
      by_cases h₁ : c.text = "and" <;> by_cases h₂ : c.text = "or" <;> simp [hk, h₁, h₂]
  · simp [hk]

theorem vocabulary_describes : vocabulary.Describes reading where
  operation_not_nesting := by decide
  operation_not_single := by decide
  connective_isSome := connectiveOf_isSome
  construct_nesting t h := by
    simp only [vocabulary, List.mem_cons, List.not_mem_nil, or_false] at h
    rcases h with h | h | h | h | h <;> simp [reading, constructOf, h]
  construct_single t h := by
    simp only [vocabulary, List.mem_cons, List.not_mem_nil, or_false] at h
    rcases h with h | h <;> simp [reading, constructOf, h]
  construct_call t h := by
    have hk : t.kind = .call := h
    simp only [reading, constructOf, hk, callee?_eq]
  construct_other t hn hs hc := by
    simp only [vocabulary] at hn hs hc
    simp only [reading, constructOf]
    cases hk : t.kind <;> simp_all

end Python

namespace Script

/-- What weighs in a script. -/
def vocabulary : Vocabulary Kind where
  nesting := [.ifStatement, .switchStatement, .forStatement, .forInStatement, .whileStatement,
    .doStatement, .catchClause]
  single := [.ternaryExpression]
  operation := .binaryExpression
  operators := ["&&", "||", "??"]
  call := .call
  identifier := .identifier

theorem callee?_eq (t : ParseTree Kind) : vocabulary.callee? t = calleeName t := by
  unfold Vocabulary.callee? calleeName
  cases t.child? .callee <;> rfl

theorem connectiveOf_isSome (t : ParseTree Kind) :
    (connectiveOf t).isSome = vocabulary.shortCircuits t := by
  simp only [connectiveOf, Vocabulary.shortCircuits, vocabulary]
  by_cases hk : t.kind = .binaryExpression
  · cases t.child? .operator with
    | none => simp [hk]
    | some c =>
      by_cases h₁ : c.text = "&&" <;> by_cases h₂ : c.text = "||" <;>
        by_cases h₃ : c.text = "??" <;> simp [hk, h₁, h₂, h₃]
  · simp [hk]

theorem vocabulary_describes : vocabulary.Describes reading where
  operation_not_nesting := by decide
  operation_not_single := by decide
  connective_isSome := connectiveOf_isSome
  construct_nesting t h := by
    simp only [vocabulary, List.mem_cons, List.not_mem_nil, or_false] at h
    rcases h with h | h | h | h | h | h | h <;> simp [reading, constructOf, h]
  construct_single t h := by
    simp only [vocabulary, List.mem_cons, List.not_mem_nil, or_false] at h
    simp [reading, constructOf, h]
  construct_call t h := by
    have hk : t.kind = .call := h
    simp only [reading, constructOf, hk, callee?_eq]
  construct_other t hn hs hc := by
    simp only [vocabulary] at hn hs hc
    simp only [reading, constructOf]
    cases hk : t.kind <;> simp_all

mutual

/-- The sited nodes of a tree are its visible nodes. -/
theorem map_tree_sitedOnto (around : List (ParseTree Kind)) (later : List Sited) :
    ∀ t : ParseTree Kind,
      (sitedOnto around later t).map Sited.tree = t.preorderOnto (later.map Sited.tree)
  | .node k r f row s cs => by
      rw [sitedOnto, List.map_cons, map_tree_sitedAllOnto _ later cs]
      rfl

theorem map_tree_sitedAllOnto (around : List (ParseTree Kind)) (later : List Sited) :
    ∀ cs : List (ParseTree Kind),
      (sitedAllOnto around later cs).map Sited.tree
        = ParseTree.preorderAllOnto (later.map Sited.tree) cs
  | [] => rfl
  | c :: cs => by
      simp only [sitedAllOnto, ParseTree.preorderAllOnto]
      rw [← map_tree_sitedAllOnto around later cs]
      split
      · exact map_tree_sitedOnto around _ c
      · rfl

end

theorem tree_mem_preorder {t : ParseTree Kind} {n : Sited} (hn : n ∈ sited t) :
    n.tree ∈ t.preorder := by
  have h := List.mem_map_of_mem (f := Sited.tree) hn
  rwa [sited, map_tree_sitedOnto] at h

end Script

/-- The score of a unit whose outline comes from a tree in which operations have two operands. -/
theorem score_eq_min_total {κ : Type} [DecidableEq κ] {v : Vocabulary κ} {r : Reading κ}
    (h : v.Describes r) {t : ParseTree κ} (ht : v.Binary t) (f : FunctionUnit)
    (hf : f.outline = r.lower t) :
    f.score = min (2 ^ 32 - 1) (v.total f.name t) := by
  rw [FunctionUnit.score, hf, Outline.score_eq_min_exact, r.exact_lower h f.name t ht]
  rfl

/-- **What a score means.** Let every short-circuit operation of a tree have two operands. Then
the score of every unit that the tree declares is the weight of all nodes of its function, cut
off at the largest number of 32 bits, in both grammars. The nodes inside a node of the function,
be it a function itself, are one stretch of the nodes that are weighed. -/
theorem unit_score_eq_capped_total :
    (∀ t : ParseTree Python.Kind, Python.vocabulary.Binary t →
      ∀ u ∈ t.preorder, ∀ f : FunctionUnit, Python.unitOf u = some f →
        f.score = min (2 ^ 32 - 1) (Python.vocabulary.total f.name u)) ∧
    (∀ (lines : Array String) (t : ParseTree Script.Kind), Script.vocabulary.Binary t →
      ∀ n ∈ Script.sited t, ∀ f : FunctionUnit, Script.unitOf lines n = some f →
        f.score = min (2 ^ 32 - 1) (Script.vocabulary.total f.name n.tree)) ∧
    (∀ (κ : Type) (u : ParseTree κ), ∀ o ∈ u.occurrences,
      o.node.occurrencesFrom o.ancestors <:+: u.occurrences) := by
  refine ⟨?_, ?_, ?_⟩
  · intro t ht u hu f hf
    have hout : f.outline = Python.reading.lower u := by
      simp only [Python.unitOf] at hf
      split at hf
      · obtain ⟨name, -, rfl⟩ := Option.map_eq_some_iff.mp hf
        rfl
      · cases hf
    exact score_eq_min_total Python.vocabulary_describes (ht.of_mem hu) f hout
  · intro lines t ht n hn f hf
    have hout : f.outline = Script.reading.lower n.tree := by
      obtain ⟨name, -, rfl⟩ := Option.map_eq_some_iff.mp hf
      rfl
    exact score_eq_min_total Script.vocabulary_describes
      (ht.of_mem (Script.tree_mem_preorder hn)) f hout
  · intro κ u o ho
    exact ParseTree.occurrencesFrom_within [] u o ho

/-- The tree of a function `f` that calls itself under the condition `a and b and c`, with a
comment in the condition. -/
def Python.recursiveBranch : ParseTree Python.Kind :=
  let named (k : Kind) (cs : List (ParseTree Kind)) : ParseTree Kind := .node k .named none 0 "" cs
  let name (s : String) : ParseTree Kind := .leaf .identifier .named 0 s
  let and (a b : ParseTree Kind) : ParseTree Kind :=
    named .booleanOperation
      [a, .leaf .comment .extra 0 "# and",
        (ParseTree.leaf .mark .anonymous 0 "and").inField .operator, b]
  named .functionDefinition
    [(name "f").inField .name,
      (named .block
        [named .ifStatement
          [and (and (name "a") (name "b")) (name "c"),
            named .block [named .call [(name "f").inField .callee]]]]).inField .body]

/-- The tree of a function `g` that in a loop calls itself under the condition `a && b || c`. -/
def Script.recursiveLoop : ParseTree Script.Kind :=
  let named (k : Kind) (cs : List (ParseTree Kind)) : ParseTree Kind := .node k .named none 0 "" cs
  let name (s : String) : ParseTree Kind := .leaf .identifier .named 0 s
  let binary (op : String) (a b : ParseTree Kind) : ParseTree Kind :=
    named .binaryExpression [a, (ParseTree.leaf .mark .anonymous 0 op).inField .operator, b]
  named .functionDeclaration
    [(name "g").inField .name,
      (named .block
        [named .whileStatement
          [named .ifStatement
            [binary "||" (binary "&&" (name "a") (name "b")) (name "c"),
              named .call [(name "g").inField .callee]]]]).inField .body]

/-- A branch, two operators and a recursive call cost five; in a loop, the branch costs one more
and the loop one. -/
theorem unit_score_of_recursion :
    (∃ f, Python.unitOf Python.recursiveBranch = some f ∧ f.score = 5) ∧
    (∃ g, Script.unitOf #[] ⟨Script.recursiveLoop, []⟩ = some g ∧ g.score = 7) := by
  refine ⟨⟨_, rfl, ?_⟩, ⟨_, rfl, ?_⟩⟩
  · rw [unit_score_eq_capped_total.1 Python.recursiveBranch
      (by unfold Vocabulary.Binary; decide) _ (ParseTree.mem_preorder_self _) _ rfl]
    decide
  · rw [unit_score_eq_capped_total.2.1 #[] Script.recursiveLoop
      (by unfold Vocabulary.Binary; decide) ⟨Script.recursiveLoop, []⟩ List.mem_cons_self _ rfl]
    decide

end DocGate

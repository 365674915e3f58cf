/-
DocGate.Proofs.Outline.Enclosing — functions inside functions.

Every unit is lowered on its own, and so is a unit inside another one. The outline of
the inner unit is nevertheless a part of the outline of the outer one. From there it is
a matter of scores.

* `Reading.exists_fill_lower` — lowering takes apart operations that belong to a chain,
  and nothing else, so it leaves a function in one piece.
* `Outline.score_le_score_fill` — a part of an outline costs no less where it stands
  than it costs alone.
* `Outline.exact_rename` — under another name a part costs two less for each call of the
  old name and two more for each call of the new one.
* `score_of_enclosing_unit` — so the score of the outer unit is at least that of the
  inner one, up to calls of the inner one's own name.

The side condition is that no function stands in a comment
(`ParseTree.OutsideComments`). Lowering does not look there, and the search for units
does.
-/
import DocGate.Proofs.Outline.Nesting
import DocGate.Proofs.Outline.UnitScore

namespace DocGate

open Grammar

/-! ## Ways down through named children -/

namespace Grammar.ParseTree

variable {κ : Type}

/-- The node `v` is `u` or is reached from `u` through named children. -/
def Reaches (u v : ParseTree κ) : Prop :=
  Relation.ReflTransGen (fun t c => c ∈ t.namedChildren) u v

theorem Reaches.of_child {u c v : ParseTree κ} (hc : c ∈ u.namedChildren) (h : c.Reaches v) :
    u.Reaches v :=
  .head hc h

theorem Reaches.eq_or_child {u v : ParseTree κ} (h : u.Reaches v) :
    u = v ∨ ∃ c ∈ u.namedChildren, c.Reaches v :=
  Relation.ReflTransGen.cases_head h

/-- A kind that `p` holds for is found neither among the comments of a tree nor inside them. -/
def OutsideComments (p : κ → Bool) (t : ParseTree κ) : Prop :=
  ∀ e ∈ t.preorder, e.isExtra → ∀ v ∈ e.preorder, p v.kind = false

theorem OutsideComments.of_mem {p : κ → Bool} {t u : ParseTree κ} (h : t.OutsideComments p)
    (hu : u ∈ t.preorder) : u.OutsideComments p :=
  fun e he => h e (mem_preorder_trans he hu)

/-- The way to a node that is outside the comments leads through named children. -/
theorem OutsideComments.reaches {p : κ → Bool} {u v : ParseTree κ} (h : u.OutsideComments p)
    (hv : v ∈ u.preorder) (hp : p v.kind) : u.Reaches v := by
  induction u using inductionOn with
  | node k r f row s cs ih =>
    rw [preorder_eq_cons] at hv
    rcases List.mem_cons.mp hv with rfl | hv
    · exact .refl
    · obtain ⟨c, hc, hvc⟩ := List.mem_flatMap.mp hv
      obtain ⟨hmem, hvisible⟩ := List.mem_filter.mp hc
      have hcu : c ∈ (ParseTree.node k r f row s cs).preorder :=
        mem_preorder_of_child hc (mem_preorder_self c)
      have hextra : ¬ c.isExtra := by
        intro he
        have hout := h c hcu he v hvc
        rw [hp] at hout
        cases hout
      have hnamed : c.isNamed := by
        simp only [isVisible, isExtra, isNamed, bne_iff_ne, beq_iff_eq] at hvisible hextra ⊢
        cases hrole : c.role with
        | named => rfl
        | anonymous => exact absurd hrole hvisible
        | extra => exact absurd hrole hextra
      exact .of_child (List.mem_filter.mpr ⟨hmem, hnamed⟩) (ih c hmem (h.of_mem hcu) hvc)

end Grammar.ParseTree

/-! ## The outline of a node inside another one -/

namespace Reading

open ParseTree

variable {κ : Type} {r : Reading κ} {op : Connective} {u v : ParseTree κ}

/-- Looking through an operation loses no way to a node, unless it is the operation itself. -/
theorem Replaces.exists_reaches {ts us : List (ParseTree κ)} (h : r.Replaces op ts us)
    (hv : r.connective v = none) (hts : ∃ c ∈ ts, c.Reaches v) : ∃ c ∈ us, c.Reaches v := by
  obtain ⟨before, after, t, ht⟩ := h
  obtain ⟨c, hc, hreaches⟩ := hts
  rcases List.mem_append.mp hc with hc | hc
  · exact ⟨c, List.mem_append_left _ hc, hreaches⟩
  · rcases List.mem_cons.mp hc with rfl | hc
    · rcases hreaches.eq_or_child with rfl | ⟨d, hd, hreaches⟩
      · rw [hv] at ht
        cases ht
      · exact ⟨d, List.mem_append_right _ (List.mem_append_left _ hd), hreaches⟩
    · exact ⟨c, List.mem_append_right _ (List.mem_append_right _ hc), hreaches⟩

/-- What is inside a chain is inside one of its operands. -/
theorem exists_operand_reaches (op : Connective) {ts : List (ParseTree κ)}
    (hv : r.connective v = none) (hts : ∃ c ∈ ts, c.Reaches v) :
    ∃ c ∈ r.operands op ts, c.Reaches v := by
  have hreached : Relation.ReflTransGen (r.Replaces op) ts (r.operands op ts) :=
    (areOperands_operands ts).1
  generalize r.operands op ts = os at hreached ⊢
  induction hreached with
  | refl => exact hts
  | tail _ hstep ih => exact hstep.exists_reaches hv ih

theorem exists_fill_map_lower {ts : List (ParseTree κ)} {c : ParseTree κ} (hc : c ∈ ts)
    {C : Outline.Context} (hC : r.lower c = C.fill (r.lower v)) (k : Construct) :
    ∃ C : Outline.Context, .node k (ts.map r.lower) = C.fill (r.lower v) := by
  obtain ⟨before, after, rfl⟩ := List.append_of_mem hc
  refine ⟨.inside k (before.map r.lower) C (after.map r.lower), ?_⟩
  rw [Outline.Context.fill, ← hC, List.map_append, List.map_cons]

/-- The outline of a node that is no operation is a part of the outline of every node that
reaches it. -/
theorem exists_fill_lower (hv : r.connective v = none) (h : u.Reaches v) :
    ∃ C : Outline.Context, r.lower u = C.fill (r.lower v) := by
  induction u using r.operandInduction with
  | operation t op ht ih =>
    rcases h.eq_or_child with rfl | hchild
    · exact ⟨.hole, rfl⟩
    · obtain ⟨c, hc, hreaches⟩ := exists_operand_reaches op hv hchild
      obtain ⟨C, hC⟩ := ih c hc hreaches
      rw [lower_operation ht]
      exact exists_fill_map_lower hc hC _
  | plain t ht ih =>
    rcases h.eq_or_child with rfl | ⟨c, hc, hreaches⟩
    · exact ⟨.hole, rfl⟩
    · obtain ⟨C, hC⟩ := ih c hc hreaches
      rw [lower_plain ht]
      exact exists_fill_map_lower hc hC _

end Reading

/-! ## What a part costs -/

namespace Outline

/-- What fills a hole costs no more than the whole. -/
theorem Context.exact_le_exact_fill (name : String) (d : Nat) (C : Context) (o : Outline) :
    exact name (d + C.depth) o ≤ exact name d (C.fill o) := by
  induction C generalizing d with
  | hole => exact Nat.le_refl _
  | inside k before inner after ih =>
    have hinner := ih (k.depthInside d)
    rw [k.depthInside_eq, Nat.add_assoc, ← k.depthInside_eq] at hinner
    simp only [fill, depth, exact, exactAll_append, exactAll]
    omega

/-- Alone a part costs no more than inside the whole, where it may be nested. -/
theorem score_le_score_fill (name : String) (C : Context) (o : Outline) :
    o.score name ≤ (C.fill o).score name := by
  have hdeeper := exact_shift name 0 C.depth o
  have hwhole := C.exact_le_exact_fill name 0 o
  rw [score_eq_min_exact, score_eq_min_exact]
  omega

mutual

/-- How many calls of `name` there are in an outline. -/
def callCount (name : String) : Outline → Nat
  | node k cs => (k = .call (some name) : Bool).toNat + callCountAll name cs

/-- How many there are in several outlines. -/
def callCountAll (name : String) : List Outline → Nat
  | [] => 0
  | c :: cs => callCount name c + callCountAll name cs

end

theorem callCountAll_eq_sum (name : String) (os : List Outline) :
    callCountAll name os = (os.map (callCount name)).sum := by
  induction os with
  | nil => rfl
  | cons o os ih => rw [callCountAll, ih, List.map_cons, List.sum_cons]

/-- A construct costs the same under two names but for the calls of either. -/
theorem cost_rename (name other : String) (d : Nat) (k : Construct) :
    k.cost name d + 2 * (k = .call (some other) : Bool).toNat
      = k.cost other d + 2 * (k = .call (some name) : Bool).toNat := by
  cases k with
  | call callee =>
    have hcall (n : String) :
        (Construct.call callee).cost n d = 2 * (decide (callee = some n)).toNat := by
      by_cases h : callee = some n <;> simp [Construct.cost, h]
    simp only [hcall, Construct.call.injEq]
    exact Nat.add_comm _ _
  | _ => simp [Construct.cost]

mutual

/-- An outline costs the same under two names but for the calls of either. -/
theorem exact_rename (name other : String) (d : Nat) :
    ∀ o : Outline,
      exact name d o + 2 * o.callCount other = exact other d o + 2 * o.callCount name
  | node k cs => by
      have hk := cost_rename name other d k
      have hcs := exactAll_rename name other (k.depthInside d) cs
      simp only [exact, callCount]
      omega

theorem exactAll_rename (name other : String) (d : Nat) :
    ∀ os : List Outline,
      exactAll name d os + 2 * callCountAll other os
        = exactAll other d os + 2 * callCountAll name os
  | [] => rfl
  | o :: os => by
      have ho := exact_rename name other d o
      have hos := exactAll_rename name other d os
      simp only [exactAll, callCountAll]
      omega

end

/-- Another name takes at most two off the score for each call of the old one. -/
theorem score_le_score_rename (name other : String) (o : Outline) :
    o.score name ≤ o.score other + 2 * o.callCount name := by
  have hrename := exact_rename name other 0 o
  rw [score_eq_min_exact, score_eq_min_exact]
  omega

end Outline

/-! ## Calls in a tree and in its outline -/

namespace Grammar.ParseTree

variable {κ : Type}

mutual

/-- The nodes of a listing do not depend on what is around the tree. -/
theorem map_node_occurrencesFrom (ancestors : List (ParseTree κ)) :
    ∀ t : ParseTree κ,
      (occurrencesFrom ancestors t).map Occurrence.node
        = t :: t.namedChildren.flatMap fun c => c.occurrences.map Occurrence.node
  | .node k r f row s cs => by
      rw [occurrencesFrom, List.map_cons, map_node_occurrencesAll _ cs]
      rfl

theorem map_node_occurrencesAll (ancestors : List (ParseTree κ)) :
    ∀ cs : List (ParseTree κ),
      (occurrencesAll ancestors cs).map Occurrence.node
        = (cs.filter isNamed).flatMap fun c => c.occurrences.map Occurrence.node
  | [] => rfl
  | c :: cs => by
      have hcs := map_node_occurrencesAll ancestors cs
      by_cases hc : c.isNamed
      · have hinside := map_node_occurrencesFrom ancestors c
        have halone := map_node_occurrencesFrom [] c
        rw [occurrencesAll, if_pos hc, List.map_append, hinside, hcs,
          List.filter_cons_of_pos hc, List.flatMap_cons, occurrences, halone]
      · rw [occurrencesAll, if_neg hc, hcs, List.filter_cons_of_neg hc]

end

end Grammar.ParseTree

namespace Vocabulary

variable {κ : Type} [DecidableEq κ] {v : Vocabulary κ} {r : Reading κ} {name : String}

/-- How many of the nodes of a tree that are reached through named children call `name`. -/
def callCount (v : Vocabulary κ) (name : String) (t : ParseTree κ) : Nat :=
  t.occurrences.countP fun o => v.calls name o.node

theorem callCount_eq (v : Vocabulary κ) (name : String) (t : ParseTree κ) :
    v.callCount name t
      = (v.calls name t).toNat + (t.namedChildren.map (v.callCount name)).sum := by
  have hnodes (u : ParseTree κ) : v.callCount name u
      = (u.occurrences.map ParseTree.Occurrence.node).countP (v.calls name) := by
    rw [callCount, List.countP_map]
    rfl
  rw [hnodes, ParseTree.occurrences, ParseTree.map_node_occurrencesFrom, List.countP_cons,
    List.countP_flatMap, Nat.add_comm, funext hnodes]
  congr 1
  cases v.calls name t <;> rfl

/-- An operation is no call. -/
theorem Describes.calls_operation (h : v.Describes r) (hne : v.operation ≠ v.call)
    {t : ParseTree κ} {op : Connective} (ht : r.connective t = some op) :
    v.calls name t = false := by
  have hk := kind_of_shortCircuits (Reading.shortCircuits_of_connective h ht)
  simp [calls, hk, hne]

/-- The construct of a node is a call where the node is one. -/
theorem Describes.construct_eq_call (h : v.Describes r) (t : ParseTree κ) :
    decide (r.construct t = .call (some name)) = v.calls name t := by
  by_cases hk : t.kind = v.call
  · rw [h.construct_call t hk, calls_eq v name hk]
    simp only [Construct.call.injEq]
  · have hcalls : v.calls name t = false := by simp [calls, hk]
    rw [hcalls, decide_eq_false_iff_not]
    intro hcall
    by_cases hn : t.kind ∈ v.nesting
    · simpa [hcall] using h.construct_nesting t hn
    · by_cases hs : t.kind ∈ v.single
      · simpa [hcall] using h.construct_single t hs
      · simpa [hcall] using h.construct_other t hn hs hk

/-- Looking through an operation loses no call. -/
theorem Describes.sum_callCount_replaces (h : v.Describes r) (hne : v.operation ≠ v.call)
    {op : Connective} {ts us : List (ParseTree κ)} (hstep : r.Replaces op ts us) :
    (ts.map (v.callCount name)).sum = (us.map (v.callCount name)).sum := by
  obtain ⟨before, after, t, ht⟩ := hstep
  simp only [List.map_append, List.map_cons, List.sum_append, List.sum_cons,
    callCount_eq v name t, h.calls_operation hne ht, Bool.toNat_false]
  omega

theorem Describes.sum_callCount_operands (h : v.Describes r) (hne : v.operation ≠ v.call)
    (op : Connective) (ts : List (ParseTree κ)) :
    ((r.operands op ts).map (v.callCount name)).sum = (ts.map (v.callCount name)).sum := by
  have hreached : Relation.ReflTransGen (r.Replaces op) ts (r.operands op ts) :=
    (Reading.areOperands_operands ts).1
  generalize r.operands op ts = os at hreached ⊢
  induction hreached with
  | refl => rfl
  | tail _ hstep ih => rw [← h.sum_callCount_replaces hne hstep, ih]

/-- Lowering keeps the calls. -/
theorem Describes.callCount_lower (h : v.Describes r) (hne : v.operation ≠ v.call)
    (t : ParseTree κ) : (r.lower t).callCount name = v.callCount name t := by
  induction t using r.operandInduction with
  | operation t op ht ih =>
    have hoperands : ((r.operands op t.namedChildren).map r.lower).map (Outline.callCount name)
        = (r.operands op t.namedChildren).map (v.callCount name) := by
      rw [List.map_map]
      exact List.map_congr_left ih
    rw [Reading.lower_operation ht, Outline.callCount, Outline.callCountAll_eq_sum, hoperands,
      h.sum_callCount_operands hne, callCount_eq v name t, h.calls_operation hne ht]
    simp
  | plain t ht ih =>
    have hchildren : (t.namedChildren.map r.lower).map (Outline.callCount name)
        = t.namedChildren.map (v.callCount name) := by
      rw [List.map_map]
      exact List.map_congr_left ih
    rw [Reading.lower_plain ht, Outline.callCount, Outline.callCountAll_eq_sum, hchildren,
      callCount_eq v name t, h.construct_eq_call]

end Vocabulary

/-! ## Units inside units -/

/-- The outline of a function inside another one, and what it costs there. -/
theorem score_of_enclosing {κ : Type} [DecidableEq κ] {v : Vocabulary κ} {r : Reading κ}
    (h : v.Describes r) (hne : v.operation ≠ v.call) {u w : ParseTree κ}
    (hw : r.connective w = none) (hreaches : u.Reaches w) {f g : FunctionUnit}
    (hf : f.outline = r.lower u) (hg : g.outline = r.lower w) :
    (∃ C : Outline.Context, f.outline = C.fill g.outline) ∧
      g.outline.score f.name ≤ f.score ∧ g.score ≤ f.score + 2 * v.callCount g.name w := by
  obtain ⟨C, hC⟩ := Reading.exists_fill_lower hw hreaches
  rw [← hf, ← hg] at hC
  have hpart : g.outline.score f.name ≤ f.score := by
    rw [FunctionUnit.score, hC]
    exact Outline.score_le_score_fill f.name C g.outline
  have hrename := Outline.score_le_score_rename g.name f.name g.outline
  rw [hg, h.callCount_lower hne, ← hg] at hrename
  refine ⟨⟨C, hC⟩, hpart, ?_⟩
  rw [FunctionUnit.score]
  omega

theorem Python.eq_of_unitOf {u : ParseTree Python.Kind} {f : FunctionUnit}
    (h : Python.unitOf u = some f) :
    u.kind = .functionDefinition ∧ f.outline = Python.reading.lower u := by
  rw [Python.unitOf] at h
  split at h
  · rename_i hkind
    obtain ⟨name, -, rfl⟩ := Option.map_eq_some_iff.mp h
    exact ⟨hkind, rfl⟩
  · cases h

theorem Script.eq_of_unitOf {lines : Array String} {n : Script.Sited} {f : FunctionUnit}
    (h : Script.unitOf lines n = some f) :
    Script.isFunction n.tree.kind ∧ f.outline = Script.reading.lower n.tree := by
  obtain ⟨name, hname, rfl⟩ := Option.map_eq_some_iff.mp h
  rw [Script.functionName] at hname
  split at hname
  · rename_i hfunction
    exact ⟨(Bool.and_eq_true_iff.mp hfunction).1, rfl⟩
  · cases hname

/-- **A function is charged for the functions in it.** Let the comments of a tree hold no
functions, and let a unit `g` be declared inside the unit `f`. Then the outline of `g` is a part
of the outline of `f`; scored under the name of `f` it costs no more than `f`; and the score of
`g` exceeds that of `f` by no more than two for each call in `g` of its own name. -/
theorem score_of_enclosing_unit :
    (∀ t : ParseTree Python.Kind, t.OutsideComments (· == .functionDefinition) →
      ∀ u ∈ t.preorder, ∀ w ∈ u.preorder, ∀ f g : FunctionUnit,
        Python.unitOf u = some f → Python.unitOf w = some g →
        (∃ C : Outline.Context, f.outline = C.fill g.outline) ∧
        g.outline.score f.name ≤ f.score ∧
        g.score ≤ f.score + 2 * Python.vocabulary.callCount g.name w) ∧
    (∀ (lines : Array String) (t : ParseTree Script.Kind), t.OutsideComments Script.isFunction →
      ∀ m ∈ Script.sited t, ∀ n ∈ Script.sited t, n.tree ∈ m.tree.preorder →
        ∀ f g : FunctionUnit, Script.unitOf lines m = some f → Script.unitOf lines n = some g →
        (∃ C : Outline.Context, f.outline = C.fill g.outline) ∧
        g.outline.score f.name ≤ f.score ∧
        g.score ≤ f.score + 2 * Script.vocabulary.callCount g.name n.tree) := by
  refine ⟨?_, ?_⟩
  · intro t ht u hu w hw f g hf hg
    obtain ⟨-, hfout⟩ := Python.eq_of_unitOf hf
    obtain ⟨hkind, hgout⟩ := Python.eq_of_unitOf hg
    have hreaches : u.Reaches w := (ht.of_mem hu).reaches hw (by rw [hkind]; rfl)
    have hplain : Python.reading.connective w = none := by
      simp [Python.reading, Python.connectiveOf, hkind]
    exact score_of_enclosing Python.vocabulary_describes (by decide) hplain hreaches hfout hgout
  · intro lines t ht m hm n _ hmn f g hf hg
    obtain ⟨-, hfout⟩ := Script.eq_of_unitOf hf
    obtain ⟨hkind, hgout⟩ := Script.eq_of_unitOf hg
    have hreaches : m.tree.Reaches n.tree :=
      (ht.of_mem (Script.tree_mem_preorder hm)).reaches hmn hkind
    have hplain : Script.reading.connective n.tree = none := by
      have hne : n.tree.kind ≠ .binaryExpression := by
        intro heq
        rw [heq] at hkind
        cases hkind
      simp [Script.reading, Script.connectiveOf, hne]
    exact score_of_enclosing Script.vocabulary_describes (by decide) hplain hreaches hfout hgout

/-- The tree of a function `inner` that calls itself, with a comment in front of the call. -/
def Python.innerFunction : ParseTree Python.Kind :=
  .node .functionDefinition .named none 2 ""
    [(ParseTree.leaf .identifier .named 2 "inner").inField .name,
      (ParseTree.node .block .named none 3 ""
        [.leaf .comment .extra 3 "# again",
          .node .call .named none 4 ""
            [(ParseTree.leaf .identifier .named 4 "inner").inField .callee]]).inField .body]

/-- The tree of a function `outer` with `inner` under a condition. -/
def Python.outerFunction : ParseTree Python.Kind :=
  .node .functionDefinition .named none 0 ""
    [(ParseTree.leaf .identifier .named 0 "outer").inField .name,
      (ParseTree.node .block .named none 1 ""
        [.node .ifStatement .named none 1 ""
          [.leaf .identifier .named 1 "ready", Python.innerFunction]]).inField .body]

/-- The tree of a function expression `g` that calls itself. -/
def Script.operandFunction : ParseTree Script.Kind :=
  .node .functionExpression .named none 0 ""
    [(ParseTree.leaf .identifier .named 0 "g").inField .name,
      (ParseTree.node .block .named none 0 ""
        [.node .call .named none 0 ""
          [(ParseTree.leaf .identifier .named 0 "g").inField .callee]]).inField .body]

/-- The tree of a function `f` that returns `a && (b && g)`, without the parentheses. -/
def Script.chainFunction : ParseTree Script.Kind :=
  let and (a b : ParseTree Script.Kind) : ParseTree Script.Kind :=
    .node .binaryExpression .named none 0 ""
      [a, (ParseTree.leaf .mark .anonymous 0 "&&").inField .operator, b]
  let name (s : String) : ParseTree Script.Kind := .leaf .identifier .named 0 s
  .node .functionDeclaration .named none 0 ""
    [(name "f").inField .name,
      (ParseTree.node .block .named none 0 ""
        [and (name "a") (and (name "b") Script.operandFunction)]).inField .body]

/-- Neither a condition nor a chain of operands keeps the function inside from being charged. -/
theorem score_of_operandFunction :
    (∃ f g, Python.unitOf Python.outerFunction = some f ∧
      Python.unitOf Python.innerFunction = some g ∧
      (∃ C : Outline.Context, f.outline = C.fill g.outline) ∧
      g.outline.score f.name ≤ f.score ∧ g.score ≤ f.score + 2 * 1) ∧
    (∃ f g, Script.unitOf #[] ⟨Script.chainFunction, []⟩ = some f ∧
      (∃ n ∈ Script.sited Script.chainFunction, Script.unitOf #[] n = some g) ∧
      (∃ C : Outline.Context, f.outline = C.fill g.outline) ∧
      g.outline.score f.name ≤ f.score ∧ g.score ≤ f.score + 2 * 1) := by
  refine ⟨⟨_, _, rfl, rfl, ?_⟩, ⟨_, _, rfl, ⟨_, List.mem_of_getElem? (i := 7) rfl, rfl⟩, ?_⟩⟩
  · exact score_of_enclosing_unit.1 Python.outerFunction
      (by unfold ParseTree.OutsideComments; decide) _ (ParseTree.mem_preorder_self _)
      Python.innerFunction (List.mem_of_getElem? (i := 5) rfl) _ _ rfl rfl
  · exact score_of_enclosing_unit.2 #[] Script.chainFunction
      (by unfold ParseTree.OutsideComments; decide) _ List.mem_cons_self _
      (List.mem_of_getElem? (i := 7) rfl) (List.mem_of_getElem? (i := 7) rfl) _ _ rfl rfl

end DocGate

/-
DocGate.Proofs.Outline.Regrouping — comments and the grouping of operands.

What an outline does not show of a tree: its comments, the rows of its nodes, and
whether three operands of one operator are grouped to the left or to the right.

* `Reading.Changes`, `Reading.Alike` — one such change at any place of a tree, and any
  number of them, made or undone.
* `Reading.LooksAtFields` — the side condition: a change inside a node is seen from the
  node only through the `face` of a child that fills a field, and a reading asks for no
  more than that. Those of both languages fulfil it.
* `Agree` — the induction over the place of a change. An operation needs more from its
  children than their outlines, since a child with the same operator contributes its
  operands.
* `lower_of_alike` — trees that are alike have the same outline and the same scores, in
  both families of languages; and operations with different operators never become one
  chain, in any reading.
-/
import DocGate.Proofs.Outline.Lowering
import DocGate.Outline.Score
import DocGate.Python.Units
import DocGate.Script.Units

namespace DocGate

open Grammar

/-- What a reading may see of a child: its kind and its text. -/
def Grammar.ParseTree.face {κ : Type} (t : ParseTree κ) : κ × String := (t.kind, t.text)

namespace Reading

variable {κ : Type} {r : Reading κ}

/-! ## Changes -/

/-- An operation of `op` on two operands. -/
structure Joins (r : Reading κ) (op : Connective) (t a b : ParseTree κ) : Prop where
  connective : r.connective t = some op
  namedChildren : t.namedChildren = [a, b]

/-- One change that has nothing to do with complexity. -/
inductive Changes (r : Reading κ) : ParseTree κ → ParseTree κ → Prop
  /-- A comment more among the children of a node. -/
  | comment {k role field row text} (before after : List (ParseTree κ)) (c : ParseTree κ)
      (hc : c.isExtra) :
      Changes r (.node k role field row text (before ++ after))
        (.node k role field row text (before ++ c :: after))
  /-- Another row. -/
  | move {k role field row text cs} (row' : Nat) :
      Changes r (.node k role field row text cs) (.node k role field row' text cs)
  /-- Three operands of one operator, grouped to the left and to the right. -/
  | regroup {k role field row text cs cs' op left right a b c}
      (houter : r.Joins op (.node k role field row text cs) left c) (hleft : r.Joins op left a b)
      (houter' : r.Joins op (.node k role field row text cs') a right)
      (hright : r.Joins op right b c) :
      Changes r (.node k role field row text cs) (.node k role field row text cs')
  /-- A change in one of the children. -/
  | inside {k role field row text c c'} (before after : List (ParseTree κ))
      (hc : Changes r c c') :
      Changes r (.node k role field row text (before ++ c :: after))
        (.node k role field row text (before ++ c' :: after))

/-- Trees that differ by such changes only, made and undone in any number. -/
def Alike (r : Reading κ) : ParseTree κ → ParseTree κ → Prop := Relation.EqvGen r.Changes

/-- A reading goes by the kind of a node and by the faces of the children that fill its fields. -/
def LooksAtFields (r : Reading κ) : Prop :=
  ∀ t t' : ParseTree κ, t.kind = t'.kind →
    (∀ f, (t.child? f).map ParseTree.face = (t'.child? f).map ParseTree.face) →
    r.construct t = r.construct t' ∧ r.connective t = r.connective t'

/-! ## What a change leaves -/

/-- What is the same before and after a change: what the node shows to the node around it, its
outline, and the outlines of the operands that it contributes to a chain. -/
structure Agree (r : Reading κ) (t t' : ParseTree κ) : Prop where
  face : t.face = t'.face
  role : t.role = t'.role
  field : t.field = t'.field
  outline : r.lower t = r.lower t'
  operands : ∀ op, (r.operands op [t]).map r.lower = (r.operands op [t']).map r.lower

theorem operands_cons (op : Connective) (t : ParseTree κ) (ts : List (ParseTree κ)) :
    r.operands op (t :: ts) = r.operands op [t] ++ r.operands op ts :=
  operands_append [t] ts

theorem operands_singleton (op : Connective) (t : ParseTree κ) :
    r.operands op [t]
      = if r.connective t = some op then r.operands op t.namedChildren else [t] := by
  split
  · rename_i hop
    rw [operands_cons_operation hop, List.append_nil]
  · rename_i hop
    rw [operands_cons_operand hop, operands_nil]

/-- A node that is no operation with `op` contributes its own outline to a chain of `op`. -/
theorem map_operands_operand {op : Connective} {t : ParseTree κ} (ht : r.connective t ≠ some op) :
    (r.operands op [t]).map r.lower = [r.lower t] := by
  rw [operands_singleton, if_neg ht, List.map_singleton]

/-- Two operations of one operator agree if their operands have the same outlines. -/
theorem agree_of_operation {op : Connective} {t t' : ParseTree κ} (hface : t.face = t'.face)
    (hrole : t.role = t'.role) (hfield : t.field = t'.field) (ht : r.connective t = some op)
    (ht' : r.connective t' = some op)
    (hoperands : (r.operands op t.namedChildren).map r.lower
      = (r.operands op t'.namedChildren).map r.lower) : r.Agree t t' := by
  have hlength := congrArg List.length hoperands
  rw [List.length_map, List.length_map] at hlength
  have houtline : r.lower t = r.lower t' := by
    rw [lower_operation ht, lower_operation ht', hoperands, hlength]
  refine ⟨hface, hrole, hfield, houtline, ?_⟩
  intro op'
  by_cases hop : op = op'
  · subst hop
    rw [operands_singleton, operands_singleton, if_pos ht, if_pos ht', hoperands]
  · have hne : some op ≠ some op' := fun h => hop (Option.some.inj h)
    rw [map_operands_operand (ht ▸ hne), map_operands_operand (ht' ▸ hne), houtline]

/-- Two nodes that are no operations agree if they are the same construct over the same
outlines. -/
theorem agree_of_plain {t t' : ParseTree κ} (hface : t.face = t'.face) (hrole : t.role = t'.role)
    (hfield : t.field = t'.field) (ht : r.connective t = none) (ht' : r.connective t' = none)
    (hconstruct : r.construct t = r.construct t')
    (hchildren : t.namedChildren.map r.lower = t'.namedChildren.map r.lower) :
    r.Agree t t' := by
  have houtline : r.lower t = r.lower t' := by
    rw [lower_plain ht, lower_plain ht', hconstruct, hchildren]
  refine ⟨hface, hrole, hfield, houtline, ?_⟩
  intro op
  rw [map_operands_operand (by simp [ht]), map_operands_operand (by simp [ht']), houtline]

/-- A comment is no named child. -/
theorem filter_isNamed_comment {c : ParseTree κ} (hc : c.isExtra)
    (before after : List (ParseTree κ)) :
    (before ++ c :: after).filter ParseTree.isNamed
      = (before ++ after).filter ParseTree.isNamed := by
  have hnamed : ¬ c.isNamed := by
    simp only [ParseTree.isExtra, beq_iff_eq] at hc
    simp [ParseTree.isNamed, hc]
  rw [List.filter_append, List.filter_append, List.filter_cons_of_neg hnamed]

/-- A comment fills no field. -/
theorem find?_comment {c : ParseTree κ} (hc : c.isExtra) (f : Field)
    (before after : List (ParseTree κ)) :
    (before ++ c :: after).find? (ParseTree.fills f)
      = (before ++ after).find? (ParseTree.fills f) := by
  have hfills : ¬ c.fills f := by simp [ParseTree.fills, hc]
  rw [List.find?_append, List.find?_append, List.find?_cons_of_neg hfills]

namespace Agree

variable {c c' : ParseTree κ}

theorem isNamed_eq (h : r.Agree c c') : c.isNamed = c'.isNamed := by
  rw [ParseTree.isNamed, h.role, ParseTree.isNamed]

theorem fills_eq (h : r.Agree c c') (f : Field) : c.fills f = c'.fills f := by
  rw [ParseTree.fills, ParseTree.fills, ParseTree.isExtra, ParseTree.isExtra, h.field, h.role]

/-- The child that fills a field shows the same face. -/
theorem find?_face (h : r.Agree c c') (f : Field) (before after : List (ParseTree κ)) :
    ((before ++ c :: after).find? (ParseTree.fills f)).map ParseTree.face
      = ((before ++ c' :: after).find? (ParseTree.fills f)).map ParseTree.face := by
  rw [List.find?_append, List.find?_append, List.find?_cons, List.find?_cons, h.fills_eq f]
  cases before.find? (ParseTree.fills f) with
  | some d => rfl
  | none => cases c'.fills f <;> simp [h.face]

theorem map_lower_filter (h : r.Agree c c') (before after : List (ParseTree κ)) :
    ((before ++ c :: after).filter ParseTree.isNamed).map r.lower
      = ((before ++ c' :: after).filter ParseTree.isNamed).map r.lower := by
  rw [List.filter_append, List.filter_append, List.filter_cons, List.filter_cons, h.isNamed_eq]
  split <;> simp [h.outline]

theorem map_operands_filter (h : r.Agree c c') (op : Connective)
    (before after : List (ParseTree κ)) :
    (r.operands op ((before ++ c :: after).filter ParseTree.isNamed)).map r.lower
      = (r.operands op ((before ++ c' :: after).filter ParseTree.isNamed)).map r.lower := by
  rw [List.filter_append, List.filter_append, List.filter_cons, List.filter_cons, h.isNamed_eq]
  split
  · rw [operands_append, operands_append, operands_cons op c, operands_cons op c']
    simp only [List.map_append, h.operands op]
  · rfl

end Agree

/-- Nodes with the same head agree if they have the same faces in their fields and the same
outlines and operands below them. -/
theorem agree_of_children (hr : r.LooksAtFields) {k : κ} {role : Role} {field : Option Field}
    {row row' : Nat} {text : String} {cs cs' : List (ParseTree κ)}
    (hfields : ∀ f, ((ParseTree.node k role field row text cs).child? f).map ParseTree.face
      = ((ParseTree.node k role field row' text cs').child? f).map ParseTree.face)
    (hlower : (cs.filter ParseTree.isNamed).map r.lower
      = (cs'.filter ParseTree.isNamed).map r.lower)
    (hoperands : ∀ op, (r.operands op (cs.filter ParseTree.isNamed)).map r.lower
      = (r.operands op (cs'.filter ParseTree.isNamed)).map r.lower) :
    r.Agree (.node k role field row text cs) (.node k role field row' text cs') := by
  obtain ⟨hconstruct, hconnective⟩ := hr (.node k role field row text cs)
    (.node k role field row' text cs') rfl hfields
  cases ht : r.connective (.node k role field row text cs) with
  | some op => exact agree_of_operation rfl rfl rfl ht (hconnective ▸ ht) (hoperands op)
  | none => exact agree_of_plain rfl rfl rfl ht (hconnective ▸ ht) hconstruct hlower

/-- Three operands are the same operands, whether grouped to the left or to the right. -/
theorem Joins.operands_regrouped {op : Connective} {t t' left right a b c : ParseTree κ}
    (houter : r.Joins op t left c) (hleft : r.Joins op left a b)
    (houter' : r.Joins op t' a right) (hright : r.Joins op right b c) :
    r.operands op t.namedChildren = r.operands op t'.namedChildren :=
  calc r.operands op t.namedChildren
      = r.operands op ([a, b] ++ [c]) := by
        rw [houter.namedChildren, operands_cons_operation hleft.connective, hleft.namedChildren]
    _ = r.operands op ([a] ++ ([b, c] ++ [])) := rfl
    _ = r.operands op ([a] ++ [right]) := by
        rw [operands_append, ← hright.namedChildren, ← operands_cons_operation hright.connective,
          operands_append]
    _ = r.operands op t'.namedChildren := by rw [houter'.namedChildren, List.singleton_append]

/-- One change leaves the outline, and all that a node around it can see. -/
theorem Changes.agree (hr : r.LooksAtFields) {t t' : ParseTree κ} (h : r.Changes t t') :
    r.Agree t t' := by
  induction h with
  | comment before after c hc =>
    refine agree_of_children hr ?_ ?_ ?_
    · intro f
      rw [ParseTree.child?, ParseTree.child?, ParseTree.children, ParseTree.children,
        find?_comment hc]
    · rw [filter_isNamed_comment hc]
    · intro op
      rw [filter_isNamed_comment hc]
  | move row' => exact agree_of_children hr (fun _ => rfl) rfl fun _ => rfl
  | regroup houter hleft houter' hright =>
    refine agree_of_operation rfl rfl rfl houter.connective houter'.connective ?_
    rw [houter.operands_regrouped hleft houter' hright]
  | inside before after _ ih =>
    exact agree_of_children hr (fun f => ih.find?_face f before after)
      (ih.map_lower_filter before after) fun op => ih.map_operands_filter op before after

theorem Alike.lower_eq (hr : r.LooksAtFields) {t t' : ParseTree κ} (h : r.Alike t t') :
    r.lower t = r.lower t' :=
  congrArg (Quot.lift r.lower fun _ _ hstep => (hstep.agree hr).outline) (Quot.eqvGen_sound h)

/-- An operation inside one with another operator is one operand of it. -/
theorem operands_other_operation {op op' : Connective} (hne : op ≠ op') {t : ParseTree κ}
    (ht : r.connective t = some op) (before after : List (ParseTree κ)) :
    r.operands op' (before ++ t :: after)
      = r.operands op' before ++ t :: r.operands op' after := by
  have hother : r.connective t ≠ some op' := by
    rw [ht]
    exact fun h => hne (Option.some.inj h)
  rw [operands_append, operands_cons_operand hother]

end Reading

/-! ## The two languages -/

theorem Python.calleeName_congr {t t' : ParseTree Python.Kind}
    (h : (t.child? .callee).map ParseTree.face = (t'.child? .callee).map ParseTree.face) :
    Python.calleeName t = Python.calleeName t' := by
  unfold Python.calleeName
  cases hc : t.child? .callee <;> cases hc' : t'.child? .callee <;>
    simp_all [ParseTree.face]

theorem Python.reading_looksAtFields : Python.reading.LooksAtFields := by
  intro t t' hkind hfields
  constructor
  · simp only [Python.reading, Python.constructOf, hkind,
      Python.calleeName_congr (hfields .callee)]
  · have hoperator := hfields .operator
    simp only [Python.reading, Python.connectiveOf, hkind]
    cases hc : t.child? .operator <;> cases hc' : t'.child? .operator <;>
      simp_all [ParseTree.face]

theorem Script.calleeName_congr {t t' : ParseTree Script.Kind}
    (h : (t.child? .callee).map ParseTree.face = (t'.child? .callee).map ParseTree.face) :
    Script.calleeName t = Script.calleeName t' := by
  unfold Script.calleeName
  cases hc : t.child? .callee <;> cases hc' : t'.child? .callee <;>
    simp_all [ParseTree.face]

theorem Script.reading_looksAtFields : Script.reading.LooksAtFields := by
  intro t t' hkind hfields
  constructor
  · simp only [Script.reading, Script.constructOf, hkind,
      Script.calleeName_congr (hfields .callee)]
  · have hoperator := hfields .operator
    simp only [Script.reading, Script.connectiveOf, hkind]
    cases hc : t.child? .operator <;> cases hc' : t'.child? .operator <;>
      simp_all [ParseTree.face]

/-- **Comments and grouping leave the outline.** In both languages, trees that differ by comments
and by the grouping of operands of one operator, at any depth, have the same outline and so the
same score. In any reading, an operation inside one with another operator is not joined with it:
in the chain of the outer one it is one operand, and a chain of its own. -/
theorem lower_of_alike :
    (∀ t t' : ParseTree Python.Kind, Python.reading.Alike t t' →
      Python.reading.lower t = Python.reading.lower t' ∧
      ∀ name, (Python.reading.lower t).score name = (Python.reading.lower t').score name) ∧
    (∀ t t' : ParseTree Script.Kind, Script.reading.Alike t t' →
      Script.reading.lower t = Script.reading.lower t' ∧
      ∀ name, (Script.reading.lower t).score name = (Script.reading.lower t').score name) ∧
    (∀ (κ : Type) (r : Reading κ) (op op' : Connective) (outer inner : ParseTree κ)
      (before after : List (ParseTree κ)), op ≠ op' → r.connective outer = some op' →
      r.connective inner = some op → outer.namedChildren = before ++ inner :: after →
      ∀ os ps, r.AreOperands op' before os → r.AreOperands op' after ps →
        r.lower outer = .node (.chain (os.length + (ps.length + 1)))
          (os.map r.lower ++ r.lower inner :: ps.map r.lower) ∧
        ∃ cs, r.lower inner = .node (.chain cs.length) cs) := by
  refine ⟨?_, ?_, ?_⟩
  · intro t t' h
    have heq := h.lower_eq Python.reading_looksAtFields
    exact ⟨heq, fun name => congrArg (Outline.score name) heq⟩
  · intro t t' h
    have heq := h.lower_eq Script.reading_looksAtFields
    exact ⟨heq, fun name => congrArg (Outline.score name) heq⟩
  · intro κ r op op' outer inner before after hne houter hinner hchildren os ps hos hps
    constructor
    · rw [Reading.lower_operation houter, hchildren,
        Reading.operands_other_operation hne hinner, ← hos.eq_operands, ← hps.eq_operands,
        List.length_append, List.length_cons, List.map_append, List.map_cons]
    · refine ⟨(r.operands op inner.namedChildren).map r.lower, ?_⟩
      rw [Reading.lower_operation hinner, List.length_map]

/-- The operation of `a` and `b` in a Python file, with comments behind the operator. -/
def Python.conjunction (a : ParseTree Python.Kind) (comments : List (ParseTree Python.Kind))
    (b : ParseTree Python.Kind) : ParseTree Python.Kind :=
  .node .booleanOperation .named none 0 ""
    ([a, (ParseTree.leaf .mark .anonymous 0 "and").inField .operator] ++ (comments ++ [b]))

/-- `a and b and c`, grouped to the left. -/
def Python.groupedLeft : ParseTree Python.Kind :=
  let term (s : String) : ParseTree Kind := .leaf .identifier .named 0 s
  conjunction (conjunction (term "a") [] (term "b")) [] (term "c")

/-- `a and b and c`, grouped to the right and with some comments in the inner operation. -/
def Python.groupedRight (comments : List (ParseTree Python.Kind)) : ParseTree Python.Kind :=
  let term (s : String) : ParseTree Kind := .leaf .identifier .named 0 s
  conjunction (term "a") [] (conjunction (term "b") comments (term "c"))

/-- A name in a script. -/
def Script.term (s : String) : ParseTree Script.Kind := .leaf .identifier .named 0 s

/-- The operation of `a` and `b` in a script. -/
def Script.operation (op : String) (a b : ParseTree Script.Kind) : ParseTree Script.Kind :=
  .node .binaryExpression .named none 0 ""
    [a, (ParseTree.leaf .mark .anonymous 0 op).inField .operator, b]

/-- Another grouping and a comment leave the outline of `a and b and c`; in `a && b || c` the
conjunction is one of two operands. -/
theorem lower_of_regrouped_operands :
    Python.reading.lower Python.groupedLeft
      = Python.reading.lower (Python.groupedRight [.leaf .comment .extra 0 "# and so on"]) ∧
    Script.reading.lower (Script.operation "||"
        (Script.operation "&&" (Script.term "a") (Script.term "b")) (Script.term "c"))
      = .node (.chain 2)
        [Script.reading.lower (Script.operation "&&" (Script.term "a") (Script.term "b")),
          Script.reading.lower (Script.term "c")] := by
  have hgroup : Python.reading.Changes Python.groupedLeft (Python.groupedRight []) :=
    .regroup (show Python.reading.Joins .conjunction _ _ _ from ⟨by decide, rfl⟩)
      ⟨by decide, rfl⟩ ⟨by decide, rfl⟩ ⟨by decide, rfl⟩
  have hcomment : Python.reading.Changes (Python.groupedRight [])
      (Python.groupedRight [.leaf .comment .extra 0 "# and so on"]) :=
    .inside [_, _] [] (.comment [_, _] [_] _ rfl)
  constructor
  · exact (lower_of_alike.1 _ _ (.trans _ _ _ (.rel _ _ hgroup) (.rel _ _ hcomment))).1
  · exact (lower_of_alike.2.2 _ Script.reading .conjunction .disjunction _ _ []
      [Script.term "c"] (by decide) rfl rfl rfl [] [Script.term "c"] ⟨.refl, by decide⟩
      ⟨.refl, by decide⟩).1

end DocGate

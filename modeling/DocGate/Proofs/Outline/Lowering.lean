/-
DocGate.Proofs.Outline.Lowering — lowering by recursion.

Lowering is a run over frames, and collecting the operands of a chain is a run inside
it. Here both are told without a run.

* `Reading.AreOperands` — what the operands of a chain are: what is left when operations
  have been replaced by their named children until no such operation remains.
* `Reading.IsLowering` — the recursion over trees that lowering stands for.
* `Reading.plug`, `Reading.unwind_eq_plug` — the argument about frames, which is the
  usual one for a machine with a stack: some frames stand for the outline that their
  outermost node will have; giving a pending node a frame leaves it as it is, and so
  does closing a frame.
* `lower_is_the_recursion` — there is one function that follows the recursion, and
  lowering is that function; its run ends with the outline, and a chain counts its
  operands.

The only thing asked of a reading is what its type carries: a construct that it names is
no chain.
-/
import DocGate.Outline.Lowering
import Mathlib.Logic.ExistsUnique
import Mathlib.Logic.Relation

namespace DocGate

open Grammar

/-- Every chain of an outline has as many children as it has operands. -/
inductive Outline.CountsOperands : Outline → Prop
  | node (k : Construct) (cs : List Outline)
      (hk : ∀ operands, k = .chain operands → operands = cs.length)
      (hcs : ∀ c ∈ cs, c.CountsOperands) : CountsOperands (.node k cs)

namespace Reading

variable {κ : Type} {r : Reading κ} {op : Connective}

/-! ## Operands of a chain -/

theorem operandsFrom_append (found earlier waiting : List (ParseTree κ)) :
    r.operandsFrom op (found ++ earlier) waiting
      = earlier.reverse ++ r.operandsFrom op found waiting := by
  fun_induction operandsFrom r op found waiting with
  | case1 found => simp [operandsFrom]
  | case2 found c waiting hop ih => rw [operandsFrom, if_pos hop, ih]
  | case3 found c waiting hop ih => rw [operandsFrom, if_neg hop, ← ih, List.cons_append]

@[simp] theorem operands_nil : r.operands op [] = [] := by
  rw [operands, operandsFrom, List.reverse_nil]

theorem operands_cons_operation {c : ParseTree κ} (hc : r.connective c = some op)
    (cs : List (ParseTree κ)) :
    r.operands op (c :: cs) = r.operands op (c.namedChildren ++ cs) := by
  rw [operands, operandsFrom, if_pos hc, operands]

theorem operands_cons_operand {c : ParseTree κ} (hc : r.connective c ≠ some op)
    (cs : List (ParseTree κ)) : r.operands op (c :: cs) = c :: r.operands op cs := by
  rw [operands, operandsFrom, if_neg hc]
  exact operandsFrom_append [] [c] cs

@[simp] theorem operands_append (ts us : List (ParseTree κ)) :
    r.operands op (ts ++ us) = r.operands op ts ++ r.operands op us := by
  suffices hrun : ∀ found, r.operandsFrom op found (ts ++ us)
      = r.operandsFrom op found ts ++ r.operands op us from hrun []
  intro found
  fun_induction operandsFrom r op found ts with
  | case1 found => exact operandsFrom_append [] found us
  | case2 found c waiting hop ih =>
    rw [List.cons_append, operandsFrom, if_pos hop, ← List.append_assoc, ih]
  | case3 found c waiting hop ih => rw [List.cons_append, operandsFrom, if_neg hop, ih]

/-- One operation with `op` gives way to its named children. -/
inductive Replaces (r : Reading κ) (op : Connective) :
    List (ParseTree κ) → List (ParseTree κ) → Prop
  | operation (before after : List (ParseTree κ)) (t : ParseTree κ)
      (ht : r.connective t = some op) :
      Replaces r op (before ++ t :: after) (before ++ (t.namedChildren ++ after))

/-- What is left of `ts` when all operations with `op` have given way to their named children,
one after the other and in any order. -/
structure AreOperands (r : Reading κ) (op : Connective) (ts os : List (ParseTree κ)) : Prop where
  reached : Relation.ReflTransGen (r.Replaces op) ts os
  final : ∀ o ∈ os, r.connective o ≠ some op

theorem Replaces.operands_eq {ts us : List (ParseTree κ)} (h : r.Replaces op ts us) :
    r.operands op ts = r.operands op us := by
  obtain ⟨before, after, t, ht⟩ := h
  rw [operands_append, operands_append, operands_cons_operation ht]

theorem operands_eq_self {os : List (ParseTree κ)} (h : ∀ o ∈ os, r.connective o ≠ some op) :
    r.operands op os = os := by
  induction os with
  | nil => exact operands_nil
  | cons o os ih =>
    rw [operands_cons_operand (h o List.mem_cons_self),
      ih fun p hp => h p (List.mem_cons_of_mem _ hp)]

/-- Whatever the order of the replacements, they end in the operands that are collected. -/
theorem AreOperands.eq_operands {ts os : List (ParseTree κ)} (h : r.AreOperands op ts os) :
    os = r.operands op ts := by
  obtain ⟨hreached, hfinal⟩ := h
  induction hreached using Relation.ReflTransGen.head_induction_on with
  | refl => exact (operands_eq_self hfinal).symm
  | head hstep _ ih => rw [ih, hstep.operands_eq]

theorem operandsFrom_reached (found waiting : List (ParseTree κ)) :
    Relation.ReflTransGen (r.Replaces op) (found.reverse ++ waiting)
      (r.operandsFrom op found waiting) := by
  fun_induction operandsFrom r op found waiting with
  | case1 found => rw [List.append_nil]
  | case2 found c waiting hop ih => exact .head (.operation found.reverse waiting c hop) ih
  | case3 found c waiting hop ih =>
    rwa [List.reverse_cons, List.append_assoc, List.singleton_append] at ih

theorem operandsFrom_final {found : List (ParseTree κ)} (waiting : List (ParseTree κ))
    (hfound : ∀ o ∈ found, r.connective o ≠ some op) :
    ∀ o ∈ r.operandsFrom op found waiting, r.connective o ≠ some op := by
  fun_induction operandsFrom r op found waiting with
  | case1 found => simpa using hfound
  | case2 found c waiting hop ih => exact ih hfound
  | case3 found c waiting hop ih =>
    refine ih ?_
    intro o ho
    rcases List.mem_cons.mp ho with rfl | ho
    · exact hop
    · exact hfound o ho

theorem areOperands_operands (ts : List (ParseTree κ)) :
    r.AreOperands op ts (r.operands op ts) where
  reached := operandsFrom_reached [] ts
  final := operandsFrom_final ts (by simp)

/-! ## The recursion -/

theorem sizeOf_le_treesSize {t : ParseTree κ} {ts : List (ParseTree κ)} (h : t ∈ ts) :
    sizeOf t ≤ treesSize ts := by
  induction ts with
  | nil => cases h
  | cons u us ih =>
    rw [treesSize_cons]
    rcases List.mem_cons.mp h with rfl | h
    · omega
    · have hu := ih h
      omega

theorem sizeOf_lt_of_mem_namedChildren {t c : ParseTree κ} (h : c ∈ t.namedChildren) :
    sizeOf c < sizeOf t := by
  have hc := sizeOf_le_treesSize h
  have ht := treesSize_namedChildren_lt t
  omega

theorem sizeOf_lt_of_mem_operands {t c : ParseTree κ}
    (h : c ∈ r.operands op t.namedChildren) : sizeOf c < sizeOf t := by
  have hc := sizeOf_le_treesSize h
  have hoperands := r.treesSize_operands_le op t.namedChildren
  have ht := treesSize_namedChildren_lt t
  omega

/-- What holds of an operation whenever it holds of its operands, and of any other node whenever
it holds of its named children, holds of every tree. -/
@[elab_as_elim]
theorem operandInduction (r : Reading κ) {motive : ParseTree κ → Prop}
    (operation : ∀ t op, r.connective t = some op →
      (∀ c ∈ r.operands op t.namedChildren, motive c) → motive t)
    (plain : ∀ t, r.connective t = none → (∀ c ∈ t.namedChildren, motive c) → motive t)
    (t : ParseTree κ) : motive t := by
  cases ht : r.connective t with
  | some op =>
    refine operation t op ht ?_
    intro c hc
    have hlt := sizeOf_lt_of_mem_operands hc
    exact r.operandInduction operation plain c
  | none =>
    refine plain t ht ?_
    intro c hc
    have hlt := sizeOf_lt_of_mem_namedChildren hc
    exact r.operandInduction operation plain c
termination_by sizeOf t

/-- The outline of a tree, by recursion. -/
def outline (r : Reading κ) (t : ParseTree κ) : Outline :=
  match r.connective t with
  | some op =>
    .node (.chain (r.operands op t.namedChildren).length)
      ((r.operands op t.namedChildren).attach.map fun c => r.outline c.1)
  | none => .node (r.construct t) (t.namedChildren.attach.map fun c => r.outline c.1)
termination_by sizeOf t
decreasing_by
  · exact sizeOf_lt_of_mem_operands c.2
  · exact sizeOf_lt_of_mem_namedChildren c.2

theorem outline_operation {t : ParseTree κ} (ht : r.connective t = some op) :
    r.outline t = .node (.chain (r.operands op t.namedChildren).length)
      ((r.operands op t.namedChildren).map r.outline) := by
  rw [outline, ht]
  simp only [List.attach_map_val]

theorem outline_plain {t : ParseTree κ} (ht : r.connective t = none) :
    r.outline t = .node (r.construct t) (t.namedChildren.map r.outline) := by
  rw [outline, ht]
  simp only [List.attach_map_val]

/-! ## The run over frames -/

/-- The outline of the node of a frame. -/
def Frame.outline (r : Reading κ) (f : Frame κ) : Outline :=
  .node f.construct (f.lowered.reverse ++ f.pending.map r.outline)

/-- The outline of the outermost node of `frames` when the node inside them has the outline `o`. -/
def plug (r : Reading κ) (o : Outline) : List (Frame κ) → Outline
  | [] => o
  | f :: frames => r.plug ((f.push o).outline r) frames

theorem outline_frame (t : ParseTree κ) : (r.frame t).outline r = r.outline t := by
  unfold frame
  cases ht : r.connective t with
  | some op => rw [outline_operation ht, Frame.outline, List.reverse_nil, List.nil_append]
  | none => rw [outline_plain ht, Frame.outline, List.reverse_nil, List.nil_append]

/-- Lowering the first pending node leaves the outline of a frame. -/
theorem outline_push_pending (k : Construct) (c : ParseTree κ) (pending : List (ParseTree κ))
    (lowered : List Outline) :
    (Frame.push ⟨k, pending, lowered⟩ (r.outline c)).outline r
      = Frame.outline r ⟨k, c :: pending, lowered⟩ := by
  simp [Frame.outline, Frame.push]

theorem outline_of_nothing_pending (k : Construct) (lowered : List Outline) :
    Frame.outline r ⟨k, [], lowered⟩ = (⟨k, [], lowered⟩ : Frame κ).close := by
  simp [Frame.outline, Frame.close]

/-- A run over frames ends in the outline that the frames stand for. -/
theorem unwind_eq_plug (f : Frame κ) (frames : List (Frame κ)) :
    r.unwind (f :: frames) = some (r.plug (f.outline r) frames) := by
  -- said of no frames too, so that the induction can follow the run
  suffices hrun : ∀ stack, r.unwind stack
      = stack.head?.map fun f => r.plug (f.outline r) stack.tail by
    exact hrun (f :: frames)
  intro stack
  fun_induction unwind r stack with
  | case1 => rfl
  | case2 k c pending lowered rest ih =>
    rw [ih]
    simp only [List.head?_cons, List.tail_cons, Option.map_some, plug, outline_frame,
      outline_push_pending]
  | case3 k lowered =>
    simp only [List.head?_cons, List.tail_cons, Option.map_some, plug,
      outline_of_nothing_pending]
  | case4 k lowered parent rest ih =>
    rw [ih]
    simp only [List.head?_cons, List.tail_cons, Option.map_some, plug,
      outline_of_nothing_pending]

/-- The run that lowers a tree ends with its outline, not by running out of frames. -/
theorem unwind_frame (t : ParseTree κ) : r.unwind [r.frame t] = some (r.outline t) := by
  rw [unwind_eq_plug, plug, outline_frame]

theorem lower_eq_outline (t : ParseTree κ) : r.lower t = r.outline t := by
  rw [lower, unwind_frame, Option.getD_some]

theorem lower_operation {t : ParseTree κ} (ht : r.connective t = some op) :
    r.lower t = .node (.chain (r.operands op t.namedChildren).length)
      ((r.operands op t.namedChildren).map r.lower) := by
  simp only [funext lower_eq_outline, outline_operation ht]

theorem lower_plain {t : ParseTree κ} (ht : r.connective t = none) :
    r.lower t = .node (r.construct t) (t.namedChildren.map r.lower) := by
  simp only [funext lower_eq_outline, outline_plain ht]

/-! ## The rules of lowering -/

/-- The rules of lowering by recursion: an operation is a chain over its operands, and any other
node is its construct over its named children. -/
structure IsLowering (r : Reading κ) (R : ParseTree κ → Outline) : Prop where
  operation : ∀ t op operands, r.connective t = some op →
    r.AreOperands op t.namedChildren operands →
    R t = .node (.chain operands.length) (operands.map R)
  plain : ∀ t, r.connective t = none → R t = .node (r.construct t) (t.namedChildren.map R)

theorem isLowering_lower : r.IsLowering r.lower where
  operation t op operands ht hoperands := by
    rw [hoperands.eq_operands]
    exact lower_operation ht
  plain t ht := lower_plain ht

/-- The rules say of every tree what its outline is. -/
theorem IsLowering.eq_lower {R : ParseTree κ → Outline} (h : r.IsLowering R) (t : ParseTree κ) :
    R t = r.lower t := by
  induction t using r.operandInduction with
  | operation t op ht ih =>
    rw [h.operation t op _ ht (areOperands_operands _), lower_operation ht,
      List.map_congr_left ih]
  | plain t ht ih => rw [h.plain t ht, lower_plain ht, List.map_congr_left ih]

theorem countsOperands_lower (t : ParseTree κ) : (r.lower t).CountsOperands := by
  induction t using r.operandInduction with
  | operation t op ht ih =>
    rw [lower_operation ht]
    refine .node _ _ ?_ ?_
    · intro operands hk
      rw [List.length_map]
      exact (Construct.chain.inj hk).symm
    · intro o ho
      obtain ⟨c, hc, rfl⟩ := List.mem_map.mp ho
      exact ih c hc
  | plain t ht ih =>
    rw [lower_plain ht]
    refine .node _ _ ?_ ?_
    · intro operands hk
      exact absurd hk (r.construct_ne_chain t operands)
    · intro o ho
      obtain ⟨c, hc, rfl⟩ := List.mem_map.mp ho
      exact ih c hc

/-- **Lowering is a recursion over the tree.** In every reading, so in those of both languages:
the operands of an operation are the same whatever the order in which nested operations are
looked through; lowering, which is a run over frames, is the one function that follows the rules
of lowering by recursion; the run ends with the outline and never without frames; and every chain
has as many children as it has operands. -/
theorem lower_is_the_recursion (r : Reading κ) :
    (∀ op ts, ∃! os, r.AreOperands op ts os) ∧
    (∀ R, r.IsLowering R ↔ R = r.lower) ∧
    (∀ t, r.unwind [r.frame t] = some (r.lower t)) ∧
    (∀ t, (r.lower t).CountsOperands) := by
  refine ⟨?_, ?_, ?_, countsOperands_lower⟩
  · intro op ts
    exact ⟨r.operands op ts, areOperands_operands ts, fun os hos => hos.eq_operands⟩
  · intro R
    constructor
    · intro hR
      exact funext hR.eq_lower
    · rintro rfl
      exact isLowering_lower
  · intro t
    rw [lower_eq_outline]
    exact unwind_frame t

end Reading

end DocGate

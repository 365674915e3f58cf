/-
DocGate.Outline.Lowering — from concrete trees to outlines.

A language says of each node which construct it is, and which nodes join operands by a
boolean operator (`Reading`). Lowering keeps the named children of a node; comments and
punctuation are left out. Operations nested in one another with the same boolean
operator become one chain over all their operands.

Generated sources are nested deeper than a call stack is. So the nodes that are being
lowered wait in a list of frames, the innermost first, and the operations that a chain
still has to look through wait in a list of their own.

* `Reading.operands` — the operands of a chain.
* `Reading.unwind` — the run over frames; it ends because each step leaves less to be
  lowered.
* `Reading.lower` — the outline of a tree.

The recursion that the run stands for is in `DocGate.Proofs.Outline.Lowering`.
-/
import DocGate.Grammar.ParseTree
import DocGate.Outline.Basic

namespace DocGate

open Grammar

/-- The boolean operators that evaluate their right operand only if need be. -/
inductive Connective where
  | conjunction
  | disjunction
  /-- The right operand replaces a missing left one. -/
  | coalescing
  deriving DecidableEq, Repr

/-- What the nodes of a language mean for complexity. -/
structure Reading (κ : Type) where
  /-- The construct of a node that joins no operands. -/
  construct : ParseTree κ → Construct
  /-- The operator of a node that joins operands. -/
  connective : ParseTree κ → Option Connective
  /-- Chains come from operations only. -/
  construct_ne_chain : ∀ t operands, construct t ≠ .chain operands

namespace Reading

variable {κ : Type}

/-! ## Operands of a chain -/

/-- How much there is in some trees. -/
noncomputable def treesSize : List (ParseTree κ) → Nat
  | [] => 0
  | t :: ts => sizeOf t + treesSize ts

@[simp] theorem treesSize_nil : treesSize ([] : List (ParseTree κ)) = 0 := rfl

@[simp] theorem treesSize_cons (t : ParseTree κ) (ts : List (ParseTree κ)) :
    treesSize (t :: ts) = sizeOf t + treesSize ts := rfl

@[simp] theorem treesSize_append (ts us : List (ParseTree κ)) :
    treesSize (ts ++ us) = treesSize ts + treesSize us := by
  induction ts with
  | nil => simp
  | cons t ts ih => simp [ih, Nat.add_assoc]

@[simp] theorem treesSize_reverse (ts : List (ParseTree κ)) :
    treesSize ts.reverse = treesSize ts := by
  induction ts with
  | nil => rfl
  | cons t ts ih =>
    simp only [List.reverse_cons, treesSize_append, treesSize_cons, treesSize_nil, ih]
    omega

theorem treesSize_filter_lt (p : ParseTree κ → Bool) (cs : List (ParseTree κ)) :
    treesSize (cs.filter p) < sizeOf cs := by
  induction cs with
  | nil => simp
  | cons c cs ih =>
    rw [List.filter_cons, List.cons.sizeOf_spec]
    split
    · rw [treesSize_cons]
      omega
    · omega

/-- There is less in the children of a node than in the node, by more than one. -/
theorem treesSize_namedChildren_lt (t : ParseTree κ) :
    treesSize t.namedChildren + 1 < sizeOf t := by
  obtain ⟨k, role, field, row, text, cs⟩ := t
  have hcs := treesSize_filter_lt ParseTree.isNamed cs
  simp only [ParseTree.namedChildren, ParseTree.children, ParseTree.node.sizeOf_spec]
  omega

/-- The operands that have been found, the latest first, and then those among the nodes that
wait. An operation with the same operator is looked through: its children take its place. -/
def operandsFrom (r : Reading κ) (op : Connective) (found : List (ParseTree κ)) :
    List (ParseTree κ) → List (ParseTree κ)
  | [] => found.reverse
  | c :: waiting =>
    if r.connective c = some op then r.operandsFrom op found (c.namedChildren ++ waiting)
    else r.operandsFrom op (c :: found) waiting
termination_by waiting => treesSize waiting
decreasing_by
  · have hsize := treesSize_namedChildren_lt c
    simp only [treesSize_append, treesSize_cons]
    omega
  · have hsize := treesSize_namedChildren_lt c
    simp only [treesSize_cons]
    omega

/-- The operands that a chain of `op` has among siblings, in source order. -/
def operands (r : Reading κ) (op : Connective) (ts : List (ParseTree κ)) :
    List (ParseTree κ) :=
  r.operandsFrom op [] ts

theorem treesSize_operandsFrom_le (r : Reading κ) (op : Connective)
    (found waiting : List (ParseTree κ)) :
    treesSize (r.operandsFrom op found waiting) ≤ treesSize found + treesSize waiting := by
  fun_induction operandsFrom r op found waiting with
  | case1 found => simp
  | case2 found c waiting hop ih =>
    have hsize := treesSize_namedChildren_lt c
    simp only [treesSize_append, treesSize_cons] at ih ⊢
    omega
  | case3 found c waiting hop ih =>
    simp only [treesSize_cons] at ih ⊢
    omega

theorem treesSize_operands_le (r : Reading κ) (op : Connective) (ts : List (ParseTree κ)) :
    treesSize (r.operands op ts) ≤ treesSize ts := by
  have hsize := r.treesSize_operandsFrom_le op [] ts
  rwa [treesSize_nil, Nat.zero_add] at hsize

/-! ## Frames -/

/-- A node that is being lowered. -/
structure Frame (κ : Type) where
  construct : Construct
  /-- The nodes below it that are still to be lowered, in source order. -/
  pending : List (ParseTree κ)
  /-- The outlines of those that have been lowered, the latest first. -/
  lowered : List Outline

namespace Frame

/-- The outline of the node once nothing is pending. -/
def close (f : Frame κ) : Outline := .node f.construct f.lowered.reverse

/-- The frame with the outline of one more node below it. -/
def push (f : Frame κ) (o : Outline) : Frame κ := { f with lowered := o :: f.lowered }

end Frame

/-- The frame of a node before anything below it is lowered. -/
def frame (r : Reading κ) (t : ParseTree κ) : Frame κ :=
  match r.connective t with
  | some op =>
    let operands := r.operands op t.namedChildren
    ⟨.chain operands.length, operands, []⟩
  | none => ⟨r.construct t, t.namedChildren, []⟩

/-- How much there is to do in some frames. -/
noncomputable def framesSize : List (Frame κ) → Nat
  | [] => 0
  | f :: rest => treesSize f.pending + 1 + framesSize rest

theorem treesSize_frame_lt (r : Reading κ) (t : ParseTree κ) :
    treesSize (r.frame t).pending + 1 < sizeOf t := by
  have hchildren := treesSize_namedChildren_lt t
  unfold frame
  split
  · rename_i op _
    have hoperands := r.treesSize_operands_le op t.namedChildren
    simp only
    omega
  · exact hchildren

/-- The outline of the outermost node of some frames; none if there are no frames. A node that is
pending in the innermost frame gets a frame of its own, and a frame without pending nodes is
closed into the one around it. -/
def unwind (r : Reading κ) : List (Frame κ) → Option Outline
  | [] => none
  | ⟨k, c :: pending, lowered⟩ :: rest =>
    r.unwind (r.frame c :: ⟨k, pending, lowered⟩ :: rest)
  | [⟨k, [], lowered⟩] => some (⟨k, [], lowered⟩ : Frame κ).close
  | ⟨k, [], lowered⟩ :: parent :: rest =>
    r.unwind (parent.push (⟨k, [], lowered⟩ : Frame κ).close :: rest)
termination_by frames => framesSize frames
decreasing_by
  · have hsize := r.treesSize_frame_lt c
    simp only [framesSize, treesSize_cons]
    omega
  · simp only [framesSize, Frame.push, treesSize_nil]
    omega

/-- The outline of a tree. -/
def lower (r : Reading κ) (t : ParseTree κ) : Outline :=
  (r.unwind [r.frame t]).getD (.node .other [])

end Reading

end DocGate

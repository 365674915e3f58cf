/-
DocGate.Grammar.Walk — walks along the nodes of a tree.

The functions of a file are looked for along a walk that keeps its own stack of the
nodes still to come, so a tree may be nested more deeply than a call stack is. What lies
just below a node is a parameter (`Descent`), because one reader of the walk needs the
nodes themselves and another one needs them with the nodes around them.

* `Descent` — what lies below a thing, with a size that decreases on the way down.
* `Descent.walk` — everything at or below a thing.
* `ParseTree.visible` — the descent to the visible children of a node.

The walk without its stack is in `DocGate.Proofs.Grammar.Walk`.
-/
import DocGate.Grammar.ParseTree

namespace DocGate.Grammar

/-- How much there is in some things together. -/
def totalSize {α : Type} (size : α → Nat) : List α → Nat
  | [] => 0
  | a :: as => size a + totalSize size as

theorem totalSize_append {α : Type} (size : α → Nat) (as bs : List α) :
    totalSize size (as ++ bs) = totalSize size as + totalSize size bs := by
  induction as with
  | nil => rw [List.nil_append, totalSize, Nat.zero_add]
  | cons a as ih => rw [List.cons_append, totalSize, totalSize, ih, Nat.add_assoc]

theorem totalSize_map {α β : Type} (size : β → Nat) (f : α → β) (as : List α) :
    totalSize size (as.map f) = totalSize (fun a => size (f a)) as := by
  induction as with
  | nil => rfl
  | cons a as ih => rw [List.map_cons, totalSize, totalSize, ih]

/-- What lies just below each thing, in order. -/
structure Descent (α : Type) where
  below : α → List α
  /-- How much there is in a thing: more than in all that lies just below it together. -/
  size : α → Nat
  totalSize_below_lt : ∀ a, totalSize size (below a) < size a

namespace Descent

variable {α : Type} (d : Descent α)

/-- The things that have been visited, the latest first, and then those on the stack, each
followed by whatever is below it. -/
def walkFrom (found : List α) : List α → List α
  | [] => found.reverse
  | a :: stack => walkFrom (a :: found) (d.below a ++ stack)
termination_by stack => totalSize d.size stack
decreasing_by
  have hsize := d.totalSize_below_lt a
  rw [totalSize_append, totalSize]
  omega

/-- A thing and all that is below it, each before what lies below it. -/
def walk (a : α) : List α := d.walkFrom [] [a]

end Descent

namespace ParseTree

variable {κ : Type}

mutual

/-- The number of nodes of a tree. -/
def size : ParseTree κ → Nat
  | .node _ _ _ _ _ cs => sizeAll cs + 1

/-- The number of nodes of some trees. -/
def sizeAll : List (ParseTree κ) → Nat
  | [] => 0
  | c :: cs => c.size + sizeAll cs

end

theorem totalSize_filter_le (p : ParseTree κ → Bool) (cs : List (ParseTree κ)) :
    totalSize size (cs.filter p) ≤ sizeAll cs := by
  induction cs with
  | nil => exact Nat.le_refl 0
  | cons c cs ih =>
    rw [List.filter_cons, sizeAll]
    split
    · rw [totalSize]
      omega
    · omega

/-- From a node to its visible children. -/
def visible : Descent (ParseTree κ) where
  below := visibleChildren
  size := size
  totalSize_below_lt
    | .node _ _ _ _ _ cs => Nat.lt_succ_of_le (totalSize_filter_le isVisible cs)

end ParseTree

end DocGate.Grammar

/-
DocGate.Proofs.Grammar.RowOrder — trees in the order of their rows.

The nodes of a source stand one behind the other: each starts where the one before it
ends, or later, and the nodes inside a node lie between its start and its end. A tree
does not keep where its nodes end, so `InRows` guesses it.

* `InRows`, `ParseTree.InOrder` — siblings between two rows, and a tree by itself.
* `InRows.pairwise_preorder`, `ParseTree.InOrder.pairwise_preorder` — the rows of all
  nodes, listed in preorder, do not decrease.

To compare the children of each node with one another and with their parent is not
enough for that: it says nothing about a node and what is inside its elder sibling.
-/
import DocGate.Proofs.Grammar.Preorder

namespace DocGate.Grammar

variable {κ : Type} {t : ParseTree κ} {ts us : List (ParseTree κ)} {a a' b b' : Nat}

/-- The trees lie one behind the other in the rows from `a` to `b`, and so do the trees inside
each of them in the rows from its own up to a row that the next tree does not precede. -/
inductive InRows : Nat → Nat → List (ParseTree κ) → Prop
  | nil {a b : Nat} (hle : a ≤ b) : InRows a b []
  | cons {a m b : Nat} {t : ParseTree κ} {ts : List (ParseTree κ)} (hrow : a ≤ t.row)
      (inside : InRows t.row m t.children) (rest : InRows m b ts) : InRows a b (t :: ts)

namespace InRows

theorem le (h : InRows a b ts) : a ≤ b := by
  induction h with
  | nil hle => exact hle
  | cons hrow _ _ hinside hrest => omega

theorem mono_left (h : InRows a b ts) (hle : a' ≤ a) : InRows a' b ts := by
  cases h with
  | nil h => exact .nil (Nat.le_trans hle h)
  | cons hrow inside rest => exact .cons (Nat.le_trans hle hrow) inside rest

theorem mono_right (h : InRows a b ts) (hle : b ≤ b') : InRows a b' ts := by
  induction h with
  | nil h => exact .nil (Nat.le_trans h hle)
  | cons hrow inside _ _ ih => exact .cons hrow inside (ih hle)

theorem append {m : Nat} (h : InRows a m ts) (h' : InRows m b us) : InRows a b (ts ++ us) := by
  induction h with
  | nil hle => exact h'.mono_left hle
  | cons hrow inside _ _ ih => exact .cons hrow inside (ih h')

theorem exists_of_append (h : InRows a b (ts ++ us)) : ∃ m, InRows a m ts ∧ InRows m b us := by
  induction ts generalizing a with
  | nil => exact ⟨a, .nil (Nat.le_refl _), h⟩
  | cons t ts ih =>
    cases h with
    | cons hrow inside rest =>
      obtain ⟨m, hts, hus⟩ := ih rest
      exact ⟨m, .cons hrow inside hts, hus⟩

theorem leaf {k : κ} {r : Role} {s : String} (hle : a ≤ b) : InRows a b [.leaf k r a s] :=
  .cons (Nat.le_refl _) (.nil (Nat.le_refl _)) (.nil hle)

/-- Trees that are put into fields stay where they are. -/
theorem map_inField (h : InRows a b ts) (p : ParseTree κ → Bool) (f : Field) :
    InRows a b (ts.map fun t => if p t then t else t.inField f) := by
  induction ts generalizing a with
  | nil => exact h
  | cons t ts ih =>
    cases h with
    | cons hrow inside rest =>
      rw [List.map_cons]
      split
      · exact .cons hrow inside (ih rest)
      · obtain ⟨k, r, f', row, s, cs⟩ := t
        exact .cons hrow inside (ih rest)

/-- A row of trees may be closed into one node that starts with the first of them. -/
theorem close (h : InRows a b ts) {k : κ} {r : Role} {f : Option Field} {s : String} {row : Nat}
    (hrow : row = (ts.head?.map ParseTree.row).getD b) : InRows a b [.node k r f row s ts] := by
  subst hrow
  cases h with
  | nil hle => exact .cons hle (.nil (Nat.le_refl _)) (.nil (Nat.le_refl _))
  | cons hrow inside rest => exact .cons hrow (.cons (Nat.le_refl _) inside rest) (.nil (Nat.le_refl _))

/-- All nodes that are reached lie between the two rows. -/
theorem row_of_mem_preorder (h : InRows a b ts) {v : ParseTree κ}
    (hv : v ∈ (ts.filter ParseTree.isVisible).flatMap ParseTree.preorder) :
    a ≤ v.row ∧ v.row ≤ b := by
  induction h with
  | nil => simp at hv
  | @cons a m b t ts hrow inside rest hinside hrest =>
    have hm := inside.le
    have hb := rest.le
    rw [List.filter_cons] at hv
    split at hv
    · rw [List.flatMap_cons, ParseTree.preorder_eq_cons] at hv
      rcases List.mem_append.mp hv with hv | hv
      · rcases List.mem_cons.mp hv with rfl | hv
        · omega
        · have := hinside hv
          omega
      · have := hrest hv
        omega
    · have := hrest hv
      omega

/-- What is inside one of the trees ends before the last of the rows. -/
theorem exists_inside_of_mem (h : InRows a b ts) (ht : t ∈ ts) :
    ∃ m ≤ b, InRows t.row m t.children := by
  induction h with
  | nil => simp at ht
  | @cons a m b u us hrow inside rest _ ih =>
    rcases List.mem_cons.mp ht with rfl | ht
    · exact ⟨m, rest.le, inside⟩
    · exact ih ht

/-- No node of one of the trees lies behind the last of the rows. -/
theorem row_le_of_mem (h : InRows a b ts) (ht : t ∈ ts) {v : ParseTree κ}
    (hv : v ∈ t.preorder) : v.row ≤ b := by
  obtain ⟨m, hm, hinside⟩ := h.exists_inside_of_mem ht
  rw [ParseTree.preorder_eq_cons] at hv
  rcases List.mem_cons.mp hv with rfl | hv
  · exact Nat.le_trans hinside.le hm
  · exact Nat.le_trans (hinside.row_of_mem_preorder hv).2 hm

/-- In preorder the rows of the nodes do not decrease. -/
theorem pairwise_preorder (h : InRows a b ts) :
    ((ts.filter ParseTree.isVisible).flatMap ParseTree.preorder).Pairwise
      fun v w => v.row ≤ w.row := by
  induction h with
  | nil => exact .nil
  | @cons a m b t ts hrow inside rest hinside hrest =>
    rw [List.filter_cons]
    split
    · rw [List.flatMap_cons, ParseTree.preorder_eq_cons]
      refine List.pairwise_append.mpr ⟨List.pairwise_cons.mpr ⟨fun v hv => ?_, hinside⟩, hrest, ?_⟩
      · exact (inside.row_of_mem_preorder hv).1
      · intro v hv w hw
        have hw := (rest.row_of_mem_preorder hw).1
        rcases List.mem_cons.mp hv with rfl | hv
        · exact Nat.le_trans inside.le hw
        · exact Nat.le_trans (inside.row_of_mem_preorder hv).2 hw
    · exact hrest

end InRows

/-- The nodes of a tree lie one behind the other. -/
def ParseTree.InOrder (t : ParseTree κ) : Prop := ∃ stop, InRows t.row stop t.children

namespace ParseTree.InOrder

theorem of_mem (h : InRows a b ts) (ht : t ∈ ts) : t.InOrder := by
  obtain ⟨m, -, hinside⟩ := h.exists_inside_of_mem ht
  exact ⟨m, hinside⟩

theorem pairwise_preorder (h : t.InOrder) : t.preorder.Pairwise fun v w => v.row ≤ w.row := by
  obtain ⟨stop, hstop⟩ := h
  rw [preorder_eq_cons]
  exact List.pairwise_cons.mpr
    ⟨fun v hv => (hstop.row_of_mem_preorder hv).1, hstop.pairwise_preorder⟩

end ParseTree.InOrder

end DocGate.Grammar

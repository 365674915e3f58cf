/-
DocGate.Proofs.Grammar.Cursor — cursors that know their row.

The row of a cursor is counted along with its moves and never looked up. As long as
cursors move forward it is the number of line feeds before their place, so two cursors
at one place have the same row, whatever way led there.

* `Source.rowAt`, `Source.rowAt_eq_count` — the row of a place, and that it counts line
  feeds.
* `KnowsRow`, `KnowsRow.moveTo` — a cursor that has the row of its place keeps it on a
  move forward.
* `ReadFrom` — what holds of the nodes that have been read since some row, and of the
  cursor behind them: the nodes are in order, and the cursor knows its row.
* `RuleSet.ScansForward` — the side condition of all that is proved of the machine: a
  lexeme of the grammar is found at or behind a cursor that knows its row.
-/
import Mathlib.Data.List.Count
import DocGate.Grammar.Rule
import DocGate.Proofs.Grammar.RowOrder

namespace DocGate.Grammar

namespace Source

variable (s : Source)

/-! ## Skipping -/

theorem le_skipWithin (p : Char → Bool) (fuel i : Nat) : i ≤ s.skipWithin p fuel i := by
  induction fuel generalizing i with
  | zero => exact Nat.le_refl i
  | succ fuel ih =>
    rw [skipWithin]
    split
    · exact Nat.le_of_succ_le (ih (i + 1))
    · exact Nat.le_refl i

theorem le_skipWhile (p : Char → Bool) (i : Nat) : i ≤ s.skipWhile p i :=
  s.le_skipWithin p (s.size - i) i

/-! ## Rows -/

/-- The row of a place: the number of line feeds before it. -/
def rowAt (i : Nat) : Nat := s.lineFeeds i 0 0

theorem lineFeeds_add (n m i found : Nat) :
    s.lineFeeds (n + m) i found = s.lineFeeds m (i + n) (s.lineFeeds n i found) := by
  induction n generalizing i found with
  | zero => rw [Nat.zero_add, Nat.add_zero, lineFeeds]
  | succ n ih =>
    rw [Nat.add_right_comm, lineFeeds, lineFeeds, ih, Nat.add_assoc, Nat.add_comm 1 n]

theorem le_lineFeeds (n i found : Nat) : found ≤ s.lineFeeds n i found := by
  induction n generalizing i found with
  | zero => exact Nat.le_refl found
  | succ n ih =>
    rw [lineFeeds]
    refine Nat.le_trans ?_ (ih (i + 1) _)
    split <;> omega

theorem lineFeeds_rowAt {i j : Nat} (h : i ≤ j) :
    s.lineFeeds (j - i) i (s.rowAt i) = s.rowAt j := by
  have hadd := s.lineFeeds_add i (j - i) 0 0
  rw [Nat.add_sub_cancel' h, Nat.zero_add] at hadd
  exact hadd.symm

theorem rowAt_succ (i : Nat) :
    s.rowAt (i + 1) = if s.peek i = '\n' then s.rowAt i + 1 else s.rowAt i := by
  rw [rowAt, lineFeeds_add, lineFeeds, lineFeeds, Nat.zero_add]
  simp only [beq_iff_eq]
  rfl

/-- The row of a place in terms of the characters before it. -/
theorem rowAt_eq_count (i : Nat) : s.rowAt i = (s.chars.toList.take i).count '\n' := by
  induction i with
  | zero => rfl
  | succ i ih =>
    rw [rowAt_succ, ih, List.take_add_one, List.count_append, peek, Array.getD_eq_getD_getElem?,
      Array.getElem?_toList]
    cases s.chars[i]? with
    | none => rfl
    | some c => by_cases hc : c = '\n' <;> simp [hc]

theorem rowAt_le_count (i : Nat) : s.rowAt i ≤ s.chars.toList.count '\n' := by
  rw [rowAt_eq_count]
  exact (List.take_sublist i _).count_le '\n'

end Source

namespace Cursor

variable {μ : Type} {s : Source} {p : Cursor μ} {i : Nat}

/-- The row of the cursor is the row of its place. -/
def KnowsRow (s : Source) (p : Cursor μ) : Prop := p.row = s.rowAt p.pos

theorem KnowsRow.moveTo (h : p.KnowsRow s) (hi : p.pos ≤ i) : (p.moveTo s i).KnowsRow s := by
  have hrow : s.lineFeeds (i - p.pos) p.pos p.row = s.rowAt i := by
    rw [h]
    exact s.lineFeeds_rowAt hi
  exact hrow

theorem row_le_moveTo (p : Cursor μ) (s : Source) (i : Nat) : p.row ≤ (p.moveTo s i).row :=
  s.le_lineFeeds (i - p.pos) p.pos p.row

end Cursor

/-! ## What has been read -/

variable {κ μ : Type}

/-- The nodes that have been read since row `a`, last one first, with the cursor behind them. -/
structure ReadFrom (s : Source) (a : Nat) (nodes : List (ParseTree κ)) (p : Cursor μ) : Prop where
  knowsRow : p.KnowsRow s
  inRows : InRows a p.row nodes.reverse

namespace ReadFrom

variable {s : Source} {a i : Nat} {nodes before : List (ParseTree κ)} {p q : Cursor μ}

theorem nil (h : p.KnowsRow s) : ReadFrom s p.row ([] : List (ParseTree κ)) p :=
  ⟨h, .nil (Nat.le_refl _)⟩

theorem moveTo (h : ReadFrom s a nodes p) (hi : p.pos ≤ i) :
    ReadFrom s a nodes (p.moveTo s i) :=
  ⟨h.knowsRow.moveTo hi, h.inRows.mono_right (p.row_le_moveTo s i)⟩

theorem append (h : ReadFrom s a before q) (h' : ReadFrom s q.row nodes p) :
    ReadFrom s a (nodes ++ before) p := by
  refine ⟨h'.knowsRow, ?_⟩
  rw [List.reverse_append]
  exact h.inRows.append h'.inRows

/-- A leaf is read from the cursor on. -/
theorem leaf (h : ReadFrom s a nodes p) (hi : p.pos ≤ i) (k : κ) (r : Role) (text : String) :
    ReadFrom s a (.leaf k r p.row text :: nodes) (p.moveTo s i) := by
  refine ⟨h.knowsRow.moveTo hi, ?_⟩
  rw [List.reverse_cons]
  exact h.inRows.append (.leaf (p.row_le_moveTo s i))

end ReadFrom

/-- What has been read once a lexeme is there: the comments before it and the leaf for it. -/
def Lexeme.nodes (l : Lexeme κ μ) : List (ParseTree κ) := l.leaf.toList ++ l.comments.reverse

/-- A lexeme stands behind the cursor at which it was looked for, and so do its comments. -/
def Lexeme.Follows (s : Source) (p : Cursor μ) (l : Lexeme κ μ) : Prop :=
  ReadFrom s p.row l.nodes l.next

namespace ReadFrom

variable {s : Source} {a i : Nat} {comments : List (ParseTree κ)} {p : Cursor μ}

/-- A lexeme that leaves no leaf has only the comments before it to show. -/
theorem leafless (h : ReadFrom s a comments p) :
    ReadFrom s a ({ comments := comments.reverse, next := p } : Lexeme κ μ).nodes p := by
  simp only [Lexeme.nodes, Option.toList_none, List.nil_append, List.reverse_reverse]
  exact h

/-- A lexeme from the cursor on leaves a leaf behind the comments before it. -/
theorem lexeme (h : ReadFrom s a comments p) (hi : p.pos ≤ i) (k : κ) (r : Role)
    (text : String) :
    ReadFrom s a
      ({ comments := comments.reverse, leaf := some (.leaf k r p.row text),
         next := p.moveTo s i } : Lexeme κ μ).nodes (p.moveTo s i) := by
  simp only [Lexeme.nodes, Option.toList_some, List.singleton_append, List.reverse_reverse]
  exact h.leaf hi k r text

end ReadFrom

/-- The lexemes of a grammar are found behind the cursor at which they are looked for. -/
def RuleSet.ScansForward {σ τ : Type} (g : RuleSet σ τ κ μ) : Prop :=
  ∀ (t : τ) (s : Source) (p : Cursor μ), p.KnowsRow s → ∀ l ∈ g.scan t s p, l.Follows s p

end DocGate.Grammar

/-
DocGate.Proofs.Grammar.MachineOrder — the machine reads forward.

The machine goes back and starts again, it takes nodes that are finished into nodes that
are not, and it answers from memory, so the order is not seen from the nodes at hand
alone.

* `Config.InOrder` — the invariant. The nodes at hand were read since some row, up to
  the cursor; each frame on the stack keeps nodes that end where those above it begin,
  or a cursor to go back to with the nodes that belong to it; and what is remembered of
  a place was read since the row of that place.
* `Config.InOrder.step`, `Config.InOrder.run` — a step keeps it, and so does a run.
* `RuleSet.inOrder_of_parse?` — the nodes of every tree that the machine builds lie one
  behind the other.
* `RuleSet.row_le_count_of_parse?` — no row is above the number of line feeds of the
  source.

Nothing is asked of the rules. Of the lexical rules it is asked that they find lexemes
forward (`RuleSet.ScansForward`), which each language proves of its own.
-/
import Mathlib.Data.List.TakeDrop
import Std.Data.HashMap.Lemmas
import DocGate.Grammar.Machine
import DocGate.Proofs.Grammar.Cursor

namespace DocGate.Grammar

variable {σ τ κ μ : Type} {s : Source}

/-! ## Nodes in the making -/

/-- The first node that is no comment is the first one behind the comments that lead. -/
theorem firstRow?_dropWhile_isExtra (ts : List (ParseTree κ)) :
    ParseTree.firstRow? (ts.dropWhile ParseTree.isExtra)
      = (ts.dropWhile ParseTree.isExtra).head?.map ParseTree.row := by
  cases hchildren : ts.dropWhile ParseTree.isExtra with
  | nil => rfl
  | cons t rest =>
    have ht : t.isExtra = false := by
      have hhead := List.head?_dropWhile_not ParseTree.isExtra ts
      rw [hchildren] at hhead
      simpa using hhead
    rw [ParseTree.firstRow?, List.find?_cons_of_pos (by simp [ht])]
    rfl

theorem InRows.closeNode {a m row : Nat} {read before : List (ParseTree κ)}
    (hbefore : InRows a m before.reverse) (hread : InRows m row read.reverse) (kind : κ)
    (text : String) : InRows a row (closeNode kind text row read before).reverse := by
  rw [← List.takeWhile_append_dropWhile (p := ParseTree.isExtra) (l := read.reverse)] at hread
  obtain ⟨n, hcomments, hchildren⟩ := hread.exists_of_append
  have hrow := congrArg (Option.getD · row) (firstRow?_dropWhile_isExtra read.reverse)
  rw [Grammar.closeNode, List.reverse_cons, List.reverse_append, List.reverse_reverse]
  exact (hbefore.append hcomments).append (hchildren.close hrow)

theorem InRows.takeLeft {a b : Nat} {nodes left before : List (ParseTree κ)} {f : Option Field}
    (h : InRows a b nodes.reverse) (htake : takeLeft f nodes = some (left, before)) :
    ∃ m, InRows a m before.reverse ∧ InRows m b left.reverse := by
  rw [Grammar.takeLeft, List.span_eq_takeWhile_dropWhile] at htake
  split at htake
  · cases htake
  · rename_i comments t rest heq
    obtain ⟨hcomments, hrest⟩ := Prod.mk.inj heq
    have hnodes : nodes = comments ++ t :: rest := by
      rw [← hcomments, ← hrest, List.takeWhile_append_dropWhile]
    cases htake
    rw [hnodes, List.reverse_append, List.reverse_cons, List.append_assoc] at h
    obtain ⟨m, hbefore, hleft⟩ := h.exists_of_append
    refine ⟨m, hbefore, ?_⟩
    rw [List.reverse_append, List.reverse_singleton]
    cases hleft with
    | cons hrow inside rest =>
      cases f with
      | none => exact .cons hrow inside rest
      | some f =>
        obtain ⟨k, r, f', row, text, cs⟩ := t
        exact .cons hrow inside rest

/-! ## The invariant -/

/-- A frame on top of which nodes are at hand that were read since row `m`, while those that are
at hand when it is gone were read since row `a`. -/
inductive Frame.Fits (s : Source) : Frame σ τ κ μ → Nat → Nat → Prop
  | seq {a : Nat} {rest : List (Rule σ τ κ)} : Fits s (.seq rest) a a
  | choice {a : Nat} {rest : List (Rule σ τ κ)} {back : Cursor μ} {nodes : List (ParseTree κ)}
      (h : ReadFrom s a nodes back) : Fits s (.choice rest back nodes) a a
  | many {a : Nat} {r : Rule σ τ κ} {back : Cursor μ} {nodes : List (ParseTree κ)}
      (h : ReadFrom s a nodes back) : Fits s (.many r back nodes) a a
  | node {a m : Nat} {k : κ} {before : List (ParseTree κ)} (h : InRows a m before.reverse) :
      Fits s (.node k before) m a
  | quote {a m start : Nat} {k : κ} {before : List (ParseTree κ)}
      (h : InRows a m before.reverse) : Fits s (.quote k start before) m a
  | fill {a m : Nat} {f : Field} {before : List (ParseTree κ)} (h : InRows a m before.reverse) :
      Fits s (.fill f before) m a
  | ahead {a : Nat} {back : Cursor μ} {nodes : List (ParseTree κ)} (h : ReadFrom s a nodes back) :
      Fits s (.ahead back nodes) a a
  | unless {a : Nat} {back : Cursor μ} {nodes : List (ParseTree κ)}
      (h : ReadFrom s a nodes back) : Fits s (.unless back nodes) a a
  | remember {a pos : Nat} {x : σ} {before : List (ParseTree κ)}
      (h : InRows a (s.rowAt pos) before.reverse) :
      Fits s (.remember x pos before) (s.rowAt pos) a

/-- A stack on top of which nodes are at hand that were read since row `a`. -/
inductive StackFits (s : Source) : List (Frame σ τ κ μ) → Nat → Prop
  | nil {a : Nat} : StackFits s [] a
  | cons {m a : Nat} {frame : Frame σ τ κ μ} {stack : List (Frame σ τ κ μ)}
      (top : frame.Fits s m a) (rest : StackFits s stack a) : StackFits s (frame :: stack) m

variable [BEq σ] [Hashable σ]

/-- All that a configuration holds was read forward. After a failure the nodes at hand and the
cursor are about to be dropped, and nothing is said of them. -/
structure Config.InOrder (s : Source) (c : Config σ τ κ μ) : Prop where
  memory : ∀ (x : σ) (pos : Nat) (read : List (ParseTree κ)) (p : Cursor μ),
    c.memory[(x, pos)]? = some (some (read, p)) →
      ReadFrom s (s.rowAt pos) read p
  rows : ∃ a, StackFits s c.stack a ∧ (c.task ≠ .fail → ReadFrom s a c.nodes c.cursor)

variable {g : RuleSet σ τ κ μ} {c : Config σ τ κ μ}

theorem Config.InOrder.readRule (hg : g.ScansForward) (hc : c.InOrder s) {rule : Rule σ τ κ}
    (htask : c.task = .read rule) : (readRule g s rule c).InOrder s := by
  obtain ⟨hmem, a, hstack, hread⟩ := hc
  have hread : ReadFrom s a c.nodes c.cursor := hread (by simp [htask])
  have hfail : ({ c with task := .fail } : Config σ τ κ μ).InOrder s :=
    ⟨hmem, a, hstack, fun h => absurd rfl h⟩
  -- Most rules begin a construct at the cursor or go on with the nodes at hand.
  have hempty := ReadFrom.nil (κ := κ) hread.knowsRow
  cases rule with
  | token t =>
    rw [Grammar.readRule]
    cases hl : g.scan t s c.cursor with
    | none => exact hfail
    | some l =>
      have hnext := hread.append (hg t s c.cursor hread.knowsRow l hl)
      cases l with
      | mk comments leaf next => cases leaf <;> exact ⟨hmem, a, hstack, fun _ => hnext⟩
  | seq rules =>
    match rules with
    | [] => exact ⟨hmem, a, hstack, fun _ => hread⟩
    | [r] => exact ⟨hmem, a, hstack, fun _ => hread⟩
    | r :: r' :: rs => exact ⟨hmem, a, .cons .seq hstack, fun _ => hread⟩
  | choice rules =>
    match rules with
    | [] => exact hfail
    | [r] => exact ⟨hmem, a, hstack, fun _ => hread⟩
    | r :: r' :: rs => exact ⟨hmem, a, .cons (.choice hread) hstack, fun _ => hread⟩
  | many r => exact ⟨hmem, a, .cons (.many hread) hstack, fun _ => hread⟩
  | ref x =>
    rw [Grammar.readRule]
    split
    · have hrow := hread.knowsRow
      split
      · exact hfail
      · rename_i read p hfound
        have hremembered := hmem x c.cursor.pos read p hfound
        rw [← hrow] at hremembered
        exact ⟨hmem, a, hstack, fun _ => hread.append hremembered⟩
      · have hbefore := hread.inRows
        rw [hrow] at hempty hbefore
        exact ⟨hmem, s.rowAt c.cursor.pos, .cons (.remember hbefore) hstack, fun _ => hempty⟩
    · exact ⟨hmem, a, hstack, fun _ => hread⟩
  | lead table otherwise =>
    rw [Grammar.readRule]
    split <;> exact ⟨hmem, a, hstack, fun _ => hread⟩
  | ahead r => exact ⟨hmem, a, .cons (.ahead hread) hstack, fun _ => hread⟩
  | «unless» r => exact ⟨hmem, a, .cons (.unless hread) hstack, fun _ => hread⟩
  | after p =>
    rw [Grammar.readRule]
    split
    · split
      · exact ⟨hmem, a, hstack, fun _ => hread⟩
      · exact hfail
    · exact hfail
  | node k r => exact ⟨hmem, _, .cons (.node hread.inRows) hstack, fun _ => hempty⟩
  | quote k r => exact ⟨hmem, _, .cons (.quote hread.inRows) hstack, fun _ => hempty⟩
  | fill f r => exact ⟨hmem, _, .cons (.fill hread.inRows) hstack, fun _ => hempty⟩
  | wrap k f r =>
    rw [Grammar.readRule]
    split
    · exact hfail
    · rename_i left before htake
      obtain ⟨m, hbefore, hleft⟩ := hread.inRows.takeLeft htake
      exact ⟨hmem, m, .cons (.node hbefore) hstack, fun _ => ⟨hread.knowsRow, hleft⟩⟩

/-- Nothing has been read at the start of a source. -/
theorem Config.InOrder.start (s : Source) (task : Task σ τ κ) (memory : μ) :
    Config.InOrder s
      { task := task, cursor := ⟨0, 0, memory⟩, nodes := [], stack := [], memory := {} } :=
  ⟨by simp, 0, .nil, fun _ => ⟨rfl, .nil (Nat.le_refl 0)⟩⟩

/-- What is accepted lies in order, up to the row of some place. -/
theorem Config.InOrder.accepted (hc : c.InOrder s) {nodes : List (ParseTree κ)}
    (hstep : Grammar.step g s c = .accepted nodes) : ∃ a i, InRows a (s.rowAt i) nodes := by
  obtain ⟨-, a, -, hread⟩ := hc
  rw [Grammar.step] at hstep
  split at hstep
  · cases hstep
  · rename_i htask
    split at hstep
    · cases hstep
      have hread := hread (by simp [htask])
      exact ⟨a, c.cursor.pos, hread.knowsRow ▸ hread.inRows⟩
    · cases hstep
  · split at hstep <;> cases hstep

variable [LawfulBEq σ]

theorem Config.InOrder.succeedInto {frame : Frame σ τ κ μ} {stack : List (Frame σ τ κ μ)}
    (hc : c.InOrder s) (htask : c.task = .succeed) (hstack : c.stack = frame :: stack) :
    (succeedInto s frame { c with stack := stack }).InOrder s := by
  obtain ⟨hmem, m, hfits, hread⟩ := hc
  have hread : ReadFrom s m c.nodes c.cursor := hread (by simp [htask])
  rw [hstack] at hfits
  obtain _ | ⟨htop, hrest⟩ := hfits
  cases htop with
  | seq => exact ⟨hmem, m, hrest, fun _ => hread⟩
  | choice => exact ⟨hmem, m, hrest, fun _ => hread⟩
  | many =>
    rw [Grammar.succeedInto]
    split
    · exact ⟨hmem, m, .cons (.many hread) hrest, fun _ => hread⟩
    · exact ⟨hmem, m, hrest, fun _ => hread⟩
  | node hbefore =>
    exact ⟨hmem, _, hrest, fun _ => ⟨hread.knowsRow, hbefore.closeNode hread.inRows _ _⟩⟩
  | quote hbefore =>
    exact ⟨hmem, _, hrest, fun _ => ⟨hread.knowsRow, hbefore.closeNode hread.inRows _ _⟩⟩
  | @fill _ _ f before hbefore =>
    refine ⟨hmem, _, hrest, fun _ => ⟨hread.knowsRow, ?_⟩⟩
    have hfilled := hread.inRows.map_inField ParseTree.isExtra f
    rw [List.map_reverse] at hfilled
    rw [Grammar.succeedInto, List.reverse_append]
    exact hbefore.append hfilled
  | ahead hback => exact ⟨hmem, m, hrest, fun _ => hback⟩
  | «unless» => exact ⟨hmem, m, hrest, fun h => absurd rfl h⟩
  | @remember _ pos x before hbefore =>
    refine ⟨fun y pos' read p hfound => ?_, _, hrest, fun _ => ⟨hread.knowsRow, ?_⟩⟩
    · simp only [Grammar.succeedInto, Std.HashMap.getElem?_insert] at hfound
      split at hfound
      · rename_i hkey
        cases eq_of_beq hkey
        cases hfound
        exact hread
      · exact hmem y pos' read p hfound
    · rw [Grammar.succeedInto, List.reverse_append]
      exact hbefore.append hread.inRows

theorem Config.InOrder.failInto {frame : Frame σ τ κ μ} {stack : List (Frame σ τ κ μ)}
    (hc : c.InOrder s) (htask : c.task = .fail) (hstack : c.stack = frame :: stack) :
    (failInto frame { c with stack := stack }).InOrder s := by
  obtain ⟨hmem, m, hfits, -⟩ := hc
  rw [hstack] at hfits
  obtain _ | ⟨htop, hrest⟩ := hfits
  have hpass : ∀ {a}, StackFits s stack a →
      ({ c with stack := stack } : Config σ τ κ μ).InOrder s :=
    fun hrest => ⟨hmem, _, hrest, fun h => absurd htask h⟩
  cases htop with
  | choice hback => exact ⟨hmem, m, hrest, fun _ => hback⟩
  | many hback => exact ⟨hmem, m, hrest, fun _ => hback⟩
  | «unless» hback => exact ⟨hmem, m, hrest, fun _ => hback⟩
  | @remember _ pos x before hbefore =>
    refine ⟨fun y pos' read p hfound => ?_, _, hrest, fun h => absurd htask h⟩
    simp only [Grammar.failInto, Std.HashMap.getElem?_insert] at hfound
    split at hfound
    · cases hfound
    · exact hmem y pos' read p hfound
  | seq => exact hpass hrest
  | node => exact hpass hrest
  | quote => exact hpass hrest
  | fill => exact hpass hrest
  | ahead => exact hpass hrest

/-- What one step preserves. -/
theorem Config.InOrder.step (hg : g.ScansForward) (hc : c.InOrder s) {next : Config σ τ κ μ}
    (hstep : step g s c = .next next) : next.InOrder s := by
  rw [Grammar.step] at hstep
  split at hstep
  · rename_i rule htask
    cases hstep
    exact hc.readRule hg htask
  · rename_i htask
    split at hstep
    · cases hstep
    · rename_i frame stack hstack
      cases hstep
      exact hc.succeedInto htask hstack
  · rename_i htask
    split at hstep
    · cases hstep
    · rename_i frame stack hstack
      cases hstep
      exact hc.failInto htask hstack

/-- What a whole run preserves. -/
theorem Config.InOrder.run (hg : g.ScansForward) (hc : c.InOrder s) {fuel : Nat}
    {nodes : List (ParseTree κ)} (hrun : run g s fuel c = some nodes) :
    ∃ a i, InRows a (s.rowAt i) nodes := by
  induction fuel generalizing c with
  | zero => cases hrun
  | succ fuel ih =>
    rw [Grammar.run] at hrun
    split at hrun
    · rename_i next hstep
      exact ih (hc.step hg hstep) hrun
    · rename_i hstep
      cases hrun
      exact hc.accepted hstep
    · cases hrun

/-- The nodes of the tree of a source lie one behind the other. -/
theorem RuleSet.inOrder_of_parse? (hg : g.ScansForward) {t : ParseTree κ}
    (ht : g.parse? s = some t) : t.InOrder := by
  obtain ⟨nodes, hrun, hfind⟩ := Option.bind_eq_some_iff.mp ht
  obtain ⟨a, b, hnodes⟩ := (Config.InOrder.start s _ _).run hg hrun
  exact ParseTree.InOrder.of_mem hnodes (List.mem_of_find?_eq_some hfind)

/-- No node of the tree of a source has a row behind the last line feed. -/
theorem RuleSet.row_le_count_of_parse? (hg : g.ScansForward) {t : ParseTree κ}
    (ht : g.parse? s = some t) {v : ParseTree κ} (hv : v ∈ t.preorder) :
    v.row ≤ s.chars.toList.count '\n' := by
  obtain ⟨nodes, hrun, hfind⟩ := Option.bind_eq_some_iff.mp ht
  obtain ⟨a, i, hnodes⟩ := (Config.InOrder.start s _ _).run hg hrun
  exact Nat.le_trans (hnodes.row_le_of_mem (List.mem_of_find?_eq_some hfind) hv)
    (s.rowAt_le_count i)

end DocGate.Grammar

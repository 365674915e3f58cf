/-
DocGate.Proofs.Grammar.Placement — where the nodes of a tree start.

A lexeme stands at a character, and a node starts where the first node inside it does
that is no comment. A node without any starts where the machine stands when it closes
it, and that may be the end of the text. So each rule that closes a node has to be sure
to read something into it.

* `Rule.leavesNode`, `Rule.grounded` — what a rule is sure to read, and whether every
  node that it closes is sure to have something in it. Both are computed from the rules
  alone; of a symbol it is taken for granted, and checked once of the rule that it
  stands for (`Grounding.Holds`).
* `ParseTree.Placed` — a tree whose nodes all start on the row of a character.
* `owes` — whether the construct at hand needs a node that no frame will read. The
  invariant `Config.Placed` says that then it has one already, or the task at hand will
  read one.
* `RuleSet.placed_of_parse?` — everything inside the tree of a source is placed.

The side conditions are that lexemes are found forward, that the grounding holds, and
that the rule of the start symbol closes one node around a grounded rule. That outermost
node may stay empty, since a source may be, and nothing is said of its own row.
-/
import Mathlib.Data.List.TakeWhile
import DocGate.Proofs.Grammar.MachineOrder

namespace DocGate.Grammar

variable {σ τ κ μ : Type} {s : Source}

/-! ## The end of a source -/

namespace Source

variable {i : Nat}

/-- There is nothing to see behind the end. -/
theorem peek_of_size_le (h : s.size ≤ i) : s.peek i = '\x00' := by
  rw [peek, Array.getD_eq_getD_getElem?, Array.getElem?_eq_none h, Option.getD_none]

theorem lt_size_of_peek {c : Char} (h : s.peek i = c) (hc : c ≠ '\x00') : i < s.size := by
  by_contra hend
  exact hc (h.symm.trans (peek_of_size_le (Nat.le_of_not_lt hend)))

theorem lt_size_of_startsAt {t : String} (h : s.startsAt i t) (ht : t.toList ≠ []) :
    i < s.size := by
  rw [startsAt] at h
  cases hcs : t.toList with
  | nil => exact absurd hcs ht
  | cons c cs =>
    rw [hcs, hasAt, Bool.and_eq_true, Bool.and_eq_true, atEnd] at h
    simpa [size] using h.1.1

theorem lt_size_of_slice {j : Nat} {t : String} (h : s.slice i j = t) (ht : t ≠ "") :
    i < s.size := by
  by_contra hend
  have hle : s.chars.size ≤ i := Nat.le_of_not_lt hend
  refine ht ?_
  rw [← h, slice, Array.extract_empty_of_size_le_start hle]

theorem skipWhile_of_size_le (p : Char → Bool) (h : s.size ≤ i) : s.skipWhile p i = i := by
  rw [skipWhile, Nat.sub_eq_zero_of_le h, skipWithin]

end Source

/-! ## Checking the rules -/

/-- What is known of the lexemes and the symbols of a grammar when its rules are checked. -/
structure Grounding (σ τ : Type) where
  /-- A lexeme that leaves a leaf, if any, where a character stands. -/
  spelled : τ → Bool
  /-- A lexeme that always leaves a leaf. -/
  leaves : τ → Bool
  /-- A symbol for a part of a source. -/
  inner : σ → Bool

namespace Rule

variable (b : Grounding σ τ)

mutual

/-- Whether something that is no comment is there as soon as the rule has been read. -/
def leavesNode : Rule σ τ κ → Bool
  | .token t => b.leaves t
  | .seq rules => leavesNodeAny rules
  | .choice rules => leavesNodeAll rules
  | .lead table otherwise => leavesNodeTable table && leavesNode otherwise
  | .fill _ rule => leavesNode rule
  | .ref _ | .node _ _ | .quote _ _ | .wrap _ _ _ => true
  | .many _ | .ahead _ | .unless _ | .after _ => false

def leavesNodeAny : List (Rule σ τ κ) → Bool
  | [] => false
  | rule :: rules => leavesNode rule || leavesNodeAny rules

def leavesNodeAll : List (Rule σ τ κ) → Bool
  | [] => true
  | rule :: rules => leavesNode rule && leavesNodeAll rules

def leavesNodeTable : List (String × Rule σ τ κ) → Bool
  | [] => true
  | (_, rule) :: table => leavesNode rule && leavesNodeTable table

end

mutual

/-- Whether every node that the rule closes has something in it that is no comment. -/
def grounded : Rule σ τ κ → Bool
  | .token t => b.spelled t
  | .seq rules | .choice rules => groundedAll rules
  | .ref symbol => b.inner symbol
  | .lead table otherwise => groundedTable table && grounded otherwise
  | .many rule | .ahead rule | .unless rule | .wrap _ _ rule | .fill _ rule => grounded rule
  | .node _ rule | .quote _ rule => leavesNode b rule && grounded rule
  | .after _ => true

def groundedAll : List (Rule σ τ κ) → Bool
  | [] => true
  | rule :: rules => grounded rule && groundedAll rules

def groundedTable : List (String × Rule σ τ κ) → Bool
  | [] => true
  | (_, rule) :: table => grounded rule && groundedTable table

end

/-- What holds of a table holds of each rule that is found in it. -/
theorem leavesNode_and_grounded_of_lookup {table : List (String × Rule σ τ κ)} {rule : Rule σ τ κ}
    {spelling : String} (h : table.lookup spelling = some rule) :
    (leavesNodeTable b table → rule.leavesNode b) ∧ (groundedTable b table → rule.grounded b) := by
  induction table with
  | nil => cases h
  | cons entry table ih =>
    obtain ⟨key, other⟩ := entry
    rw [List.lookup_cons] at h
    simp only [leavesNodeTable, groundedTable, Bool.and_eq_true]
    split at h
    · cases h
      exact ⟨And.left, And.left⟩
    · exact ⟨fun hl => (ih h).1 hl.2, fun hg => (ih h).2 hg.2⟩

end Rule

/-! ## Nodes that start at a character -/

/-- The node and all nodes inside it start on rows of places that hold a character. -/
inductive ParseTree.Placed (s : Source) : ParseTree κ → Prop
  | intro {t : ParseTree κ} (here : ∃ i < s.size, t.row = s.rowAt i)
      (inside : ∀ c ∈ t.children, c.Placed s) : t.Placed s

/-- All the nodes start on rows of places that hold a character. -/
def AllPlaced (s : Source) (ts : List (ParseTree κ)) : Prop := ∀ t ∈ ts, t.Placed s

/-- Whether one of the nodes is no comment. -/
def hasNode (ts : List (ParseTree κ)) : Bool := ts.any fun t => !t.isExtra

namespace ParseTree.Placed

variable {t : ParseTree κ}

theorem here (h : t.Placed s) : ∃ i < s.size, t.row = s.rowAt i := by
  cases h with
  | intro here _ => exact here

theorem inside (h : t.Placed s) : AllPlaced s t.children := by
  cases h with
  | intro _ inside => exact inside

theorem of_mem_preorder (h : t.Placed s) {v : ParseTree κ} (hv : v ∈ t.preorder) :
    v.Placed s := by
  induction h with
  | @intro t here inside ih =>
    rw [preorder_eq_cons] at hv
    rcases List.mem_cons.mp hv with rfl | hv
    · exact .intro here inside
    · obtain ⟨c, hc, hv⟩ := List.mem_flatMap.mp hv
      exact ih c (List.mem_filter.mp hc).1 hv

theorem inField (h : t.Placed s) (f : Field) : (t.inField f).Placed s := by
  obtain ⟨k, r, f', row, text, cs⟩ := t
  exact .intro h.here h.inside

theorem leaf {i : Nat} (hi : i < s.size) (k : κ) (r : Role) (text : String) :
    (ParseTree.leaf k r (s.rowAt i) text).Placed s :=
  .intro ⟨i, hi, rfl⟩ (by simp [ParseTree.leaf, ParseTree.children])

end ParseTree.Placed

namespace AllPlaced

variable {ts us : List (ParseTree κ)} {t : ParseTree κ}

theorem nil : AllPlaced s ([] : List (ParseTree κ)) := by
  simp [AllPlaced]

theorem append (h : AllPlaced s ts) (h' : AllPlaced s us) : AllPlaced s (ts ++ us) :=
  fun t ht => (List.mem_append.mp ht).elim (h t) (h' t)

theorem cons (h : t.Placed s) (h' : AllPlaced s ts) : AllPlaced s (t :: ts) :=
  fun u hu => (List.mem_cons.mp hu).elim (fun heq => heq ▸ h) (h' u)

end AllPlaced

theorem hasNode_append (ts us : List (ParseTree κ)) :
    hasNode (ts ++ us) = (hasNode ts || hasNode us) := List.any_append

theorem isExtra_inField (f : Field) (t : ParseTree κ) : (t.inField f).isExtra = t.isExtra := by
  obtain ⟨k, r, f', row, text, cs⟩ := t
  rfl

/-- Nodes that are closed into one node with something in it lie inside it, and it starts where
the first of them does that is no comment. -/
theorem AllPlaced.closeNode {read before : List (ParseTree κ)} (hread : AllPlaced s read)
    (hnode : hasNode read) (hbefore : AllPlaced s before) (kind : κ) (text : String) (row : Nat) :
    AllPlaced s (closeNode kind text row read before) := by
  have hchildren : AllPlaced s (read.reverse.dropWhile ParseTree.isExtra) := fun t ht =>
    hread t (List.mem_reverse.mp ((List.dropWhile_sublist _).subset ht))
  have hcomments : AllPlaced s (read.reverse.takeWhile ParseTree.isExtra).reverse := fun t ht =>
    hread t (List.mem_reverse.mp ((List.takeWhile_sublist _).subset (List.mem_reverse.mp ht)))
  obtain ⟨i, hi, hrow⟩ : ∃ i < s.size,
      ParseTree.firstRow? (read.reverse.dropWhile ParseTree.isExtra) = some (s.rowAt i) := by
    obtain ⟨t, ht, hextra⟩ := List.any_eq_true.mp hnode
    have hmem : t ∈ read.reverse.dropWhile ParseTree.isExtra := by
      rw [← List.mem_reverse, ← List.takeWhile_append_dropWhile (p := ParseTree.isExtra)
        (l := read.reverse)] at ht
      refine (List.mem_append.mp ht).resolve_left fun h => ?_
      rw [List.mem_takeWhile_imp h] at hextra
      cases hextra
    obtain ⟨u, hu⟩ := Option.isSome_iff_exists.mp
      (List.find?_isSome (p := fun t => !t.isExtra).mpr ⟨t, hmem, hextra⟩)
    obtain ⟨i, hi, hrow⟩ := (hchildren u (List.mem_of_find?_eq_some hu)).here
    exact ⟨i, hi, by rw [ParseTree.firstRow?, hu, Option.map_some, hrow]⟩
  refine .cons (.intro ⟨i, hi, ?_⟩ hchildren) (hcomments.append hbefore)
  rw [hrow]
  rfl

/-- A node that is closed over any nodes has only placed nodes inside it, and so have the comments
before it. -/
theorem AllPlaced.inside_closeNode {read : List (ParseTree κ)} (hread : AllPlaced s read)
    (kind : κ) (text : String) (row : Nat) :
    ∀ t ∈ Grammar.closeNode kind text row read [],
      (t.isExtra ∨ t.kind = kind) ∧ AllPlaced s t.children := by
  intro t ht
  rw [Grammar.closeNode, List.append_nil] at ht
  rcases List.mem_cons.mp ht with rfl | ht
  · exact ⟨.inr rfl, fun u hu =>
      hread u (List.mem_reverse.mp ((List.dropWhile_sublist _).subset hu))⟩
  · have hmem := List.mem_reverse.mp ht
    exact ⟨.inl (List.mem_takeWhile_imp hmem),
      (hread t (List.mem_reverse.mp ((List.takeWhile_sublist _).subset hmem))).inside⟩

theorem hasNode_closeNode (kind : κ) (text : String) (row : Nat)
    (read before : List (ParseTree κ)) :
    hasNode (closeNode kind text row read before) := rfl

theorem AllPlaced.takeLeft {nodes left before : List (ParseTree κ)} {f : Option Field}
    (h : AllPlaced s nodes) (htake : takeLeft f nodes = some (left, before)) :
    AllPlaced s left ∧ hasNode left ∧ AllPlaced s before := by
  rw [Grammar.takeLeft, List.span_eq_takeWhile_dropWhile] at htake
  split at htake
  · cases htake
  · rename_i comments t rest heq
    obtain ⟨hcomments, hrest⟩ := Prod.mk.inj heq
    have ht : t.isExtra = false := by
      have hhead := List.head?_dropWhile_not ParseTree.isExtra nodes
      rw [hrest] at hhead
      simpa using hhead
    have hnodes : nodes = comments ++ t :: rest := by
      rw [← hcomments, ← hrest, List.takeWhile_append_dropWhile]
    have hmem {u : ParseTree κ} (hu : u ∈ comments ++ t :: rest) : u.Placed s :=
      h u (hnodes ▸ hu)
    cases htake
    refine ⟨AllPlaced.append (fun u hu => hmem (List.mem_append_left _ hu)) (.cons ?_ .nil), ?_,
      fun u hu => hmem (List.mem_append_right _ (List.mem_cons_of_mem _ hu))⟩
    · cases f with
      | none => exact hmem (by simp)
      | some f => exact (hmem (by simp)).inField f
    · rw [hasNode_append, Bool.or_eq_true]
      right
      cases f with
      | none => simp [hasNode, ht]
      | some f => simp [hasNode, ht, isExtra_inField]

theorem AllPlaced.map_inField {nodes : List (ParseTree κ)} (h : AllPlaced s nodes)
    (f : Field) : AllPlaced s (nodes.map fun t => if t.isExtra then t else t.inField f) := by
  intro t ht
  obtain ⟨u, hu, rfl⟩ := List.mem_map.mp ht
  split
  · exact h u hu
  · exact (h u hu).inField f

theorem hasNode_map_inField (nodes : List (ParseTree κ)) (f : Field) :
    hasNode (nodes.map fun t => if t.isExtra then t else t.inField f) = hasNode nodes := by
  rw [hasNode, List.any_map]
  refine List.any_congr rfl fun t => ?_
  simp only [Function.comp]
  split
  · rfl
  · rw [isExtra_inField]

/-! ## The invariant -/

variable (b : Grounding σ τ)

/-- Whether something that is no comment has still to be read into the construct at hand, and
nothing on the stack is sure to do so. Only the outermost construct may stay empty. -/
def owes : List (Frame σ τ κ μ) → Bool
  | [] => false
  | .seq rest :: stack => owes stack && !Rule.leavesNodeAny b rest
  | .choice _ _ _ :: stack | .many _ _ _ :: stack => owes stack
  | .fill _ before :: stack => owes stack && !hasNode before
  | .node _ _ :: stack => !stack.isEmpty
  | .quote _ _ _ :: _ | .remember _ _ _ :: _ => true
  | .ahead _ _ :: _ | .unless _ _ :: _ => false

/-- A frame on a stack that owes a node or does not. What is kept in it is placed, and what it
may go back to, with the rules that are left then, makes up for what is owed. -/
def Frame.Placed (s : Source) (owed : Bool) : Frame σ τ κ μ → Prop
  | .seq rest => Rule.groundedAll b rest
  | .choice rest _ nodes =>
    Rule.groundedAll b rest ∧ AllPlaced s nodes ∧
      (owed → hasNode nodes ∨ Rule.leavesNodeAll b rest)
  | .many rule _ nodes => rule.grounded b ∧ AllPlaced s nodes ∧ (owed → hasNode nodes)
  | .ahead _ nodes | .unless _ nodes => AllPlaced s nodes ∧ (owed → hasNode nodes)
  | .node _ before | .quote _ _ before | .fill _ before | .remember _ _ before =>
    AllPlaced s before

/-- A stack above the frame of the outermost construct. -/
inductive StackPlaced (s : Source) (kind : κ) : List (Frame σ τ κ μ) → Prop
  | root : StackPlaced s kind [.node kind []]
  | cons {frame : Frame σ τ κ μ} {stack : List (Frame σ τ κ μ)}
      (top : frame.Placed b s (owes b stack)) (rest : StackPlaced s kind stack) :
      StackPlaced s kind (frame :: stack)

theorem StackPlaced.isEmpty_eq_false {kind : κ} {stack : List (Frame σ τ κ μ)}
    (h : StackPlaced b s kind stack) : stack.isEmpty = false := by
  cases h <;> rfl

/-- The task makes up for a node that is owed. -/
def Task.Placed (s : Source) (owed : Bool) (nodes : List (ParseTree κ)) : Task σ τ κ → Prop
  | .read rule =>
    rule.grounded b ∧ AllPlaced s nodes ∧ (owed → hasNode nodes ∨ rule.leavesNode b)
  | .succeed => AllPlaced s nodes ∧ (owed → hasNode nodes)
  | .fail => True

variable [BEq σ] [Hashable σ]

/-- All nodes that a configuration holds are placed, while it reads the outermost construct. -/
structure Config.Placed (s : Source) (kind : κ) (c : Config σ τ κ μ) : Prop where
  memory : ∀ (x : σ) (pos : Nat) (read : List (ParseTree κ)) (p : Cursor μ),
    c.memory[(x, pos)]? = some (some (read, p)) → AllPlaced s read ∧ hasNode read
  stack : StackPlaced b s kind c.stack
  task : c.task.Placed b s (owes b c.stack) c.nodes

/-- The outermost construct has been read, or it cannot be read. -/
structure Config.Closed (s : Source) (kind : κ) (c : Config σ τ κ μ) : Prop where
  stack : c.stack = []
  task : c.task = .fail ∨ c.task = .succeed ∧
    ∀ t ∈ c.nodes, (t.isExtra ∨ t.kind = kind) ∧ AllPlaced s t.children

/-- The lexemes and the symbols of a grammar are as the check of its rules takes them to be. -/
structure Grounding.Holds (g : RuleSet σ τ κ μ) : Prop where
  scan : ∀ (t : τ) (s : Source) (p : Cursor μ), p.KnowsRow s → b.spelled t → ∀ l ∈ g.scan t s p,
    AllPlaced s l.nodes ∧ (b.leaves t → hasNode l.leaf.toList)
  rule : ∀ x, b.inner x → (g.rule x).leavesNode b ∧ (g.rule x).grounded b

variable {b} {g : RuleSet σ τ κ μ} {c : Config σ τ κ μ} {kind : κ}

theorem hasNode_append_right {nodes : List (ParseTree κ)} (read : List (ParseTree κ))
    (h : hasNode nodes) : hasNode (read ++ nodes) := by
  rw [hasNode_append, h, Bool.or_true]

theorem hasNode_append_left {read : List (ParseTree κ)} (nodes : List (ParseTree κ))
    (h : hasNode read) : hasNode (read ++ nodes) := by
  rw [hasNode_append, h, Bool.true_or]

theorem Config.Placed.readRule (hb : b.Holds g) (hin : c.InOrder s) (hc : c.Placed b s kind)
    {rule : Rule σ τ κ} (htask : c.task = .read rule) :
    (readRule g s rule c).Placed b s kind := by
  obtain ⟨hmem, hstack, hread⟩ := hc
  rw [htask] at hread
  obtain ⟨hgrounded, hnodes, howed⟩ := hread
  have hfail : ({ c with task := .fail } : Config σ τ κ μ).Placed b s kind :=
    ⟨hmem, hstack, trivial⟩
  cases rule with
  | token t =>
    rw [Grammar.readRule]
    cases hl : g.scan t s c.cursor with
    | none => exact hfail
    | some l =>
      obtain ⟨_, -, hknows⟩ := hin.rows
      have hrow := (hknows (by simp [htask])).knowsRow
      obtain ⟨hplaced, hleaf⟩ := hb.scan t s c.cursor hrow hgrounded l hl
      have hall := hplaced.append hnodes
      cases l with
      | mk comments leaf next =>
        cases leaf with
        | none =>
          refine ⟨hmem, hstack, hall, fun ho => ?_⟩
          exact hasNode_append_right _ ((howed ho).resolve_right fun h => by cases hleaf h)
        | some t =>
          refine ⟨hmem, hstack, hall, fun ho => ?_⟩
          rcases howed ho with h | h
          · exact hasNode_append_right (t :: comments.reverse) h
          · exact hasNode_append_left (comments.reverse ++ c.nodes) (hleaf h)
  | seq rules =>
    cases rules with
    | nil =>
      refine ⟨hmem, hstack, hnodes, fun ho => (howed ho).resolve_right ?_⟩
      simp [Rule.leavesNode, Rule.leavesNodeAny]
    | cons r rest =>
      rw [Rule.grounded, Rule.groundedAll, Bool.and_eq_true] at hgrounded
      rw [Rule.leavesNode, Rule.leavesNodeAny, Bool.or_eq_true] at howed
      cases rest with
      | nil =>
        refine ⟨hmem, hstack, hgrounded.1, hnodes, fun ho => (howed ho).imp_right fun h => ?_⟩
        exact h.resolve_right fun h => by cases h
      | cons r' rs =>
        refine ⟨hmem, .cons hgrounded.2 hstack, hgrounded.1, hnodes, fun ho => ?_⟩
        have ho : owes b (.seq (r' :: rs) :: c.stack) := ho
        rw [owes, Bool.and_eq_true] at ho
        refine (howed ho.1).imp_right fun h => h.resolve_right fun h => ?_
        rw [h] at ho
        cases ho.2
  | choice rules =>
    cases rules with
    | nil => exact hfail
    | cons r rest =>
      rw [Rule.grounded, Rule.groundedAll, Bool.and_eq_true] at hgrounded
      rw [Rule.leavesNode, Rule.leavesNodeAll, Bool.and_eq_true] at howed
      cases rest with
      | nil =>
        exact ⟨hmem, hstack, hgrounded.1, hnodes, fun ho => (howed ho).imp_right And.left⟩
      | cons r' rs =>
        exact ⟨hmem,
          .cons ⟨hgrounded.2, hnodes, fun ho => (howed ho).imp_right And.right⟩ hstack,
          hgrounded.1, hnodes, fun ho => (howed ho).imp_right And.left⟩
  | many r =>
    have hkept (ho : owes b c.stack) : hasNode c.nodes :=
      (howed ho).resolve_right (by simp [Rule.leavesNode])
    exact ⟨hmem, .cons ⟨hgrounded, hnodes, hkept⟩ hstack, hgrounded, hnodes,
      fun ho => .inl (hkept ho)⟩
  | ref x =>
    obtain ⟨hleaves, hrule⟩ := hb.rule x hgrounded
    rw [Grammar.readRule]
    split
    · split
      · exact hfail
      · rename_i read p hfound
        obtain ⟨hplaced, hnode⟩ := hmem x c.cursor.pos read p hfound
        exact ⟨hmem, hstack, hplaced.append hnodes, fun _ => hasNode_append_left _ hnode⟩
      · exact ⟨hmem, .cons hnodes hstack, hrule, .nil, fun _ => .inr hleaves⟩
    · exact ⟨hmem, hstack, hrule, hnodes, fun _ => .inr hleaves⟩
  | lead table otherwise =>
    rw [Rule.grounded, Bool.and_eq_true] at hgrounded
    rw [Rule.leavesNode, Bool.and_eq_true] at howed
    rw [Grammar.readRule]
    split
    · rename_i r hfound
      obtain ⟨hleaves, hrule⟩ := Rule.leavesNode_and_grounded_of_lookup b hfound
      exact ⟨hmem, hstack, hrule hgrounded.1, hnodes,
        fun ho => (howed ho).imp_right fun h => hleaves h.1⟩
    · exact ⟨hmem, hstack, hgrounded.2, hnodes, fun ho => (howed ho).imp_right And.right⟩
  | ahead r =>
    refine ⟨hmem, .cons ⟨hnodes, fun ho => ?_⟩ hstack, hgrounded, hnodes, fun ho => by cases ho⟩
    exact (howed ho).resolve_right (by simp [Rule.leavesNode])
  | «unless» r =>
    refine ⟨hmem, .cons ⟨hnodes, fun ho => ?_⟩ hstack, hgrounded, hnodes, fun ho => by cases ho⟩
    exact (howed ho).resolve_right (by simp [Rule.leavesNode])
  | after p =>
    rw [Grammar.readRule]
    split
    · split
      · refine ⟨hmem, hstack, hnodes, fun ho => (howed ho).resolve_right ?_⟩
        simp [Rule.leavesNode]
      · exact hfail
    · exact hfail
  | node k r =>
    rw [Rule.grounded, Bool.and_eq_true] at hgrounded
    exact ⟨hmem, .cons hnodes hstack, hgrounded.2, .nil, fun _ => .inr hgrounded.1⟩
  | quote k r =>
    rw [Rule.grounded, Bool.and_eq_true] at hgrounded
    exact ⟨hmem, .cons hnodes hstack, hgrounded.2, .nil, fun _ => .inr hgrounded.1⟩
  | fill f r =>
    refine ⟨hmem, .cons hnodes hstack, hgrounded, .nil, fun ho => ?_⟩
    rw [Grammar.readRule, owes, Bool.and_eq_true] at ho
    refine .inr ((howed ho.1).resolve_left fun h => ?_)
    rw [h] at ho
    cases ho.2
  | wrap k f r =>
    rw [Grammar.readRule]
    split
    · exact hfail
    · rename_i left before htake
      obtain ⟨hleft, hnode, hbefore⟩ := hnodes.takeLeft htake
      exact ⟨hmem, .cons hbefore hstack, hgrounded, hleft, fun _ => .inl hnode⟩

/-- Once the outermost construct is closed, the next step is the last one. -/
theorem Config.Closed.run (hc : c.Closed s kind) {fuel : Nat} {nodes : List (ParseTree κ)}
    (hrun : run g s fuel c = some nodes) :
    ∀ t ∈ nodes, (t.isExtra ∨ t.kind = kind) ∧ AllPlaced s t.children := by
  obtain ⟨hstack, htask⟩ := hc
  cases fuel with
  | zero => cases hrun
  | succ fuel =>
    rw [Grammar.run, Grammar.step] at hrun
    rcases htask with htask | ⟨htask, hnodes⟩
    · simp only [htask, hstack] at hrun
      cases hrun
    · simp only [htask, hstack] at hrun
      cases hrun
      exact fun t ht => hnodes t (List.mem_reverse.mp ht)

theorem Config.Placed.step_ne_accepted (hc : c.Placed b s kind) {nodes : List (ParseTree κ)} :
    step g s c ≠ .accepted nodes := by
  intro hstep
  have hstack := hc.stack.isEmpty_eq_false
  rw [Grammar.step] at hstep
  split at hstep
  · cases hstep
  · split at hstep
    · rename_i hnil
      rw [hnil] at hstack
      cases hstack
    · cases hstep
  · split at hstep <;> cases hstep

variable [LawfulBEq σ]

theorem Config.Placed.succeedInto {frame : Frame σ τ κ μ} {stack : List (Frame σ τ κ μ)}
    (hc : c.Placed b s kind) (htask : c.task = .succeed) (hstack : c.stack = frame :: stack) :
    (succeedInto s frame { c with stack := stack }).Placed b s kind ∨
      (succeedInto s frame { c with stack := stack }).Closed s kind := by
  obtain ⟨hmem, hfits, htop⟩ := hc
  rw [htask, hstack] at htop
  obtain ⟨hnodes, howed⟩ := htop
  rw [hstack] at hfits
  cases hfits with
  | root => exact .inr ⟨rfl, .inr ⟨htask, hnodes.inside_closeNode kind _ _⟩⟩
  | cons top rest =>
    left
    have hpass (h : owes b stack → hasNode c.nodes) :
        ({ c with stack := stack } : Config σ τ κ μ).Placed b s kind :=
      ⟨hmem, rest, by rw [htask]; exact ⟨hnodes, h⟩⟩
    have hclosed (hnode : hasNode c.nodes) (k : κ) (text : String) {before : List (ParseTree κ)}
        (hbefore : AllPlaced s before) :
        ({ c with stack := stack, nodes := closeNode k text c.cursor.row c.nodes before } :
          Config σ τ κ μ).Placed b s kind :=
      ⟨hmem, rest, by
        rw [htask]
        exact ⟨hnodes.closeNode hnode hbefore k _ _, fun _ => hasNode_closeNode _ _ _ _ _⟩⟩
    cases frame with
    | seq remaining =>
      refine ⟨hmem, rest, top, hnodes, fun ho => ?_⟩
      cases hleaves : Rule.leavesNodeAny b remaining with
      | true => exact .inr hleaves
      | false =>
        refine .inl (howed ?_)
        rw [owes, hleaves, Bool.not_false, Bool.and_true]
        exact ho
    | choice remaining back nodes => exact hpass howed
    | many r back nodes =>
      rw [Grammar.succeedInto]
      split
      · exact ⟨hmem, .cons ⟨top.1, hnodes, howed⟩ rest, top.1, hnodes, fun ho => .inl (howed ho)⟩
      · exact hpass howed
    | node k before => exact hclosed (howed (by rw [owes, rest.isEmpty_eq_false]; rfl)) k _ top
    | quote k start before => exact hclosed (howed rfl) k _ top
    | fill f before =>
      refine ⟨hmem, rest, ?_⟩
      rw [Grammar.succeedInto, htask]
      refine ⟨(hnodes.map_inField f).append top, fun ho => ?_⟩
      rw [hasNode_append, hasNode_map_inField]
      cases hbefore : hasNode before with
      | true => rw [Bool.or_true]
      | false =>
        rw [Bool.or_false]
        refine howed ?_
        rw [owes, hbefore, Bool.not_false, Bool.and_true]
        exact ho
    | ahead back before =>
      refine ⟨hmem, rest, ?_⟩
      rw [Grammar.succeedInto, htask]
      exact top
    | «unless» back before => exact ⟨hmem, rest, trivial⟩
    | remember x pos before =>
      have hnode : hasNode c.nodes := howed rfl
      refine ⟨fun y pos' read p hfound => ?_, rest, ?_⟩
      · simp only [Grammar.succeedInto, Std.HashMap.getElem?_insert] at hfound
        split at hfound
        · cases hfound
          exact ⟨hnodes, hnode⟩
        · exact hmem y pos' read p hfound
      · rw [Grammar.succeedInto, htask]
        exact ⟨hnodes.append top, fun _ => hasNode_append_left before hnode⟩

theorem Config.Placed.failInto {frame : Frame σ τ κ μ} {stack : List (Frame σ τ κ μ)}
    (hc : c.Placed b s kind) (htask : c.task = .fail) (hstack : c.stack = frame :: stack) :
    (failInto frame { c with stack := stack }).Placed b s kind ∨
      (failInto frame { c with stack := stack }).Closed s kind := by
  obtain ⟨hmem, hfits, -⟩ := hc
  rw [hstack] at hfits
  cases hfits with
  | root => exact .inr ⟨rfl, .inl htask⟩
  | cons top rest =>
    left
    have hpass : ({ c with stack := stack } : Config σ τ κ μ).Placed b s kind :=
      ⟨hmem, rest, by rw [htask]; trivial⟩
    cases frame with
    | choice remaining back nodes => exact ⟨hmem, rest, top⟩
    | many r back nodes => exact ⟨hmem, rest, top.2⟩
    | «unless» back nodes => exact ⟨hmem, rest, top⟩
    | remember x pos before =>
      refine ⟨fun y pos' read p hfound => ?_, rest, by rw [Grammar.failInto, htask]; trivial⟩
      simp only [Grammar.failInto, Std.HashMap.getElem?_insert] at hfound
      split at hfound
      · cases hfound
      · exact hmem y pos' read p hfound
    | seq remaining => exact hpass
    | node k before => exact hpass
    | quote k start before => exact hpass
    | fill f before => exact hpass
    | ahead back before => exact hpass

/-- What one step preserves, until the outermost construct is closed. -/
theorem Config.Placed.step (hb : b.Holds g) (hin : c.InOrder s) (hc : c.Placed b s kind)
    {next : Config σ τ κ μ} (hstep : step g s c = .next next) :
    next.Placed b s kind ∨ next.Closed s kind := by
  rw [Grammar.step] at hstep
  split at hstep
  · rename_i rule htask
    cases hstep
    exact .inl (hc.readRule hb hin htask)
  · rename_i htask
    split at hstep
    · cases hstep
    · rename_i frame stack hstack
      cases hstep
      exact hc.succeedInto htask hstack
  · rename_i htask
    split at hstep
    · cases hstep
    · rename_i frame stack hstack
      cases hstep
      exact hc.failInto htask hstack

/-- What a whole run preserves. Where nodes start is told by rows, so the order of rows is carried
along. -/
theorem Config.Placed.run (hg : g.ScansForward) (hb : b.Holds g) (hin : c.InOrder s)
    (hc : c.Placed b s kind) {fuel : Nat} {nodes : List (ParseTree κ)}
    (hrun : run g s fuel c = some nodes) :
    ∀ t ∈ nodes, (t.isExtra ∨ t.kind = kind) ∧ AllPlaced s t.children := by
  induction fuel generalizing c with
  | zero => cases hrun
  | succ fuel ih =>
    rw [Grammar.run] at hrun
    split at hrun
    · rename_i next hstep
      rcases hc.step hb hin hstep with hnext | hnext
      · exact ih (hin.step hg hstep) hnext hrun
      · exact hnext.run hrun
    · rename_i hstep
      exact absurd hstep hc.step_ne_accepted
    · cases hrun

/-- **Where nodes start.** If each rule inside a source is grounded, every node inside the tree of
a source starts on the row of a place that holds a character. -/
theorem RuleSet.placed_of_parse? (hg : g.ScansForward) (hb : b.Holds g) {rule : Rule σ τ κ}
    (hstart : g.rule g.start = .node kind rule) (hrule : rule.grounded b) {t : ParseTree κ}
    (ht : g.parse? s = some t) : t.kind = kind ∧ AllPlaced s t.children := by
  obtain ⟨nodes, hrun, hfind⟩ := Option.bind_eq_some_iff.mp ht
  rw [hstart] at hrun
  cases hfuel : stepBound s.size with
  | zero =>
    rw [hfuel] at hrun
    cases hrun
  | succ fuel =>
    -- The first step opens the outermost construct.
    rw [hfuel, run] at hrun
    have hin := (Config.InOrder.start s (.read (.node kind rule)) g.initial).step hg rfl
    have hplaced := Config.Placed.run hg hb hin
      ⟨by simp [readRule], .root, hrule, .nil, fun ho => by cases ho⟩ hrun
    obtain ⟨hkind, hinside⟩ := hplaced t (List.mem_of_find?_eq_some hfind)
    have hextra := List.find?_some hfind
    exact ⟨hkind.resolve_left fun h => by simp [h] at hextra, hinside⟩

end DocGate.Grammar

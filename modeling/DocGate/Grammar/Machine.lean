/-
DocGate.Grammar.Machine — the reading machine, which runs a grammar with one total
`step`.

Its configuration holds the task at hand, the cursor, the nodes read so far in the
construct at hand (last one first), and the frames that say what remains to be done when
the task succeeds or fails. Choice is ordered and commits to the first rule that can be
read; a remembered symbol is read at most once at each place.

The frames live in a list and not on a call stack, so a source may nest as deeply as
memory allows. A run ends after a number of steps that is fixed by the length of the
source; a source that needs more is refused.

* `readRule`, `succeedInto`, `failInto` — the three parts of a `step`.
* `run`, `stepBound` — steps one after the other, and how many there may be.
* `RuleSet.parse?` — the tree of a source, `none` if the grammar does not accept it.

A run is proved about in steps: `DocGate.Proofs.Grammar.MachineOrder` and
`DocGate.Proofs.Grammar.Placement` each give an invariant of a configuration.
-/
import Std.Data.HashMap
import DocGate.Grammar.Rule

namespace DocGate.Grammar

/-- What remains to be done around a task. -/
inductive Frame (σ τ κ μ : Type) where
  /-- Then read the rules. -/
  | seq (rest : List (Rule σ τ κ))
  /-- Commit on success; on failure, go back and try the other rules. -/
  | choice (rest : List (Rule σ τ κ)) (back : Cursor μ) (nodes : List (ParseTree κ))
  /-- Repeat on success; on failure, go back and succeed. -/
  | many (rule : Rule σ τ κ) (back : Cursor μ) (nodes : List (ParseTree κ))
  /-- Close a node, and go on with the nodes before it. -/
  | node (kind : κ) (nodes : List (ParseTree κ))
  /-- Close a node that keeps the text from a place on. -/
  | quote (kind : κ) (from_ : Nat) (nodes : List (ParseTree κ))
  /-- Fill a field with what was read, and go on with the nodes before it. -/
  | fill (field : Field) (nodes : List (ParseTree κ))
  /-- Forget what was read and go back. -/
  | ahead (back : Cursor μ) (nodes : List (ParseTree κ))
  /-- As `ahead`, with success and failure exchanged. -/
  | unless (back : Cursor μ) (nodes : List (ParseTree κ))
  /-- Remember the outcome of a symbol, and go on with the nodes before it. -/
  | remember (symbol : σ) (pos : Nat) (nodes : List (ParseTree κ))

/-- The task at hand. -/
inductive Task (σ τ κ : Type) where
  | read (rule : Rule σ τ κ)
  | succeed
  | fail

/-- The remembered outcome of a symbol at a place: what it read, if it could be read. -/
abbrev Outcome (κ μ : Type) := Option (List (ParseTree κ) × Cursor μ)

/-- A configuration of the machine. -/
structure Config (σ τ κ μ : Type) [BEq σ] [Hashable σ] where
  task : Task σ τ κ
  cursor : Cursor μ
  nodes : List (ParseTree κ)
  stack : List (Frame σ τ κ μ)
  memory : Std.HashMap (σ × Nat) (Outcome κ μ)

/-- The outcome of a step. -/
inductive Step (σ τ κ μ : Type) [BEq σ] [Hashable σ] where
  | next (config : Config σ τ κ μ)
  | accepted (nodes : List (ParseTree κ))
  | refused

variable {σ τ κ μ : Type}

/-- Close a construct: comments that lead it stay outside, the rest becomes one node. `read`
has the last child first; so has the result. -/
def closeNode (kind : κ) (text : String) (row : Nat) (read before : List (ParseTree κ)) :
    List (ParseTree κ) :=
  let ordered := read.reverse
  let comments := ordered.takeWhile ParseTree.isExtra
  let children := ordered.dropWhile ParseTree.isExtra
  let row := (ParseTree.firstRow? children).getD row
  .node kind .named none row text children :: (comments.reverse ++ before)

/-- The nodes that a node in the making takes from those before it: the last one that is no
comment, in the given field, with the comments behind it; and what is left. -/
def takeLeft (field : Option Field) (nodes : List (ParseTree κ)) :
    Option (List (ParseTree κ) × List (ParseTree κ)) :=
  match nodes.span ParseTree.isExtra with
  | (_, []) => none
  | (comments, t :: before) =>
    let t := match field with
      | none => t
      | some f => t.inField f
    some (comments ++ [t], before)

variable [BEq σ] [Hashable σ]

/-- One step of reading a rule. -/
def readRule (g : RuleSet σ τ κ μ) (s : Source) (rule : Rule σ τ κ) (c : Config σ τ κ μ) :
    Config σ τ κ μ :=
  match rule with
  | .token t =>
    match g.scan t s c.cursor with
    | none => { c with task := .fail }
    | some l =>
      let nodes := l.comments.reverse ++ c.nodes
      let nodes := match l.leaf with
        | none => nodes
        | some t => t :: nodes
      { c with task := .succeed, cursor := l.next, nodes := nodes }
  | .seq [] => { c with task := .succeed }
  | .seq [r] => { c with task := .read r }
  | .seq (r :: rs) => { c with task := .read r, stack := .seq rs :: c.stack }
  | .choice [] => { c with task := .fail }
  | .choice [r] => { c with task := .read r }
  | .choice (r :: rs) =>
    { c with task := .read r, stack := .choice rs c.cursor c.nodes :: c.stack }
  | .many r => { c with task := .read r, stack := .many r c.cursor c.nodes :: c.stack }
  | .ref x =>
    if g.remembers x then
      match c.memory[(x, c.cursor.pos)]? with
      | some none => { c with task := .fail }
      | some (some (read, cursor)) =>
        { c with task := .succeed, cursor := cursor, nodes := read ++ c.nodes }
      | none =>
        { c with task := .read (g.rule x), nodes := [],
                 stack := .remember x c.cursor.pos c.nodes :: c.stack }
    else { c with task := .read (g.rule x) }
  | .lead table otherwise =>
    match table.lookup (g.spelling s c.cursor.pos) with
    | some r => { c with task := .read r }
    | none => { c with task := .read otherwise }
  | .ahead r => { c with task := .read r, stack := .ahead c.cursor c.nodes :: c.stack }
  | .unless r => { c with task := .read r, stack := .unless c.cursor c.nodes :: c.stack }
  | .after p =>
    match c.nodes.find? fun t => !t.isExtra with
    | some t => if p t.kind then { c with task := .succeed } else { c with task := .fail }
    | none => { c with task := .fail }
  | .node k r => { c with task := .read r, nodes := [], stack := .node k c.nodes :: c.stack }
  | .quote k r =>
    { c with task := .read r, nodes := [],
             stack := .quote k c.cursor.pos c.nodes :: c.stack }
  | .wrap k f r =>
    match takeLeft f c.nodes with
    | none => { c with task := .fail }
    | some (left, before) =>
      { c with task := .read r, nodes := left, stack := .node k before :: c.stack }
  | .fill f r => { c with task := .read r, nodes := [], stack := .fill f c.nodes :: c.stack }

/-- One step after a success, into the frame on top of the stack. -/
def succeedInto (s : Source) (frame : Frame σ τ κ μ) (c : Config σ τ κ μ) : Config σ τ κ μ :=
  match frame with
  | .seq rest => { c with task := .read (.seq rest) }
  | .choice _ _ _ => c
  | .many r back _ =>
    -- A round that consumed nothing is the last one.
    if back.pos < c.cursor.pos then
      { c with task := .read r, stack := .many r c.cursor c.nodes :: c.stack }
    else c
  | .node k before => { c with nodes := closeNode k "" c.cursor.row c.nodes before }
  | .quote k start before =>
    { c with nodes := closeNode k (s.slice start c.cursor.pos) c.cursor.row c.nodes before }
  | .fill f before =>
    { c with nodes := (c.nodes.map fun t => if t.isExtra then t else t.inField f) ++ before }
  | .ahead back before => { c with cursor := back, nodes := before }
  | .unless back before => { c with task := .fail, cursor := back, nodes := before }
  | .remember x pos before =>
    { c with nodes := c.nodes ++ before,
             memory := c.memory.insert (x, pos) (some (c.nodes, c.cursor)) }

/-- One step after a failure, into the frame on top of the stack. -/
def failInto (frame : Frame σ τ κ μ) (c : Config σ τ κ μ) : Config σ τ κ μ :=
  match frame with
  | .choice rest back before =>
    { c with task := .read (.choice rest), cursor := back, nodes := before }
  | .many _ back before => { c with task := .succeed, cursor := back, nodes := before }
  | .unless back before => { c with task := .succeed, cursor := back, nodes := before }
  | .remember x pos _ => { c with memory := c.memory.insert (x, pos) none }
  | _ => c

/-- One step of the machine. -/
def step (g : RuleSet σ τ κ μ) (s : Source) (c : Config σ τ κ μ) : Step σ τ κ μ :=
  match c.task with
  | .read rule => .next (readRule g s rule c)
  | .succeed =>
    match c.stack with
    | [] => .accepted c.nodes.reverse
    | frame :: stack => .next (succeedInto s frame { c with stack := stack })
  | .fail =>
    match c.stack with
    | [] => .refused
    | frame :: stack => .next (failInto frame { c with stack := stack })

/-- The machine for at most `fuel` steps. -/
def run (g : RuleSet σ τ κ μ) (s : Source) : Nat → Config σ τ κ μ → Option (List (ParseTree κ))
  | 0, _ => none
  | fuel + 1, c =>
    match step g s c with
    | .next c => run g s fuel c
    | .accepted nodes => some nodes
    | .refused => none

/-- How many steps a source of `n` characters may take. -/
def stepBound (n : Nat) : Nat := 20000 * (n + 50)

namespace RuleSet

/-- The tree of a source, if the grammar accepts it: the one node that the start symbol
builds. -/
def parse? (g : RuleSet σ τ κ μ) (s : Source) : Option (ParseTree κ) :=
  (run g s (stepBound s.size)
    { task := .read (g.rule g.start), cursor := ⟨0, 0, g.initial⟩, nodes := [], stack := [],
      memory := {} }).bind fun nodes => nodes.find? fun t => !t.isExtra

end RuleSet

end DocGate.Grammar

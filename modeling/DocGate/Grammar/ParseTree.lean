/-
DocGate.Grammar.ParseTree — concrete trees: what reading a source file yields.

The leaves of a tree are the lexemes of the file and its inner nodes the constructs of
its grammar. A node has a kind (a type of its own for every language), a role, possibly
the field it fills in its parent, the row it starts on, and its children in source
order.

A tree keeps comments (`Role.extra`) and punctuation (`Role.anonymous`) beside the nodes
that carry meaning (`Role.named`), so that it stands for the whole text.

* `ParseTree.namedChildren` — the children that carry meaning; what is measured goes
  through these.
* `ParseTree.visibleChildren` — those and the comments; what looks for functions goes
  through these.
* `ParseTree.preorder` — the nodes that are reached through visible children, a parent
  before its children.

Nothing here says that the rows of a tree are those of a text. What the trees of a text
have of that is proved in `DocGate.Proofs.Grammar.RowOrder` and
`DocGate.Proofs.Grammar.Placement`.
-/

namespace DocGate.Grammar

/-- How a node takes part in its parent. -/
inductive Role where
  /-- A construct or a lexeme with a meaning of its own. -/
  | named
  /-- Punctuation, an operator or a keyword. -/
  | anonymous
  /-- A comment, which may stand between any two lexemes. -/
  | extra
  deriving DecidableEq, Repr

/-- The places of a parent that analyses ask for. -/
inductive Field where
  /-- The name that a construct declares or binds. -/
  | name
  /-- The body of a function. -/
  | body
  /-- What a call calls. -/
  | callee
  /-- The operator of a binary operation. -/
  | operator
  deriving DecidableEq, Repr

/-- A node of a concrete tree over the kinds `κ`. -/
inductive ParseTree (κ : Type) where
  /-- `text` is the source text of a lexeme or of a name, and empty for other inner nodes. -/
  | node (kind : κ) (role : Role) (field : Option Field) (row : Nat) (text : String)
      (children : List (ParseTree κ))
  deriving Repr

namespace ParseTree

variable {κ : Type}

instance [Inhabited κ] : Inhabited (ParseTree κ) := ⟨.node default .named none 0 "" []⟩

def kind : ParseTree κ → κ
  | .node k _ _ _ _ _ => k

def role : ParseTree κ → Role
  | .node _ r _ _ _ _ => r

def field : ParseTree κ → Option Field
  | .node _ _ f _ _ _ => f

/-- The row, counted from zero, on which the node starts. -/
def row : ParseTree κ → Nat
  | .node _ _ _ r _ _ => r

def text : ParseTree κ → String
  | .node _ _ _ _ s _ => s

def children : ParseTree κ → List (ParseTree κ)
  | .node _ _ _ _ _ cs => cs

def isExtra (t : ParseTree κ) : Bool := t.role == .extra

/-- A node with a meaning, comments included. -/
def isVisible (t : ParseTree κ) : Bool := t.role != .anonymous

/-- A node with a meaning that is no comment. -/
def isNamed (t : ParseTree κ) : Bool := t.role == .named

/-- Named children and comments, in source order. -/
def visibleChildren (t : ParseTree κ) : List (ParseTree κ) := t.children.filter isVisible

/-- Named children without comments, in source order. -/
def namedChildren (t : ParseTree κ) : List (ParseTree κ) := t.children.filter isNamed

/-- Whether a node fills a field of its parent. A comment fills none. -/
def fills (f : Field) (t : ParseTree κ) : Bool := t.field == some f && !t.isExtra

/-- The first child that fills a field. -/
def child? (f : Field) (t : ParseTree κ) : Option (ParseTree κ) := t.children.find? (fills f)

/-- The line, counted from one, on which the node starts. -/
def line (t : ParseTree κ) : Nat := t.row + 1

/-- The same node in another field of its parent. -/
def inField (f : Field) : ParseTree κ → ParseTree κ
  | .node k r _ row s cs => .node k r (some f) row s cs

/-- A lexeme. -/
def leaf (k : κ) (r : Role) (row : Nat) (s : String) : ParseTree κ := .node k r none row s []

/-- The row of the first node that is no comment, if there is one. -/
def firstRow? (ts : List (ParseTree κ)) : Option Nat :=
  (ts.find? fun t => !t.isExtra).map row

mutual

/-- The node, then everything below it that is reached through visible children, then `later`. -/
def preorderOnto (later : List (ParseTree κ)) : ParseTree κ → List (ParseTree κ)
  | t@(.node _ _ _ _ _ cs) => t :: preorderAllOnto later cs

/-- The visible nodes of a row of siblings, each followed by what is below it, then `later`. -/
def preorderAllOnto (later : List (ParseTree κ)) : List (ParseTree κ) → List (ParseTree κ)
  | [] => later
  | c :: cs =>
    let later := preorderAllOnto later cs
    if c.isVisible then preorderOnto later c else later

end

/-- The node and everything below it that is reached through visible children, a parent before
its children and siblings in source order. -/
def preorder (t : ParseTree κ) : List (ParseTree κ) := preorderOnto [] t

end ParseTree

end DocGate.Grammar

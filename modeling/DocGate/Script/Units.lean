/-
DocGate.Script.Units — functions of a script.

A function, method or arrow function with a body is a unit if it has a name of its own
or borrows one from what it is bound to: a variable, a property or a field. It is
documented by a comment above the declaration that it belongs to.

A node alone does not know where it stands, so units are looked for along nodes that
keep the nodes around them.

* `reading` — which nodes are which construct of an outline, and which are boolean
  operations.
* `Sited`, `sited` — a node with the nodes around it, and those of a tree.
* `functionName`, `borrowedName` — the name of a function. A function that is neither
  named nor bound to a name is no unit.
* `Sited.anchor` — the node above which documentation is looked for.
* `unitOf`, `unitsOfTree`, `units` — the unit of a node, those of a tree, and those of a
  text.

The lines that documentation is looked for in are an argument of `unitsOfTree`. That
they fit the tree is proved for the trees of a text only, in
`DocGate.Proofs.Language.Rows`.
-/
import DocGate.DocComment
import DocGate.FunctionUnit
import DocGate.Grammar.Walk
import DocGate.Outline.Lowering
import DocGate.Script.Grammar
import DocGate.Text.Lines

namespace DocGate.Script

open DocGate.Grammar

/-! ## Constructs -/

/-- The name that a call calls, if that is a plain name. -/
def calleeName (t : ParseTree Kind) : Option String :=
  match t.child? .callee with
  | some c => if c.kind = .identifier then some c.text else none
  | none => none

def constructOf (t : ParseTree Kind) : Construct :=
  match t.kind with
  | .ifStatement | .switchStatement => .conditional
  | .forStatement | .forInStatement | .whileStatement | .doStatement => .loop
  | .catchClause => .handler
  | .ternaryExpression => .ternary
  | .call => .call (calleeName t)
  | _ => .other

def connectiveOf (t : ParseTree Kind) : Option Connective :=
  if t.kind = .binaryExpression then
    match t.child? .operator with
    | some c =>
      if c.text = "&&" then some .conjunction
      else if c.text = "||" then some .disjunction
      else if c.text = "??" then some .coalescing
      else none
    | none => none
  else none

/-- What the nodes of a script mean for complexity. -/
def reading : Reading Kind where
  construct := constructOf
  connective := connectiveOf
  construct_ne_chain t operands := by
    unfold constructOf
    split <;> simp

/-! ## Nodes with their surroundings -/

/-- A node and the nodes around it, the nearest first. -/
structure Sited where
  tree : ParseTree Kind
  around : List (ParseTree Kind)

mutual

/-- The node, then everything below it that is reached through visible children, then `later`. -/
def sitedOnto (around : List (ParseTree Kind)) (later : List Sited) : ParseTree Kind → List Sited
  | t@(.node _ _ _ _ _ cs) => ⟨t, around⟩ :: sitedAllOnto (t :: around) later cs

/-- The visible nodes of a row of siblings, each followed by what is below it, then `later`. -/
def sitedAllOnto (around : List (ParseTree Kind)) (later : List Sited) :
    List (ParseTree Kind) → List Sited
  | [] => later
  | c :: cs =>
    let later := sitedAllOnto around later cs
    if c.isVisible then sitedOnto around later c else later

end

/-- The nodes of a tree, a parent before its children and siblings in source order. -/
def sited (t : ParseTree Kind) : List Sited := sitedOnto [] [] t

/-- The visible children of a node, with the node around them. -/
def Sited.below (n : Sited) : List Sited :=
  n.tree.visibleChildren.map fun c => ⟨c, n.tree :: n.around⟩

/-- From a node to its visible children, remembering the nodes around them. -/
def Sited.visible : Descent Sited where
  below := Sited.below
  size n := n.tree.size
  totalSize_below_lt n := by
    rw [Sited.below, totalSize_map]
    exact ParseTree.visible.totalSize_below_lt n.tree

/-! ## Names and documentation -/

/-- Whether a node of this kind is a function, and may have a name of its own. -/
def namesItself : Kind → Bool
  | .functionDeclaration | .generatorDeclaration | .functionExpression | .generatorExpression
  | .methodDefinition => true
  | _ => false

/-- Whether a node of this kind is a function. -/
def isFunction (k : Kind) : Bool := namesItself k || k == .arrowFunction

/-- Whether what is bound by a node of this kind is called by its name. -/
def lendsName : Kind → Bool
  | .variableDeclarator | .pair | .fieldDefinition => true
  | _ => false

/-- Whether a name of this kind can be lent. -/
def isLendable : Kind → Bool
  | .identifier | .propertyIdentifier | .privateIdentifier | .string => true
  | _ => false

/-- The name that the nearest node around a function lends to it. -/
def borrowedName (around : List (ParseTree Kind)) : Option (ParseTree Kind) :=
  match around with
  | parent :: _ =>
    if lendsName parent.kind then (parent.child? .name).filter fun n => isLendable n.kind
    else none
  | [] => none

/-- The name of a function with a body, if it has one; nothing for other nodes. -/
def functionName (n : Sited) : Option String :=
  if isFunction n.tree.kind && (n.tree.child? .body).isSome then
    let own := if namesItself n.tree.kind then n.tree.child? .name else none
    (own.or (borrowedName n.around)).map fun name => Text.unquote name.text
  else none

/-- Whether a declaration of this kind belongs to what is declared in it. -/
def isCarrier : Kind → Bool
  | .variableDeclarator | .lexicalDeclaration | .variableDeclaration | .exportStatement
  | .pair => true
  | _ => false

/-- The node above which the documentation of a node is looked for: the outermost of the
declarations that carry it. -/
def Sited.anchor (n : Sited) : ParseTree Kind :=
  ((n.around.takeWhile fun t => isCarrier t.kind).getLast?).getD n.tree

/-! ## Units -/

/-- The unit that a node declares, if it declares one, in a source with the given lines. -/
def unitOf (lines : Array String) (n : Sited) : Option FunctionUnit :=
  (functionName n).map fun name =>
    { name := name
      line := n.tree.line
      outline := reading.lower n.tree
      documented := DocComment.precedes lines n.anchor.line }

/-- The units of a tree in the order of their declarations. -/
def unitsOfTree (lines : Array String) (t : ParseTree Kind) : List FunctionUnit :=
  (Sited.visible.walk ⟨t, []⟩).filterMap (unitOf lines)

/-- The units of a script; none if it has an error. -/
def units (d : Dialect) (text : String) : List FunctionUnit :=
  ((parse? d text).map (unitsOfTree (Text.lines text).toArray)).getD []

end DocGate.Script

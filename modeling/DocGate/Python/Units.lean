/-
DocGate.Python.Units — functions of a Python file.

Every `def` is a unit, wherever it stands. It is documented if its body starts with a
plain string literal; a formatted or bytes literal is none.

* `reading` — which nodes are which construct of an outline, and which are boolean
  operations.
* `hasDocumentation` — whether the body of a function starts with its documentation.
* `unitOf`, `unitsOfTree` — the unit that a node is, and those of a tree in the order of
  the walk.
* `units` — the units of a text; a text that is no Python has none.

Which nodes are units is told without the walk by `Python.DeclaredAt`, in
`DocGate.Proofs.Language.Declarations`.
-/
import DocGate.FunctionUnit
import DocGate.Grammar.Walk
import DocGate.Outline.Lowering
import DocGate.Python.Grammar

namespace DocGate.Python

open DocGate.Grammar

/-- The name that a call calls, if that is a plain name. -/
def calleeName (t : ParseTree Kind) : Option String :=
  match t.child? .callee with
  | some c => if c.kind = .identifier then some c.text else none
  | none => none

def constructOf (t : ParseTree Kind) : Construct :=
  match t.kind with
  | .ifStatement => .conditional
  | .elifClause => .conditional
  | .forStatement => .loop
  | .whileStatement => .loop
  | .exceptClause => .handler
  | .withStatement => .resource
  | .conditionalExpression => .ternary
  | .call => .call (calleeName t)
  | _ => .other

def connectiveOf (t : ParseTree Kind) : Option Connective :=
  if t.kind = .booleanOperation then
    match t.child? .operator with
    | some c =>
      if c.text = "and" then some .conjunction
      else if c.text = "or" then some .disjunction
      else none
    | none => none
  else none

/-- What the nodes of a Python file mean for complexity. -/
def reading : Reading Kind where
  construct := constructOf
  connective := connectiveOf
  construct_ne_chain t operands := by
    unfold constructOf
    split <;> simp

/-- Whether the text of a literal has no mark of a formatted or bytes literal before its first
quote. -/
def isPlainLiteral (text : String) : Bool :=
  let marks := text.toList.takeWhile fun c => c != '"' && c != '\''
  !marks.any fun c => c.toLower == 'f' || c.toLower == 'b'

/-- Whether a node is a plain literal, or adjacent literals that all are plain. -/
def isPlainString (t : ParseTree Kind) : Bool :=
  match t.kind with
  | .string => isPlainLiteral t.text
  | .concatenatedString =>
    t.namedChildren.all fun c => c.kind == .string && isPlainLiteral c.text
  | _ => false

/-- Whether a body starts with documentation: an expression statement that holds nothing but a
plain string. -/
def hasDocumentation (body : ParseTree Kind) : Bool :=
  match body.namedChildren with
  | first :: _ =>
    first.kind == .expressionStatement &&
      match first.visibleChildren with
      | [value] => isPlainString value
      | _ => false
  | [] => false

/-- The unit that a node declares, if it declares one. -/
def unitOf (t : ParseTree Kind) : Option FunctionUnit :=
  if t.kind = .functionDefinition then
    (t.child? .name).map fun name =>
      { name := name.text
        line := t.line
        outline := reading.lower t
        documented := ((t.child? .body).map hasDocumentation).getD false }
  else none

/-- The units of a tree in the order of their declarations. -/
def unitsOfTree (t : ParseTree Kind) : List FunctionUnit :=
  (ParseTree.visible.walk t).filterMap unitOf

/-- The units of a Python file; none if it has an error. -/
def units (text : String) : List FunctionUnit := ((parse? text).map unitsOfTree).getD []

end DocGate.Python

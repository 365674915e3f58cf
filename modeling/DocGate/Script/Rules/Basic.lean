/-
DocGate.Script.Rules.Basic — rules of scripts: symbols and shorthands.

The grammar of the family is one table over the symbols here; rules that only some
dialects have take the dialect as an argument.

* `Context` — where an expression stands: whether the statement may end behind it,
  whether a function in it may name the type of its result, and whether it is a right
  operand.
* `Symbol` — the symbols; those of expressions carry their context.
* `word`, `sign`, `semicolon`, `commaList` and others — shorthands for rules that recur.
-/
import DocGate.Grammar.Machine
import DocGate.Script.Lexeme

namespace DocGate.Script

open DocGate.Grammar

/-- Where an expression stands. -/
structure Context where
  /-- The statement may end behind it. -/
  ends : Bool := false
  /-- A function in it may be annotated with the type of its result. -/
  annotated : Bool := true
  /-- It is a right operand, so that a mark behind it belongs to the whole operation. -/
  joined : Bool := false
  deriving DecidableEq, Repr, Hashable

namespace Context

/-- An expression that ends a statement. -/
def line : Context := { ends := true }

/-- An expression between brackets. -/
def inner : Context := {}

/-- The context of a right operand. -/
def right (c : Context) : Context := { c with joined := true }

/-- The context of an expression of its own in the same place. -/
def own (c : Context) : Context := { c with joined := false }

end Context

/-- The symbols of the grammar. -/
inductive Symbol where
  | program
  | statement
  | block
  | declaration
  | variableDeclaration
  | lexicalDeclaration
  | declarator
  | functionDeclaration
  | classDeclaration
  | classBody
  | exportStatement
  | importStatement
  | decorator
  | parenthesized
  | expressions (c : Context)
  | expression (c : Context)
  | operation (c : Context)
  | coalescing (c : Context)
  | disjunction (c : Context)
  | conjunction (c : Context)
  | arithmetic (c : Context)
  | operand (c : Context)
  | postfixed (c : Context)
  | primary (c : Context)
  | arrowFunction (c : Context)
  | functionExpression
  | classExpression
  | arguments
  | template
  | object
  | array
  | method
  | propertyName
  | destructuring
  | pattern
  | signature
  | parameters
  | parameter
  | element
  | markupExpression
  | type (ends : Bool)
  | unionType (ends : Bool)
  | primaryType (ends : Bool)
  | typeArguments
  | typeParameters
  | declaredType (ends : Bool)
  | declaredResult (ends : Bool)
  | result (ends : Bool)
  | objectType
  deriving DecidableEq, Repr, Hashable

abbrev Rule := Grammar.Rule Symbol Terminal Kind

namespace Rule

open DocGate.Grammar.Rule (nothing never maybe many1 sepBy1)

def gap (kind : Gap) : Rule := .token (.gap kind)
def plainGap : Rule := gap .plain
def word (w : String) : Rule := .token (.word w)
def sign (w : String) : Rule := .token (.sign w)
def exactly (w : String) : Rule := .token (.exactly w)
def constant (w : String) : Rule := .token (.constant w)
def semicolon (behind : Bool) : Rule := .token (.semicolon behind)
def other (rs : List Rule) : Rule := .node .other (.seq rs)
def expression (c : Context) : Rule := .ref (.expression c)
def expressions (c : Context) : Rule := .ref (.expressions c)
def block : Rule := .ref .block
def propertyName : Rule := .ref .propertyName

/-- The gap behind an expression. -/
def behind (c : Context) : Rule := gap (.behind c.ends)

/-- `rule` for each of the spellings. -/
def each (spellings : List String) (rule : String → Rule) : List (String × Rule) :=
  spellings.map fun w => (w, rule w)

/-- One of the signs; the gap before it has been read. -/
def oneOf (spellings : List String) : Rule := .lead (each spellings fun w => sign w) never

/-- The rule in dialects with types, and nothing in the others. -/
def typed (d : Dialect) (r : Rule) : Rule := if d.hasTypes then r else nothing

/-- Items behind commas, any of which may be left out. -/
def holedList (item : Rule) : Rule := .seq [maybe item, .many (.seq [sign ",", maybe item])]

/-- One or more items behind commas, and possibly a last comma. -/
def commaList (item : Rule) : Rule := .seq [sepBy1 item (sign ","), maybe (sign ",")]

/-! ## Names -/

/-- Words that are no names. -/
def reserved : List String :=
  ["break", "case", "catch", "class", "const", "continue", "debugger", "default", "delete", "do",
   "else", "export", "extends", "false", "finally", "for", "function", "if", "import", "in",
   "instanceof", "new", "null", "return", "super", "switch", "this", "throw", "true", "try",
   "typeof", "var", "void", "while", "with"]

/-- Words that start an operand of their own. -/
def operandWords : List String :=
  ["await", "class", "delete", "false", "function", "import", "new", "null", "super", "this",
   "true", "typeof", "void", "yield"]

/-- A name that is used. With types, a word is reserved only where it could be used. -/
def usedName (d : Dialect) : Rule :=
  .token (.identifier (if d.hasTypes then operandWords else "await" :: "yield" :: reserved))

/-- A name that is declared. -/
def declaredName (d : Dialect) : Rule :=
  .token (.identifier (if d.hasTypes then ["in", "instanceof"] else "let" :: reserved))

/-- A name that starts a statement. -/
def leadingName : Rule := .token (.identifier reserved)

end Rule

end DocGate.Script

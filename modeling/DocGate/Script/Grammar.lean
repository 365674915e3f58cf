/-
DocGate.Script.Grammar — the grammar of JavaScript and TypeScript.

* `ruleOf` — the table of rules for each dialect.
* `remembers` — the symbols whose outcomes are kept, because they may be tried more than
  once at a place.
* `grammar`, `parse?` — the grammar of a dialect, and the tree of a text; `none` if the
  text has an error.

The rules themselves are in `DocGate.Script.Rules`. That each of them is sure to read
something is checked in `DocGate.Proofs.Script.Placement`.
-/
import DocGate.Script.Rules.Statements

namespace DocGate.Script

open DocGate.Grammar

/-- What each symbol stands for in a dialect. -/
def ruleOf (d : Dialect) : Symbol → Rule
  | .program => Rule.program
  | .statement => Rule.statement d
  | .block => Rule.blockRule
  | .declaration => Rule.declaration d
  | .variableDeclaration => Rule.variableDeclaration
  | .lexicalDeclaration => Rule.lexicalDeclaration
  | .declarator => Rule.declarator d
  | .functionDeclaration => Rule.functionDeclaration d
  | .classDeclaration => Rule.classDeclaration d
  | .classBody => Rule.classBody d
  | .exportStatement => Rule.exportStatement d
  | .importStatement => Rule.importStatement d
  | .decorator => Rule.decorator d
  | .parenthesized => Rule.parenthesized d
  | .expressions c => Rule.sequence c
  | .expression c => Rule.fullExpression d c
  | .operation c => Rule.operation d c
  | .coalescing c => Rule.coalescing c
  | .disjunction c => Rule.disjunction c
  | .conjunction c => Rule.conjunction c
  | .arithmetic c => Rule.arithmetic d c
  | .operand c => Rule.operand d c
  | .postfixed c => Rule.postfixed d c
  | .primary c => Rule.primary d c
  | .arrowFunction c => Rule.arrowFunction d c
  | .functionExpression => Rule.functionExpression d
  | .classExpression => Rule.classExpression d
  | .arguments => Rule.arguments
  | .template => Rule.template
  | .object => Rule.object d
  | .array => Rule.array
  | .method => Rule.method d
  | .propertyName => Rule.propertyNameRule
  | .destructuring => Rule.destructuring d
  | .pattern => Rule.patternRule
  | .signature => Rule.signature d
  | .parameters => Rule.parameters
  | .parameter => Rule.parameter d
  | .element => Rule.element d
  | .markupExpression => Rule.markupExpression
  | .type ends => Rule.fullType ends
  | .unionType ends => Rule.unionType ends
  | .primaryType ends => Rule.primaryType ends
  | .typeArguments => Rule.typeArguments
  | .typeParameters => Rule.typeParameters
  | .declaredType ends => Rule.declaredType ends
  | .declaredResult ends => Rule.declaredResult ends
  | .result ends => Rule.result ends
  | .objectType => Rule.objectType

/-- The symbols that may be tried more than once at a place. -/
def remembers : Symbol → Bool
  | .expression _ | .postfixed _ | .primary _ | .arrowFunction _ | .destructuring | .block
  | .object | .array | .parameters | .arguments | .type _ | .typeArguments | .typeParameters
  | .classBody | .element | .functionExpression | .template => true
  | _ => false

/-- The grammar of a dialect. -/
def grammar (d : Dialect) : RuleSet Symbol Terminal Kind Unit where
  start := .program
  rule := ruleOf d
  scan := scan d
  spelling := spelling
  remembers := remembers
  initial := ()

/-- The tree of a script, if it has no error. -/
def parse? (d : Dialect) (text : String) : Option (ParseTree Kind) :=
  (grammar d).parse? (.ofString text)

end DocGate.Script

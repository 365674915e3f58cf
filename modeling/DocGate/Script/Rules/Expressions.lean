/-
DocGate.Script.Rules.Expressions — rules of scripts: expressions.

Three layers of boolean operators stand over one layer for all other binary operators,
whose binding among themselves changes no analysis; with types, what is applied to an
operation from behind applies to all of it. An assignment, an arrow function and a
`yield` may stand wherever an operand may.

Where a bracket could open either a value or a pattern, the pattern is tried first and
counts only if what must follow it does.

* `conjunction`, `disjunction`, `coalescing` — the layers of boolean operators. A node
  has two operands, and several operations in a row are grouped to the left
  (`booleanTail`).
* `functionExpression`, `arrowFunction`, `object` — what can be a function unit.
* `patternRule`, `destructuring` — patterns; `element` — markup.
-/
import DocGate.Script.Rules.Types

namespace DocGate.Script.Rule

open DocGate.Grammar.Rule (nothing never maybe many1 sepBy1)

/-! ## Operators -/

/-- Expressions behind commas, of which the last is the value. -/
def sequence (c : Context) : Rule :=
  .seq [expression c,
    maybe (.seq [behind c,
      .lead
        [(",", .wrap .other none
           (many1 (.seq [behind c, .lead [(",", sign ",")] never, expression c])))]
        never])]

/-- A condition with its two outcomes. If the first outcome, read with the types of results,
leaves no second one, it is read without them. -/
def ternary (d : Dialect) (c : Context) : Rule :=
  let outcomes (annotated : Bool) : Rule :=
    .wrap .ternaryExpression none
      (.seq [sign "?", expression { annotated := annotated }, sign ":", expression c])
  if d.hasTypes then .choice [outcomes c.annotated, outcomes false] else outcomes true

def fullExpression (d : Dialect) (c : Context) : Rule :=
  .seq [.ref (.operation c), maybe (.seq [behind c, .lead [("?", ternary d c)] never])]

/-- Further operands behind a boolean operator, which associates to the left. -/
def booleanTail (c : Context) (operator : String) (operand : Symbol) : Rule :=
  .many (.seq [behind c,
    .lead
      [(operator, .wrap .binaryExpression none
         (.seq [.fill .operator (sign operator), .ref operand]))]
      never])

def conjunctionTail (c : Context) : Rule := booleanTail c "&&" (.arithmetic c.right)
def disjunctionTail (c : Context) : Rule := booleanTail c "||" (.conjunction c.right)
def coalescingTail (c : Context) : Rule := booleanTail c "??" (.disjunction c.right)

def conjunction (c : Context) : Rule := .seq [.ref (.arithmetic c), conjunctionTail c]
def disjunction (c : Context) : Rule := .seq [.ref (.conjunction c), disjunctionTail c]
def coalescing (c : Context) : Rule := .seq [.ref (.disjunction c), coalescingTail c]

/-- A conversion of what comes before to a type. -/
def conversion (w : String) : Rule :=
  .wrap .other none
    (.seq [word w, .choice [.seq [word "const", .unless (sign "[")], typeOf false]])

def conversions : List (String × Rule) := each ["as", "satisfies"] conversion

/-- An operand together with the conversions behind it. -/
def convertedOperand (d : Dialect) (c : Context) : Rule :=
  .seq [.ref (.operand c.own),
    typed d (.many (.seq [behind c, .lead conversions never]))]

def binaryOperators : List String :=
  ["|", "^", "&", "==", "!=", "===", "!==", "<", "<=", ">", ">=", "<<", ">>", ">>>",
   "+", "-", "*", "/", "%"]

/-- Further operands behind the other binary operators. Only a power associates to the right. -/
def arithmeticTail (d : Dialect) (c : Context) : Rule :=
  let step : Rule :=
    .lead
      (each binaryOperators (fun w => .seq [sign w, .ref (.operand c.right)])
        ++ each ["in", "instanceof"] (fun w => .seq [word w, .ref (.operand c.right)])
        ++ [("**", .seq [sign "**", convertedOperand d c])])
      never
  maybe (.seq [behind c, .wrap .other none (many1 (.seq [behind c, step]))])

def arithmetic (d : Dialect) (c : Context) : Rule :=
  .seq [.ref (.operand c), arithmeticTail d c]

def assignmentOperators : List String :=
  ["=", "+=", "-=", "*=", "/=", "%=", "^=", "&=", "|=", ">>=", ">>>=", "<<=", "**=", "&&=",
   "||=", "??="]

/-- What can be assigned to. -/
def isAssignable : Kind → Bool
  | .identifier | .member | .subscript | .parenthesized | .nonNull => true
  | _ => false

/-- An assignment to what comes before, if it can be assigned to. -/
def assignment (c : Context) : Rule :=
  maybe (.seq [.after isAssignable, behind c,
    .lead
      (each assignmentOperators fun w => .wrap .other none (.seq [sign w, expression c.own]))
      never])

/-- A value with what is done to it, or an assignment to it. -/
def value (c : Context) : Rule := .seq [.ref (.postfixed c), assignment c]

/-- An assignment to a pattern. -/
def destructuringAssignment (c : Context) : Rule :=
  other [.ref .destructuring, sign "=", expression c.own]

def yielding (c : Context) : Rule :=
  other
    [word "yield",
     maybe (.seq [gap (if c.ends then .within else .plain),
       .lead [("*", .seq [sign "*", expression c.own])] (expression c.own)])]

/-! ## Values -/

def memberName : Rule := .choice [.token .privateName, .token .propertyName]

def subscriptOf : Rule := .seq [sign "[", expressions .inner, sign "]"]

/-- The assurance that what comes before is there. -/
def assurance : String × Rule := ("!", .wrap .nonNull none (sign "!"))

/-- An attribute, an element or a template applied to what comes before, and with types the
assurance that it is there: what binds tighter than `new`. -/
def tightSuffixes (d : Dialect) (c : Context) : List (String × Rule) :=
  [(".", .wrap .member none (.seq [sign ".", memberName])),
   ("[", .wrap .subscript none subscriptOf),
   ("\x60", .wrap .call (some .callee) (.ref .template))]
    ++ if d.hasTypes && !c.joined then [assurance] else []

/-- Type arguments of a call, or of a value that is followed by neither an operand nor an equals
sign, which would make the angle a comparison. -/
def typeArgumentSuffix (c : Context) : Rule :=
  let operators := ["in", "instanceof", "as", "satisfies", "extends", "implements"]
  .choice
    [.wrap .call (some .callee) (.seq [.ref .typeArguments, .ref .arguments]),
     .wrap .other none
       (.seq [.ref .typeArguments,
         .unless (.seq [behind c,
           .choice
             [.token (.identifier operators), .token .number, .token .string, sign "(", sign "[",
              sign "!", sign "~", sign "\x60", sign "="]])])]

def suffix (d : Dialect) (c : Context) : Rule :=
  let optionalChain : Rule :=
    .choice
      [.wrap .call (some .callee)
         (.seq [sign "?.", typed d (maybe (.ref .typeArguments)), .ref .arguments]),
       .wrap .subscript none (.seq [sign "?.", subscriptOf]),
       .wrap .member none (.seq [sign "?.", memberName])]
  .seq [behind c,
    .lead
      (tightSuffixes d c
        ++ [("?.", optionalChain),
            ("(", .wrap .call (some .callee) (.ref .arguments)),
            ("++", .wrap .other none (sign "++")),
            ("--", .wrap .other none (sign "--"))]
        ++ if d.hasTypes then [("<", typeArgumentSuffix c)] else [])
      never]

def postfixed (d : Dialect) (c : Context) : Rule :=
  .seq [.ref (.primary c.own), .many (suffix d c)]

/-- An operand: a value, an operation on one, or an arrow function with what is done to it. -/
def operand (d : Dialect) (c : Context) : Rule :=
  let arrow : Rule := .seq [.ref (.arrowFunction c.own), .many (suffix d c)]
  let arrowOr : Rule := .choice [arrow, value c]
  let angle : List (String × Rule) :=
    match d with
    | .javaScript => []
    | .typeScript =>
      [("<", .choice [arrow, other [.ref .typeArguments, .ref (.operand c)]])]
    | .tsx =>
      [("<", .choice [.seq [arrow, .unless (exactly "</")], value c])]
  .seq [plainGap,
    .lead
      (each ["!", "~", "+", "-", "++", "--"] (fun w => other [sign w, .ref (.operand c)])
        ++ each ["typeof", "void", "delete"] (fun w => other [word w, .ref (.operand c)])
        ++ [("await", other [word "await", convertedOperand d c]),
            ("yield", yielding c),
            ("(", arrowOr),
            ("async", arrowOr),
            ("\x7b", .choice [destructuringAssignment c, value c]),
            ("[", .choice [destructuringAssignment c, value c]),
            ("#", other [.token .privateName, word "in", .ref (.operand c)])]
        ++ angle)
      (.choice
        [.seq [.ahead (.seq [.token (.identifier []), sign "=>"]), arrow], value c])]

/-- Operands joined by binary operators. With types, an assurance or a conversion behind the last
operand applies to the whole, which may then be an operand again. -/
def operation (d : Dialect) (c : Context) : Rule :=
  let applied : Rule :=
    .seq [behind c,
      .lead
        (("!", .seq [assurance.2, .many (suffix d c.own), assignment c]) :: conversions)
        never,
      arithmeticTail d c, conjunctionTail c, disjunctionTail c, coalescingTail c]
  .seq [.ref (.coalescing c), typed d (.many applied)]

def arguments : Rule :=
  let item : Rule :=
    .seq [plainGap,
      .lead [("...", other [sign "...", expression .inner])] (expression .inner)]
  other [sign "(", holedList item, sign ")"]

def array : Rule :=
  let item : Rule :=
    .seq [plainGap,
      .lead [("...", other [sign "...", expression .inner])] (expression .inner)]
  other [sign "[", holedList item, sign "]"]

def template : Rule :=
  other
    [sign "\x60",
     .many (.choice
       [.token .templateText, .token .templateEscape,
        other [exactly "$\x7b", expressions .inner, sign "\x7d"]]),
     sign "\x60"]

/-- The name of a property; a computed one keeps its text. -/
def propertyNameRule : Rule :=
  .seq [plainGap,
    .lead
      [("\"", .token .string),
       ("0", .token .number),
       ("#", .token .privateName),
       ("[", .quote .computedName (.seq [sign "[", expression .inner, sign "]"]))]
      (.token .propertyName)]

def object (d : Dialect) : Rule :=
  let property : Rule :=
    .seq [plainGap,
      .lead [("...", other [sign "...", expression .inner])]
        (.choice
          [.node .pair
             (.seq [.fill .name propertyName, sign ":", expression .inner]),
           .ref .method,
           usedName d])]
  other [sign "\x7b", holedList property, sign "\x7d"]

def parenthesized (d : Dialect) : Rule :=
  .node .parenthesized
    (.seq [sign "(", expressions .inner, typed d (maybe (.ref (.declaredType false))), sign ")"])

def newExpression (d : Dialect) (c : Context) : Rule :=
  other
    [word "new",
     .choice
       [.seq [sign ".", word "target"],
        .seq [.ref (.primary c),
          .many (.seq [behind c, .lead (tightSuffixes d c.own) never]),
          typed d (maybe (.seq [behind c, .lead [("<", .ref .typeArguments)] never])),
          maybe (.seq [behind c, .lead [("(", .ref .arguments)] never])]]]

def primary (d : Dialect) (c : Context) : Rule :=
  .seq [plainGap,
    .lead
      ([("0", .token .number),
        ("\"", .token .string),
        ("\x60", .ref .template),
        ("/", .token .regex),
        ("/=", .token .regex),
        ("(", .choice [.ref (.arrowFunction c.own), .ref .parenthesized]),
        ("[", .ref .array),
        ("\x7b", .ref .object),
        ("function", .ref .functionExpression),
        ("class", .ref .classExpression),
        ("@", .ref .classExpression),
        ("new", newExpression d c),
        ("async",
          .choice [.ref .functionExpression, .ref (.arrowFunction c.own), usedName d])]
        ++ each ["this", "super", "null", "true", "false", "undefined", "import"] constant
        ++ if d.hasMarkup then [("<", .ref .element)] else [])
      (usedName d)]

/-! ## Functions -/

/-- Type parameters, parameters and the type of the result. -/
def signature (d : Dialect) : Rule :=
  .seq [typed d (maybe (.ref .typeParameters)), .ref .parameters,
    typed d (maybe (.ref (.declaredResult true)))]

def functionExpression (d : Dialect) : Rule :=
  let rest (generator : Rule) : Rule :=
    .seq [maybe (word "async"), word "function", generator,
      maybe (.fill .name (declaredName d)), .ref .signature, .fill .body block]
  .choice
    [.node .functionExpression (rest (.unless (sign "*"))),
     .node .generatorExpression (rest (sign "*"))]

def arrowFunction (d : Dialect) (c : Context) : Rule :=
  let parameters : Rule :=
    .seq [typed d (maybe (.ref .typeParameters)), .ref .parameters,
      typed d (if c.annotated then maybe (.ref (.declaredResult false)) else nothing)]
  let body : Rule :=
    .seq [sign "=>", plainGap, .fill .body (.lead [("\x7b", block)] (expression c.own))]
  let single : Rule := usedName d
  .node .arrowFunction
    (.seq [plainGap,
      .lead
        [("async",
          .choice
            [.seq [word "async", .choice [single, parameters], body],
             .seq [single, body]])]
        (.seq [.choice [single, parameters], body])])

/-! ## Patterns and parameters -/

/-- Something that can be assigned to. -/
def assignable : Rule := .seq [.ref (.postfixed .inner), .after isAssignable]

/-- What a pattern may hold in a place: another pattern, or something that can be assigned to. -/
def patternRule : Rule :=
  .seq [plainGap,
    .lead
      [("...", other [sign "...", .ref .pattern]),
       ("\x7b", .choice [.ref .destructuring, assignable]),
       ("[", .choice [.ref .destructuring, assignable])]
      assignable]

def defaultValue : Rule := maybe (.seq [sign "=", expression .inner])

def destructuring (d : Dialect) : Rule :=
  let property : Rule :=
    .seq [plainGap,
      .lead [("...", other [sign "...", .ref .pattern])]
        (.choice
          [other [propertyName, sign ":", .ref .pattern, defaultValue],
           other [usedName d, defaultValue]])]
  .seq [plainGap,
    .lead
      [("\x7b", other [sign "\x7b", holedList property, sign "\x7d"]),
       ("[", other
         [sign "[", holedList (.seq [.ref .pattern, defaultValue]), sign "]"])]
      never]

/-- A name or a pattern that is declared. -/
def bound (d : Dialect) : Rule :=
  .seq [plainGap,
    .lead [("\x7b", .ref .destructuring), ("[", .ref .destructuring)] (declaredName d)]

def parameter (d : Dialect) : Rule :=
  let modifier : Rule :=
    .many (.seq [plainGap,
      .lead
        (each ["public", "private", "protected", "override", "readonly"] fun w =>
          .seq [word w, .ahead (.choice [declaredName d, sign "\x7b", sign "["])])
        never])
  let decorated : Rule := .seq [.many (.ref .decorator), modifier]
  let target : Rule :=
    .seq [plainGap,
      .lead
        ([("...", other [sign "...", bound d])]
          ++ if d.hasTypes then [("this", constant "this")] else [])
        (bound d)]
  other
    [typed d decorated, target, typed d (maybe (exactly "?")),
     typed d (maybe (.ref (.declaredType false))), defaultValue]

def parameters : Rule :=
  other [sign "(", maybe (commaList (.ref .parameter)), sign ")"]

/-! ## Markup -/

def markupExpression : Rule :=
  other
    [sign "\x7b", plainGap,
     maybe (.lead [("...", other [sign "...", expression .inner])] (expressions .inner)),
     sign "\x7d"]

def element (d : Dialect) : Rule :=
  let part : Rule := .token .markupName
  let name : Rule :=
    other [part, .choice [many1 (.seq [sign ".", part]), .seq [sign ":", part], nothing]]
  let content : Rule :=
    .choice
      [.token .markupText, .token .entity, .ref .markupExpression,
       .seq [.unless (exactly "</"), .ref .element]]
  let closing : Rule := other [exactly "</", maybe name, exactly ">"]
  let attr : Rule :=
    .choice
      [.ref .markupExpression,
       other
         [part, maybe (.seq [sign ":", part]),
          maybe (.seq [exactly "=",
            .choice [.token .attributeValue, .ref .markupExpression, .ref .element]])]]
  let children : Rule := .seq [exactly ">", .many content, closing]
  other
    [exactly "<",
     .choice
       [children,
        .seq [name, typed d (maybe (.ref .typeArguments)), .many attr,
          .choice [exactly "/>", children]]]]

end DocGate.Script.Rule

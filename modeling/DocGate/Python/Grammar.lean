/-
DocGate.Python.Grammar — the grammar of Python.

The rules follow the reference grammar, with the statements of both major versions of
the language, and are lenient where a linter has no reason to object: a `return` may
stand anywhere, a `try` needs no handler, and a line may be indented further than its
block.

Words are reserved only where they could be used: a keyword that the grammar cannot use
at a place is an ordinary name there.

* `Context` — every rule for an expression takes one. It says whether the line could
  end, or a bracket close, behind the expression. Within brackets, and in the middle of
  an expression, line ends are blanks.
* `Symbol`, `ruleOf` — the symbols of the grammar, and the rule of each.
* `remembers` — the symbols whose outcomes are kept: what opens with a bracket may be
  tried as a target and then as a value.
* `grammar`, `parse?` — the grammar as a whole, and the tree of a text; `none` if the
  text has an error.

What is proved of its trees needs nothing of the rules but that lexemes are found
forward (`DocGate.Proofs.Python.Scanning`).
-/
import DocGate.Grammar.Machine
import DocGate.Python.Lexeme

namespace DocGate.Python

open DocGate.Grammar

/-- What may come behind an expression. -/
structure Context where
  newline : Bool := false
  close : Bool := false
  deriving DecidableEq, Repr, Hashable

namespace Context

/-- An expression that ends a line. -/
def line : Context := { newline := true }

/-- An expression in brackets. -/
def bracket : Context := { close := true }

/-- An expression in the head of a compound statement. -/
def head : Context := {}

/-- The site behind an expression. -/
def site (c : Context) : Site := { newline := c.newline, close := c.close }

/-- The site of an expression that may be left out. -/
def start (c : Context) : Site := { newline := c.newline, close := c.close, string := true }

end Context

/-- The symbols of the grammar. -/
inductive Symbol where
  | module
  | statement
  | suite
  | simpleStatements
  | simpleStatement
  | expressionStatement
  | assignment
  | rightSide
  | functionDefinition
  | classDefinition
  | ifStatement
  | forStatement
  | whileStatement
  | tryStatement
  | withStatement
  | matchStatement
  | decorated
  | importNames (c : Context)
  | expressions (c : Context)
  | expression (c : Context)
  | disjunction (c : Context)
  | conjunction (c : Context)
  | negation (c : Context)
  | comparison (c : Context)
  | arithmetic (c : Context)
  | unary (c : Context)
  | postfixed (c : Context)
  | atom (c : Context)
  | collection (left right : String)
  | braces
  | yielding (c : Context)
  | typeExpression (c : Context)
  | typeParameters
  | pattern (c : Context)
  | targets (c : Context)
  | parameters
  | parameter (typed : Bool)
  | arguments (comprehension : Bool)
  | clauses
  | stringLiteral
  | formatSpecification
  | casePattern (c : Context)
  | simpleCasePattern (c : Context)
  deriving DecidableEq, Repr, Hashable

abbrev Rule := Grammar.Rule Symbol Terminal Kind

namespace Rule

open DocGate.Grammar.Rule (nothing never maybe many1 sepBy1)

/-! ## Shorthands -/

def gap (site : Site) : Rule := .token (.gap site)
def word (w : String) (site : Site := {}) : Rule := .token (.word w site)
def sign (w : String) (site : Site := {}) : Rule := .token (.sign w site)
def exactly (w : String) (site : Site := {}) : Rule := .token (.exactly w site)
def name (site : Site := {}) : Rule := .token (.identifier site)
def newline (site : Site := { newline := true }) : Rule := .token (.newline site)
def other (rs : List Rule) : Rule := .node .other (.seq rs)
def expression (c : Context) : Rule := .ref (.expression c)

/-- The site of an operand. -/
def operandSite : Site := { string := true }

/-- The site of a statement, or of a further clause of one. -/
def statementSite : Site := { dedent := true, string := true }

/-- `rule` for each of the spellings. -/
def each (spellings : List String) (rule : String → Rule) : List (String × Rule) :=
  spellings.map fun w => (w, rule w)

/-- One of the signs. -/
def oneOf (spellings : List String) : Rule := .lead (each spellings fun w => sign w) never

/-- `r`, further `r`s behind commas, and possibly a last comma. -/
def commaList (c : Context) (r : Rule) : Rule :=
  .seq [r, .many (.seq [sign "," c.site, gap c.start, r]), maybe (sign "," c.site)]

/-- Words that are no names where an expression could start. -/
def notNames : List String := ["lambda", "not", "True", "False", "None"]

/-- Further `r`s behind commas, and possibly a last comma. -/
def commaRest (c : Context) (r : Rule) : Rule :=
  .seq [.many (.seq [sign "," c.site, gap c.start, r]), maybe (sign "," c.site)]

/-- The end of a simple statement. -/
def statementEnd : Rule := .choice [newline, sign ";" Context.line.site]

/-! ## Statements -/

/-- A block, an empty body, or statements on the same line. -/
def suite : Rule :=
  .choice
    [.seq [.token .indent, .node .block (.seq [.many (.ref .statement), .token .dedent])],
     .seq [newline .suite, .node .block nothing],
     .seq [gap .suite, .node .block (.ref .simpleStatements)]]

def simpleStatements : Rule :=
  .seq
    [.ref .simpleStatement,
     .many (.seq [sign ";" Context.line.site, gap Context.line.start, .ref .simpleStatement]),
     maybe (sign ";" Context.line.site), newline]

/-- A clause such as `else` with nothing but a body. -/
def clause (w : String) : Rule :=
  .seq [gap statementSite, other [word w, sign ":", .ref .suite]]

def elifClause : Rule :=
  .seq [gap statementSite,
    .node .elifClause
      (.seq [word "elif", expression .head, sign ":", .ref .suite])]

def ifStatement : Rule :=
  .node .ifStatement
    (.seq [word "if", expression .head, sign ":", .ref .suite, .many elifClause,
      maybe (clause "else")])

def forStatement : Rule :=
  .node .forStatement
    (.seq [maybe (word "async"), word "for", .ref (.targets .head), word "in",
      .ref (.expressions .head), sign ":", .ref .suite, maybe (clause "else")])

def whileStatement : Rule :=
  .node .whileStatement
    (.seq [word "while", expression .head, sign ":", .ref .suite, maybe (clause "else")])

/-- A handler. Its value is a class, with `as` and a name as part of the expression, or a class
and a name behind a comma. -/
def exceptClause : Rule :=
  .seq [gap statementSite,
    .node .exceptClause
      (.seq [word "except", maybe (exactly "*"),
        maybe (.seq [expression .head, maybe (.seq [sign ",", expression .head])]),
        sign ":", .ref .suite])]

def tryStatement : Rule :=
  other [word "try", sign ":", .ref .suite, .many exceptClause, maybe (clause "else"),
    maybe (clause "finally")]

def withStatement : Rule :=
  .node .withStatement
    (.seq [maybe (word "async"), word "with", commaList .head (expression .head), sign ":",
      .ref .suite])

def functionDefinition : Rule :=
  .node .functionDefinition
    (.seq [maybe (word "async"), word "def", .fill .name name,
      maybe (.ref .typeParameters), .ref .parameters,
      maybe (.seq [sign "->", .ref (.typeExpression .head)]), sign ":",
      .fill .body (.ref .suite)])

def classDefinition : Rule :=
  other [word "class", name, maybe (.ref .typeParameters), maybe (.ref (.arguments false)),
    sign ":", .ref .suite]

def decorated : Rule :=
  other
    [many1 (other [sign "@", expression .line, newline]),
     .choice [.ref .classDefinition, .ref .functionDefinition]]

def caseClause : Rule :=
  .seq [gap statementSite,
    other
      [word "case", commaList .head (.ref (.casePattern .head)),
       maybe (other [word "if", expression .head]), sign ":", .ref .suite]]

def matchStatement : Rule :=
  other
    [word "match", commaList .head (expression .head), sign ":",
     .choice
       [.seq [.token .indent, .node .block (.seq [.many caseClause, .token .dedent])],
        .seq [newline .suite, .node .block nothing]]]

def statement : Rule :=
  .seq [gap statementSite,
    .lead
      [("if", .ref .ifStatement),
       ("for", .ref .forStatement),
       ("while", .ref .whileStatement),
       ("try", .ref .tryStatement),
       ("with", .ref .withStatement),
       ("def", .ref .functionDefinition),
       ("class", .ref .classDefinition),
       ("@", .ref .decorated),
       ("match", .choice [.ref .matchStatement, .ref .simpleStatements]),
       ("async",
         .choice [.ref .functionDefinition, .ref .forStatement, .ref .withStatement,
           .ref .simpleStatements])]
      (.ref .simpleStatements)]

/-! ## Simple statements -/

def dottedName (c : Context) : Rule :=
  .node .other (sepBy1 name (sign "." c.site))

/-- Imported names, each possibly with another name. -/
def importNames (c : Context) : Rule :=
  commaList c (other [dottedName c, maybe (.seq [word "as" c.site, name])])

def importFrom : Rule :=
  other
    [word "from",
     .choice
       [.seq [many1 (exactly "."), maybe (.seq [.unless (word "import"), dottedName .head])],
        dottedName .head],
     word "import",
     .choice
       [sign "*",
        .seq [sign "(", .ref (.importNames .bracket), sign ")" Context.bracket.site],
        .ref (.importNames .line)]]

/-- Names behind `global` or `nonlocal`. -/
def nameList (w : String) : Rule :=
  other [word w, sepBy1 name (sign "," Context.line.site)]

/-- A call or another expression that starts with a word which may also start a statement of
its own. -/
def asExpression : Rule := .seq [.ref .expressionStatement, .ahead statementEnd]

def printStatement : Rule :=
  other
    [word "print",
     .choice
       [.seq [other [sign ">>", expression .line], commaRest .line (expression .line)],
        commaList .line (expression .line)]]

def execStatement : Rule :=
  other
    [word "exec", .choice [.ref .stringLiteral, name],
     maybe (.seq [word "in" Context.line.site,
       sepBy1 (expression .line) (sign "," Context.line.site)])]

def typeAlias : Rule :=
  other
    [word "type", .ref (.typeExpression .head), sign "=", .ref (.typeExpression .line),
     .ahead statementEnd]

/-- Expressions that may be left out at the end of a line. -/
def optionalExpressions (c : Context) : Rule :=
  maybe (.seq [gap c.start, .ref (.expressions c)])

def simpleStatement : Rule :=
  .lead
    ((each ["pass", "break", "continue"] fun w => other [word w])
      ++ [("import", other [word "import", .ref (.importNames .line)]),
          ("from", importFrom),
          ("assert", other [word "assert", sepBy1 (expression .line) (sign "," Context.line.site)]),
          ("return", other [word "return", optionalExpressions .line]),
          ("del", other [word "del", .ref (.expressions .line)]),
          ("raise", other [word "raise",
            .choice [.ahead (word "from" Context.line.site), optionalExpressions .line],
            maybe (.seq [word "from" Context.line.site, expression .line])]),
          ("global", nameList "global"),
          ("nonlocal", nameList "nonlocal"),
          ("print", .choice [asExpression, printStatement]),
          ("exec", .choice [asExpression, execStatement]),
          ("type", .choice [typeAlias, .ref .expressionStatement])])
    (.ref .expressionStatement)

def augmented : List String :=
  ["+=", "-=", "*=", "/=", "@=", "//=", "%=", "**=", ">>=", "<<=", "&=", "^=", "|="]

/-- An assignment; a chain of them nests to the right. -/
def assignment : Rule :=
  other
    [.ref (.targets .line), gap Context.line.site,
     .lead
       (each ("=" :: augmented) (fun w => .seq [sign w, .ref .rightSide])
         ++ [(":", .seq [sign ":", .ref (.typeExpression .line),
               maybe (.seq [sign "=" Context.line.site, .ref .rightSide])])])
       never]

def rightSide : Rule :=
  .seq [gap operandSite,
    .lead
      [("yield", .ref (.yielding .line))]
      (.choice [.ref .assignment, .ref (.expressions .line)])]

def expressionStatement : Rule :=
  .node .expressionStatement
    (.lead
      [("yield", .ref (.yielding .line))]
      (.choice [.ref .assignment, .ref (.expressions .line)]))

/-! ## Expressions -/

def expressions (c : Context) : Rule := commaList c (expression c)

def yielding (c : Context) : Rule :=
  other
    [word "yield",
     .choice
       [.seq [word "from" c.site, expression c],
        .seq [.unless (word "from" c.site), optionalExpressions c]]]

/-- An expression with its conditions and its `as` targets, which apply from left to right. -/
def fullExpression (c : Context) : Rule :=
  .seq [.ref (.disjunction c),
    .many (.seq [gap c.site,
      .lead
        [("if", .wrap .conditionalExpression none
           (.seq [word "if", expression .head, word "else", expression c])),
         ("as", .wrap .other none (.seq [word "as", .ref (.disjunction c)]))]
        never])]

/-- Operands joined by a boolean operator, which associates to the left. -/
def booleanChain (c : Context) (operator : String) (operand : Symbol) : Rule :=
  .seq [.ref operand,
    .many (.seq [gap c.site,
      .lead
        [(operator, .wrap .booleanOperation none
           (.seq [.fill .operator (word operator), .ref operand]))]
        never])]

def lambda (c : Context) : Rule :=
  other
    [word "lambda",
     maybe (commaList .head (.ref (.parameter false))), sign ":", expression c]

/-- A negation, a function, a named value or a comparison. -/
def negation (c : Context) : Rule :=
  .seq [gap operandSite,
    .lead
      [("not", other [word "not", .ref (.negation c)]),
       ("lambda", lambda c)]
      (.seq [.ref (.comparison c),
        maybe (.seq [gap c.site,
          .lead
            [(":=", .seq [.after (· == .identifier),
              .wrap .other none (.seq [sign ":=", .ref (.disjunction c)])])]
            never])])]

def comparisonOperator : Rule :=
  .lead
    (each ["<", "<=", "==", "!=", ">=", ">", "<>"] (fun w => sign w)
      ++ [("in", word "in"),
          ("is", .seq [word "is", maybe (word "not")]),
          ("not", .seq [word "not", word "in"])])
    never

def comparison (c : Context) : Rule :=
  .seq [.ref (.arithmetic c),
    maybe (.seq [gap c.site,
      .wrap .other none
        (many1 (.seq [gap c.site, comparisonOperator, .ref (.arithmetic c)]))])]

/-- Operands of arithmetic operators; how they bind to one another changes no analysis. -/
def arithmetic (c : Context) : Rule :=
  .seq [.ref (.unary c),
    maybe (.seq [gap c.site,
      .wrap .other none
        (many1 (.seq [gap c.site,
          oneOf ["+", "-", "*", "@", "/", "%", "//", "**", "|", "&", "^", "<<", ">>"],
          .ref (.unary c)]))])]

def subscripts : Rule :=
  let bound := maybe (.seq [gap { close := true, string := true }, expression .bracket])
  let slice :=
    .seq [exactly ":" Context.bracket.site, bound,
      maybe (.seq [exactly ":" Context.bracket.site, bound])]
  let item : Rule :=
    .choice [.seq [expression .bracket, maybe slice], slice]
  .seq [sign "[", commaList .bracket (.node .other item), sign "]" Context.bracket.site]

/-- An attribute or a subscript of what comes before. -/
def access (c : Context) : Rule :=
  .seq [gap c.site,
    .lead
      [(".", .wrap .attribute none (.seq [sign ".", name])),
       ("[", .wrap .subscript none subscripts)]
      never]

/-- A call of what comes before. -/
def callSuffix (c : Context) : Rule :=
  .seq [gap c.site, .lead [("(", .wrap .call (some .callee) (.ref (.arguments true)))] never]

def postfixed (c : Context) : Rule :=
  .seq [.ref (.atom c), .many (.choice [access c, callSuffix c])]

/-- A name, an attribute or a subscript. -/
def location (c : Context) : Rule :=
  .choice
    [.seq [.ref (.atom c), many1 (.seq [.many (callSuffix c), access c])],
     .lead (each ("in" :: notNames) fun _ => never) name]

def starred (c : Context) : Rule := other [sign "*", gap operandSite, location c]

def unary (c : Context) : Rule :=
  .seq [gap operandSite,
    .lead
      (each ["+", "-", "~"] (fun w => other [sign w, .ref (.unary c)])
        ++ [("await",
              .choice [other [word "await", .ref (.unary c)], .ref (.postfixed c)]),
            ("*", .seq [starred c, .many (.choice [access c, callSuffix c])])])
      (.ref (.postfixed c))]

/-- The clauses of a comprehension. A condition in one of them needs parentheses. -/
def clauses : Rule :=
  let forClause : Rule :=
    other
      [maybe (word "async"), word "for", .ref (.targets .head), word "in",
       commaList .bracket (.ref (.disjunction .bracket))]
  let ifClause : Rule := other [word "if", .ref (.disjunction .bracket)]
  .seq [gap Context.bracket.site, forClause,
    .many (.seq [gap Context.bracket.site,
      .lead [("for", forClause), ("async", forClause), ("if", ifClause)] never])]

/-- An element of a bracketed collection; the gap before it has been read. -/
def element : Rule :=
  .lead
    [("yield", .ref (.yielding .bracket)),
     ("*", other [sign "*", expression .bracket])]
    (expression .bracket)

/-- A collection between brackets, or a comprehension. -/
def collection (left right : String) : Rule :=
  let close := sign right Context.bracket.site
  let rest := .seq [commaRest .bracket element, close]
  other
    [sign left, gap Context.bracket.start,
     .choice
       [close,
        .lead [("yield", .seq [.ref (.yielding .bracket), rest])]
          (.seq [element, .choice [.seq [.ref .clauses, close], rest]])]]

/-- A set, a dictionary, or a comprehension of one. -/
def braces : Rule :=
  let close := sign "\x7d" Context.bracket.site
  let value := .seq [sign ":" Context.bracket.site, expression .bracket]
  let splat := other [sign "**", expression .bracket]
  let entry := .lead [("**", splat)] (other [expression .bracket, value])
  let entries := .seq [commaRest .bracket entry, close]
  let elements := .seq [commaRest .bracket element, close]
  other
    [sign "\x7b", gap Context.bracket.start,
     .choice
       [close,
        .lead
          [(",", .seq [sign ",", close]),
           ("**", .seq [splat, entries]),
           ("yield", .seq [.ref (.yielding .bracket), elements])]
          (.seq [element, gap Context.bracket.site,
            .choice
              [.seq [.wrap .other none value, .choice [.seq [.ref .clauses, close], entries]],
               .seq [.ref .clauses, close],
               elements]])]]

/-- Arguments of a call or of a class. A comprehension may stand as the only argument of a
call. -/
def arguments (comprehension : Bool) : Rule :=
  let close := sign ")" Context.bracket.site
  let keyword : Rule :=
    .lead (each notNames fun _ => never)
      (.seq [.ahead (.seq [name, sign "="]), other [name, sign "=", expression .bracket]])
  let splat : Rule := other [sign "**", expression .bracket]
  let value : Rule :=
    .lead [("*", other [sign "*", expression .bracket])] (expression .bracket)
  let argument : Rule := .lead [("**", splat)] (.choice [keyword, value])
  let rest := .seq [commaRest .bracket argument, close]
  let alone := if comprehension then .seq [.ref .clauses, close] else never
  other
    [sign "(", gap Context.bracket.start,
     .choice
       [close,
        .lead [(",", .seq [sign ",", close]), ("**", .seq [splat, rest])]
          (.choice [.seq [keyword, rest], .seq [value, .choice [alone, rest]]])]]

/-- An expression in a formatted string. -/
def interpolation : Rule :=
  other
    [exactly "\x7b", gap operandSite,
     .lead [("yield", .ref (.yielding .bracket))]
       (.ref (.expressions .bracket)),
     maybe (sign "=" Context.bracket.site), maybe (.token .conversion),
     maybe (.ref .formatSpecification), exactly "\x7d" Context.bracket.site]

/-- How an expression in a formatted string is laid out; it may hold expressions itself. -/
def formatSpecification : Rule :=
  other
    [exactly ":" Context.bracket.site,
     .many (.choice
       [.token .specification,
        other
          [exactly "\x7b" Context.bracket.site, expression .bracket, maybe (.token .conversion),
           maybe (.ref .formatSpecification), exactly "\x7d" Context.bracket.site]])]

def stringLiteral : Rule :=
  .seq [gap operandSite,
    .quote .string
      (.seq [.token .openString, .many (.choice [.token .piece, interpolation]),
        .token .closeString])]

/-- Adjacent literals are one literal. -/
def strings (c : Context) : Rule :=
  let another : Rule := .seq [gap c.start, .lead [("'", .ref .stringLiteral)] never]
  .seq [.ref .stringLiteral,
    maybe (.seq [.ahead another, .wrap .concatenatedString none (many1 another)])]

def atom (c : Context) : Rule :=
  .seq [gap operandSite,
    .lead
      [("'", strings c),
       ("0", .token .number),
       ("(", .ref (.collection "(" ")")),
       ("[", .ref (.collection "[" "]")),
       ("\x7b", .ref .braces),
       ("...", other [sign "..."]),
       ("True", .token .constant),
       ("False", .token .constant),
       ("None", .token .constant)]
      name]

/-! ## Targets, parameters and types -/

/-- Targets between brackets. -/
def bracketedTargets (left right : String) : Rule :=
  let close := sign right Context.bracket.site
  other
    [sign left, gap Context.bracket.start,
     .choice [close, .seq [.ref (.targets .bracket), close]]]

/-- A target of an assignment or a loop. -/
def pattern (c : Context) : Rule :=
  .seq [gap operandSite,
    .lead [("*", starred c), ("lambda", never), ("not", never)]
      (.choice [location c, bracketedTargets "(" ")", bracketedTargets "[" "]"])]

def targets (c : Context) : Rule := commaList c (.ref (.pattern c))

/-- A parameter. Parameters of a `lambda` have no types. -/
def parameter (typed : Bool) : Rule :=
  let c := if typed then Context.bracket else Context.head
  let type : Rule :=
    if typed then maybe (.seq [sign ":" c.site, .ref (.typeExpression c)]) else nothing
  let value : Rule := maybe (.seq [sign "=" c.site, expression c])
  .seq [gap {},
    .lead
      [("*", other [sign "*", maybe (.seq [gap operandSite, location c, type])]),
       ("**", other [sign "**", gap operandSite, location c, type]),
       ("/", other [sign "/"]),
       ("(", other [bracketedTargets "(" ")", value])]
      (other [name, type, value])]

def parameters : Rule :=
  let close := sign ")" Context.bracket.site
  other
    [sign "(", gap Context.bracket.site,
     .choice [close, .seq [commaList .bracket (.ref (.parameter true)), close]]]

def typeExpression (c : Context) : Rule :=
  .seq [gap operandSite,
    .lead [("*", other [sign "*", name]), ("**", other [sign "**", name])]
      (.node .other (expression c))]

def typeParameters : Rule :=
  other
    [sign "[",
     commaList .bracket
       (.seq [.ref (.typeExpression .bracket),
         maybe (.seq [sign ":" Context.bracket.site, .ref (.typeExpression .bracket)])]),
     sign "]" Context.bracket.site]

/-! ## Patterns of a `case` -/

/-- Patterns between brackets. -/
def bracketedPatterns (left right : String) (c : Context) (r : Rule) : Rule :=
  let close := sign right Context.bracket.site
  .seq [sign left c.site, gap Context.bracket.start,
    .choice [close, .seq [commaList .bracket r, close]]]

def simpleCasePattern (c : Context) : Rule :=
  let number : Rule := .seq [maybe (sign "-"), .token .number]
  let imaginaryPart : Rule :=
    maybe (.seq [.choice [sign "+" c.site, sign "-" c.site], .token .number])
  let inner : Rule := .ref (.casePattern .bracket)
  let entry : Rule :=
    .lead [("**", .seq [sign "**", name])]
      (.seq [.ref (.simpleCasePattern .bracket), sign ":" Context.bracket.site, inner])
  .seq [gap operandSite,
    .lead
      [("'", strings c),
       ("(", bracketedPatterns "(" ")" {} inner),
       ("[", bracketedPatterns "[" "]" {} inner),
       ("\x7b", bracketedPatterns "\x7b" "\x7d" {} entry),
       ("*", .seq [sign "*", name]),
       ("**", .seq [sign "**", name]),
       ("0", .seq [number, imaginaryPart]),
       ("-", .seq [number, imaginaryPart])]
      (.seq [dottedName c, maybe (bracketedPatterns "(" ")" c inner)])]

def casePattern (c : Context) : Rule :=
  let union : Rule :=
    .seq [.ref (.simpleCasePattern c), .many (.seq [sign "|" c.site, .ref (.simpleCasePattern c)])]
  other
    [.choice
       [.seq [.ahead (.seq [name, sign "="]), name, sign "=", .ref (.simpleCasePattern c)],
        union],
     .many (.seq [word "as" c.site, name])]

end Rule

open Rule in
/-- What each symbol stands for. -/
def ruleOf : Symbol → Rule
  | .module => .node .module (.seq [.many (.ref .statement), .token .finish])
  | .statement => statement
  | .suite => suite
  | .simpleStatements => simpleStatements
  | .simpleStatement => simpleStatement
  | .expressionStatement => expressionStatement
  | .assignment => assignment
  | .rightSide => rightSide
  | .functionDefinition => functionDefinition
  | .classDefinition => classDefinition
  | .ifStatement => ifStatement
  | .forStatement => forStatement
  | .whileStatement => whileStatement
  | .tryStatement => tryStatement
  | .withStatement => withStatement
  | .matchStatement => matchStatement
  | .decorated => decorated
  | .importNames c => importNames c
  | .expressions c => expressions c
  | .expression c => fullExpression c
  | .disjunction c => booleanChain c "or" (.conjunction c)
  | .conjunction c => booleanChain c "and" (.negation c)
  | .negation c => negation c
  | .comparison c => comparison c
  | .arithmetic c => arithmetic c
  | .unary c => unary c
  | .postfixed c => postfixed c
  | .atom c => atom c
  | .collection left right => collection left right
  | .braces => braces
  | .yielding c => yielding c
  | .typeExpression c => typeExpression c
  | .typeParameters => typeParameters
  | .pattern c => pattern c
  | .targets c => targets c
  | .parameters => parameters
  | .parameter typed => parameter typed
  | .arguments comprehension => arguments comprehension
  | .clauses => clauses
  | .stringLiteral => stringLiteral
  | .formatSpecification => formatSpecification
  | .casePattern c => casePattern c
  | .simpleCasePattern c => simpleCasePattern c

/-- The symbols that may be tried more than once at a place: what opens with a bracket may be a
target of an assignment or a value. -/
def remembers : Symbol → Bool
  | .collection _ _ | .braces => true
  | _ => false

/-- The grammar of a Python file. -/
def grammar : RuleSet Symbol Terminal Kind Layout where
  start := .module
  rule := ruleOf
  scan := scan
  spelling := spelling
  remembers := remembers
  initial := {}

/-- The tree of a Python file, if it has no error. -/
def parse? (text : String) : Option (ParseTree Kind) := grammar.parse? (.ofString text)

end DocGate.Python

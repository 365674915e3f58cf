/-
DocGate.Script.Rules.Statements — rules of scripts: declarations and statements.

Modifiers such as `static` or `get` are words like others, so each of them counts as one
only before a further name in the same declaration.

* `classBody`, `method`, `fieldDefinition` — classes and what they hold.
* `declarator`, `variableDeclaration`, `functionDeclaration` — what gives a function its
  name.
* `statement`, `program` — statements, and the whole of a script.
-/
import DocGate.Script.Rules.Expressions

namespace DocGate.Script.Rule

open DocGate.Grammar.Rule (nothing never maybe many1 sepBy1)

/-! ## Classes -/

def decorator (d : Dialect) : Rule :=
  other
    [sign "@", plainGap,
     .lead [("(", .ref .parenthesized)]
       (.seq [usedName d, .many (.wrap .member none (.seq [sign ".", .token .propertyName])),
         maybe (.seq [plainGap,
           .lead
             ([("(", .wrap .call (some .callee) (.ref .arguments))]
               ++ if d.hasTypes then
                 [("<", .wrap .call (some .callee) (.seq [.ref .typeArguments, .ref .arguments]))]
               else [])
             never])])]

def memberModifiers (d : Dialect) : List String :=
  if d.hasTypes then
    ["public", "private", "protected", "static", "override", "readonly", "async", "get", "set"]
  else ["static", "async", "get", "set"]

/-- A method with its body. In JavaScript its decorators are part of it. -/
def method (d : Dialect) : Rule :=
  .seq [plainGap,
    .node .methodDefinition
      (.seq [if d.hasTypes then nothing else .many (.ref .decorator),
        modifiers (memberModifiers d), maybe (sign "*"), .fill .name propertyName,
        typed d (maybe (exactly "?")), .ref .signature, .fill .body block])]

/-- A field. Its decorators are part of it. -/
def fieldDefinition (d : Dialect) : Rule :=
  let words :=
    if d.hasTypes then
      ["public", "private", "protected", "static", "override", "readonly", "declare", "abstract",
       "accessor"]
    else ["static"]
  .node .fieldDefinition
    (.seq [.many (.ref .decorator), modifiers words, .fill .name propertyName,
      typed d (maybe (.choice [exactly "?", .seq [sign "!", .ahead (sign ":")]])),
      typed d (maybe (.ref (.declaredType true))),
      maybe (.seq [sign "=", expression .line])])

/-- A method without a body. -/
def methodSignature : Rule :=
  other
    [modifiers
       ["public", "private", "protected", "static", "override", "readonly", "async", "get", "set",
        "abstract"],
     maybe (sign "*"), propertyName, maybe (exactly "?"), .ref .signature]

def staticBlock : Rule := other [word "static", block]

def classBody (d : Dialect) : Rule :=
  let fieldEnd : Rule := .choice [semicolon true, semicolon false]
  let member : Rule :=
    if d.hasTypes then
      .choice
        [sign ";", staticBlock,
         .seq [.many (.ref .decorator), .ref .method, maybe (.choice [sign ";", sign ","])],
         .seq [methodSignature, .choice [.token .signatureEnd, sign ","]],
         .seq [indexSignature, .choice [semicolon false, sign ","]],
         .seq [fieldDefinition d, .choice [fieldEnd, sign ","]]]
    else
      .choice
        [sign ";", staticBlock, .seq [.ref .method, maybe (sign ";")],
         .seq [fieldDefinition d, fieldEnd]]
  other [sign "\x7b", .many member, sign "\x7d"]

def heritage (d : Dialect) : Rule :=
  if d.hasTypes then
    .seq
      [maybe (other
         [word "extends",
          sepBy1 (.seq [expression .inner, maybe (.ref .typeArguments)]) (sign ",")]),
       maybe (other [word "implements", sepBy1 (typeOf false) (sign ",")])]
  else maybe (other [word "extends", expression .inner])

/-- A class with the given rule for its name. -/
def classWith (d : Dialect) (name : Rule) : Rule :=
  other
    [.many (.ref .decorator), typed d (maybe (word "abstract")), word "class", name,
     typed d (maybe (.ref .typeParameters)), heritage d, .ref .classBody]

def className (d : Dialect) : Rule :=
  if d.hasTypes then typeName else declaredName d

def classDeclaration (d : Dialect) : Rule := classWith d (className d)

def classExpression (d : Dialect) : Rule := classWith d (maybe (className d))

/-! ## Declarations -/

def declarator (d : Dialect) : Rule :=
  .node .variableDeclarator
    (.seq [.fill .name (bound d),
      typed d (maybe (.choice
        [.seq [sign "!", .ref (.declaredType true)], .ref (.declaredType true)])),
      maybe (.seq [sign "=", expression .line])])

def declarationEnd : Rule := .choice [semicolon true, semicolon false]

def declarators : Rule := .seq [sepBy1 (.ref .declarator) (sign ","), declarationEnd]

def variableDeclaration : Rule := .node .variableDeclaration (.seq [word "var", declarators])

def lexicalDeclaration : Rule :=
  .node .lexicalDeclaration
    (.seq [.choice [word "let", word "const"], declarators])

/-- A declaration of values that are disposed of at the end of their scope. -/
def usingDeclaration : Rule :=
  other [maybe (word "await"), word "using", declarators]

def functionDeclaration (d : Dialect) : Rule :=
  let rest (generator : Rule) : Rule :=
    .seq [maybe (word "async"), word "function", generator, .fill .name (declaredName d),
      .ref .signature, .fill .body block]
  let head : Rule :=
    other
      [maybe (word "async"), word "function", maybe (sign "*"), declaredName d, .ref .signature,
       .token .signatureEnd]
  .choice
    ([.node .functionDeclaration (rest (.unless (sign "*"))),
      .node .generatorDeclaration (rest (sign "*"))]
      ++ if d.hasTypes then [head] else [])

def interfaceDeclaration : Rule :=
  other
    [word "interface", typeName, maybe (.ref .typeParameters),
     maybe (other [word "extends", sepBy1 (namedType false) (sign ",")]), .ref .objectType]

def enumDeclaration : Rule :=
  let member : Rule := other [propertyName, maybe (.seq [sign "=", expression .inner])]
  other
    [maybe (word "const"), word "enum", .token (.identifier []),
     other [sign "\x7b", maybe (commaList member), sign "\x7d"]]

def typeAlias : Rule :=
  other
    [word "type", typeName, maybe (.ref .typeParameters), sign "=", typeOf true,
     semicolon false]

def dottedName : Rule := sepBy1 (.token (.identifier [])) (sign ".")

def moduleDeclaration (w : String) : Rule :=
  other [word w, gap .within, .choice [.token .string, dottedName], maybe block]

def importAlias : Rule :=
  other [word "import", .token (.identifier []), sign "=", dottedName, semicolon false]

def ambientDeclaration : Rule :=
  other
    [word "declare", gap .within,
     .choice
       [.seq [word "global", block],
        .seq [word "module", sign ".", .token .propertyName, sign ":", typeOf true,
          semicolon false],
        .ref .declaration]]

/-- A declaration; the gap before it has been read. -/
def declaration (d : Dialect) : Rule :=
  .lead
    ([("var", .ref .variableDeclaration),
      ("let", .ref .lexicalDeclaration),
      ("function", .ref .functionDeclaration),
      ("async", .ref .functionDeclaration),
      ("class", .ref .classDeclaration),
      ("@", .ref .classDeclaration),
      ("using", usingDeclaration),
      ("await", usingDeclaration)]
      ++ if d.hasTypes then
        [("const", .choice [enumDeclaration, .ref .lexicalDeclaration]),
         ("abstract", .ref .classDeclaration),
         ("interface", interfaceDeclaration),
         ("enum", enumDeclaration),
         ("type", typeAlias),
         ("namespace", moduleDeclaration "namespace"),
         ("module", moduleDeclaration "module"),
         ("import", importAlias),
         ("declare", ambientDeclaration)]
      else [("const", .ref .lexicalDeclaration)])
    never

/-! ## Modules -/

def fromClause : Rule := .seq [word "from", .token .string]

/-- The name of something that a module exports. -/
def exportedName : Rule := .choice [.token .string, .token (.identifier [])]

/-- A mark that only types are meant, before something else. -/
def typeOnly (d : Dialect) (next : Rule) : Rule :=
  typed d (maybe (.seq [.choice [word "type", word "typeof"], .ahead next]))

def specifiers (d : Dialect) : Rule :=
  let renamed : Rule := .seq [exportedName, maybe (.seq [word "as", exportedName])]
  let specifier : Rule := other [typeOnly d exportedName, renamed]
  other
    [sign "\x7b", maybe (commaList (.choice [specifier, other [renamed]])), sign "\x7d"]

def importAttributes : Rule :=
  maybe (other [.choice [word "with", word "assert"], .ref .object])

def importStatement (d : Dialect) : Rule :=
  let namespaceImport : Rule := other [sign "*", word "as", .token (.identifier [])]
  let clause : Rule :=
    .choice
      [namespaceImport, specifiers d,
       .seq [.token (.identifier []),
         maybe (.seq [sign ",", .choice [namespaceImport, specifiers d]])]]
  let requirement : Rule :=
    .seq [.token (.identifier []), sign "=", word "require", sign "(", .token .string, sign ")"]
  let subject : Rule :=
    .choice
      ([.token .string, .seq [clause, fromClause]] ++ if d.hasTypes then [requirement] else [])
  let ending : Rule := .seq [importAttributes, semicolon false]
  .choice
    ([other [word "import", subject, ending]]
      ++ if d.hasTypes then
        [other [word "import", .choice [word "type", word "typeof"], subject, ending],
         importAlias]
      else [])

def exportStatement (d : Dialect) : Rule :=
  let clause : Rule :=
    .choice
      [.seq [sign "*", maybe (.seq [word "as", exportedName]), fromClause],
       .seq [specifiers d, maybe fromClause]]
  let declared : Rule := .seq [plainGap, .ref .declaration]
  let basic : List Rule :=
    [.seq [word "export", clause, importAttributes, semicolon false],
     .seq [.many (.ref .decorator), word "export", declared],
     .seq [.many (.ref .decorator), word "export", word "default",
       .choice [declared, .seq [expression .line, semicolon true]]]]
  let extended : List Rule :=
    [.seq [word "export", word "type", clause, importAttributes, semicolon false],
     .seq [word "export", importAlias],
     .seq [word "export", sign "=", expression .line, semicolon true],
     .seq [word "export", word "as", word "namespace", .token (.identifier []),
       semicolon false]]
  .node .exportStatement (.choice (basic ++ if d.hasTypes then extended else []))

/-! ## Statements -/

def blockRule : Rule := .node .block (.seq [sign "\x7b", .many (.ref .statement), sign "\x7d"])

def expressionStatement : Rule := other [expressions .line, semicolon true]

def labeledStatement : Rule :=
  .seq [.ahead (.seq [leadingName, sign ":"]),
    other [leadingName, sign ":", .ref .statement]]

/-- A statement that starts with an expression or a label. -/
def plainStatement : Rule := .choice [labeledStatement, expressionStatement]

def ifStatement : Rule :=
  .node .ifStatement
    (.seq [word "if", .ref .parenthesized, .ref .statement,
      maybe (other [word "else", .ref .statement])])

def switchStatement : Rule :=
  let clause : Rule :=
    .choice
      [other [word "case", expressions .inner, sign ":", .many (.ref .statement)],
       other [word "default", sign ":", .many (.ref .statement)]]
  .node .switchStatement
    (.seq [word "switch", .ref .parenthesized,
      other [sign "\x7b", .many clause, sign "\x7d"]])

def forStatement (d : Dialect) : Rule :=
  let operator : Rule := .choice [word "in", word "of"]
  let target : Rule :=
    .choice
      [.seq [.choice [word "let", word "const", word "using"], bound d, .ahead operator],
       .seq [word "var", bound d, maybe (.seq [sign "=", .ref (.postfixed .inner)]),
         .ahead operator],
       .seq [.ref .destructuring, .ahead operator],
       .seq [.unless (.choice [word "const", word "var"]), .ref (.postfixed .inner),
         .after isAssignable]]
  let start : Rule :=
    .choice
      [.ref .lexicalDeclaration, .ref .variableDeclaration,
       .seq [expressions .inner, sign ";"], sign ";"]
  .choice
    [.node .forInStatement
       (.seq [word "for", maybe (word "await"), sign "(", target, operator, expressions .inner,
         sign ")", .ref .statement]),
     .node .forStatement
       (.seq [word "for", sign "(", start, .choice [.seq [expressions .inner, sign ";"], sign ";"],
         maybe (expressions .inner), sign ")", .ref .statement])]

def tryStatement (d : Dialect) : Rule :=
  let parameter : Rule :=
    .seq [sign "(", bound d, typed d (maybe (.ref (.declaredType false))), sign ")"]
  other
    [word "try", block,
     maybe (.node .catchClause (.seq [word "catch", maybe parameter, block])),
     maybe (other [word "finally", block])]

/-- A jump, possibly to a label. -/
def jump (w : String) : Rule :=
  other [word w, maybe (.seq [gap .within, .token (.identifier [])]), semicolon false]

def statement (d : Dialect) : Rule :=
  let declared : Rule := .ref .declaration
  let declaredOrPlain : Rule := .choice [declared, plainStatement]
  .seq [plainGap,
    .lead
      ([("\x7b", block),
        (";", other [sign ";"]),
        ("var", declared),
        ("const", declared),
        ("let", declaredOrPlain),
        ("function", declared),
        ("class", declared),
        ("@", .choice [.ref .exportStatement, declared]),
        ("async", declaredOrPlain),
        ("using", declaredOrPlain),
        ("await", declaredOrPlain),
        ("export", .ref .exportStatement),
        ("import", .choice [.ref .importStatement, plainStatement]),
        ("if", ifStatement),
        ("switch", switchStatement),
        ("for", forStatement d),
        ("while", .node .whileStatement
          (.seq [word "while", .ref .parenthesized, .ref .statement])),
        ("do", .node .doStatement
          (.seq [word "do", .ref .statement, word "while", .ref .parenthesized,
            maybe (semicolon true)])),
        ("try", tryStatement d),
        ("with", other [word "with", .ref .parenthesized, .ref .statement]),
        ("break", jump "break"),
        ("continue", jump "continue"),
        ("debugger", other [word "debugger", semicolon false]),
        ("return", other
          [word "return", maybe (.seq [gap .within, expressions .line]), semicolon true]),
        ("throw", other [word "throw", expressions .line, semicolon true])]
        ++ (if d.hasTypes then
            each ["interface", "enum", "abstract"] (fun _ => declared)
              ++ each ["type", "namespace", "module", "declare"] (fun _ => declaredOrPlain)
          else [])
        ++ each
          ["case", "default", "else", "catch", "finally", "extends", "in", "instanceof"]
          (fun _ => never))
      plainStatement]

def program : Rule :=
  .node .program
    (.seq [maybe (.token .hashBang), .many (.ref .statement), .token .finish])

end DocGate.Script.Rule

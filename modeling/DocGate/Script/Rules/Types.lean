/-
DocGate.Script.Rules.Types — rules of scripts: types.

Types matter to no analysis by themselves, but they hold default values and calls, and a
source with a malformed type is refused. In a type that ends a statement (`ends`), a
bracket on the next line starts a new one.

* `fullType`, `unionType`, `primaryType` — types, from the outside to the inside.
* `typeParameters`, `typeArguments` — the lists in angle brackets.
* `declaredType`, `declaredResult` — the types of names and of functions.
-/
import DocGate.Script.Rules.Basic

namespace DocGate.Script.Rule

open DocGate.Grammar.Rule (nothing never maybe many1 sepBy1)

def typeOf (ends : Bool) : Rule := .ref (.type ends)
def behindType (ends : Bool) : Rule := gap (.behindType ends)

/-- A name of a type. -/
def typeName : Rule := .token (.identifier ["extends", "implements"])

def typeArguments : Rule :=
  other [exactly "<", commaList (typeOf false), exactly ">"]

def typeParameter : Rule :=
  other
    [.choice
       [.seq [word "const", typeName], typeName],
     maybe (.seq [.choice [word "extends", sign ":"], typeOf false]),
     maybe (.seq [sign "=", typeOf false])]

def typeParameters : Rule :=
  other [exactly "<", commaList typeParameter, exactly ">"]

def declaredType (ends : Bool) : Rule := other [sign ":", typeOf ends]

/-- The type of a result, or what it says about an argument. -/
def result (ends : Bool) : Rule :=
  let subject := .choice [constant "this", .token (.identifier [])]
  .choice
    [other
       [word "asserts", gap .within, subject,
        maybe (.seq [word "is", typeOf ends])],
     other [subject, word "is", typeOf ends],
     typeOf ends]

def declaredResult (ends : Bool) : Rule := other [sign ":", .ref (.result ends)]

def functionType (ends : Bool) : Rule :=
  other
    [maybe (.ref .typeParameters), .ref .parameters, sign "=>", .ref (.result ends)]

def constructorType (ends : Bool) : Rule :=
  other
    [maybe (word "abstract"), word "new", maybe (.ref .typeParameters), .ref .parameters,
     sign "=>", typeOf ends]

/-- Members of an interface or an object type that start with a property name. Words such as
`readonly` are modifiers only before another name. -/
def modifiers (words : List String) : Rule :=
  .many (.seq [plainGap,
    .lead
      (each words fun w =>
        .seq [word w, .ahead (.seq [gap .within, .choice [propertyName, sign "*"]])])
      never])

def indexSignature : Rule :=
  other
    [maybe (.seq [maybe (.choice [exactly "-", exactly "+"]), word "readonly"]),
     sign "[",
     .choice
       [.seq [.token (.identifier []), sign ":", typeOf false],
        .seq [.token (.identifier []), word "in", typeOf false,
          maybe (.seq [word "as", typeOf false])]],
     sign "]",
     .choice
       [.seq [exactly "-?:", typeOf true], .seq [exactly "+?:", typeOf true],
        .seq [exactly "?:", typeOf true], .ref (.declaredType true)]]

def typeMember : Rule :=
  .choice
    [indexSignature,
     other
       [maybe (word "abstract"), word "new", maybe (.ref .typeParameters), .ref .parameters,
        maybe (.ref (.declaredType true))],
     other
       [modifiers ["public", "private", "protected", "static", "override", "readonly", "async",
          "get", "set"],
        maybe (sign "*"), propertyName, maybe (exactly "?"), .ref .signature],
     other
       [modifiers ["public", "private", "protected", "static", "override", "readonly"],
        propertyName, maybe (exactly "?"), maybe (.ref (.declaredType true))],
     .node .other (.ref .signature)]

def objectType : Rule :=
  let separator : Rule := .choice [sign ",", semicolon false]
  other
    [.choice [exactly "\x7b|", sign "\x7b"], maybe (.choice [sign ",", sign ";"]),
     maybe (.seq [typeMember, .many (.seq [separator, typeMember]), maybe separator]),
     .choice [exactly "|\x7d", sign "\x7d"]]

/-- The value whose type a query asks for. -/
def typeQuery : Rule :=
  let step : Rule :=
    .seq [behindType true,
      .lead
        [(".", .wrap .member none
           (.seq [sign ".", .choice [.token .privateName, .token .propertyName]])),
         ("?.", .wrap .member none
           (.seq [sign "?.", .choice [.token .privateName, .token .propertyName]])),
         ("[", .wrap .subscript none
           (.seq [sign "[", .choice [.token .string, .token .number, .token .propertyName],
             sign "]"])),
         ("(", .wrap .call (some .callee) (.ref .arguments)),
         ("<", .wrap .other none (.ref .typeArguments))]
        never]
  other
    [word "typeof",
     .choice [constant "import", constant "this", .token (.identifier [])], .many step]

/-- The type of something in another module. -/
def importType : Rule :=
  .seq [constant "import",
    .wrap .call (some .callee) (.ref .arguments),
    .many (.seq [behindType true,
      .lead
        [(".", .wrap .member none (.seq [sign ".", .token .propertyName]))]
        never]),
    maybe (.ref .typeArguments)]

def tupleMember : Rule :=
  .choice
    [other [sign "...", .token (.identifier []), .ref (.declaredType false)],
     other [.token (.identifier []), exactly "?", .ref (.declaredType false)],
     other [.token (.identifier []), .ref (.declaredType false)],
     other [sign "...", typeOf false],
     other [typeOf false, maybe (exactly "?")]]

def templateType : Rule :=
  other
    [sign "\x60",
     .many (.choice
       [.token .templateText, .token .templateEscape,
        other [exactly "$\x7b", typeOf false, sign "\x7d"]]),
     sign "\x60"]

def namedType (ends : Bool) : Rule :=
  other
    [.token (.identifier []),
     .many (.seq [behindType ends, .lead [(".", .seq [sign ".", .token .propertyName])] never]),
     maybe (.seq [behindType ends, .lead [("<", .ref .typeArguments)] never])]

/-- A type without operators, with the lengths and look-ups behind it. -/
def primaryType (ends : Bool) : Rule :=
  let inner : Rule :=
    .lead
      [("(", .choice
          [functionType ends, other [sign "(", typeOf false, sign ")"]]),
       ("<", functionType ends),
       ("new", .choice [constructorType ends, namedType ends]),
       ("abstract", .choice [constructorType ends, namedType ends]),
       ("\x7b", .ref .objectType),
       ("[", other [sign "[", maybe (commaList tupleMember), sign "]"]),
       ("\"", .token .string),
       ("0", .token .number),
       ("-", other [sign "-", .token .number]),
       ("+", other [sign "+", .token .number]),
       ("\x60", templateType),
       ("typeof", typeQuery),
       ("import", importType),
       ("keyof", other [word "keyof", .ref (.primaryType ends)]),
       ("readonly", .choice [other [word "readonly", .ref (.primaryType ends)], namedType ends]),
       ("unique", .choice [other [word "unique", word "symbol"], namedType ends]),
       ("infer", .choice
         [other
            [word "infer", typeName,
             maybe (.seq [word "extends", .ref (.unionType ends)])],
          namedType ends]),
       ("?", other [sign "?", .ref (.primaryType ends)]),
       ("*", other [sign "*"])]
      (namedType ends)
  .seq [plainGap, inner,
    .many (.seq [behindType ends,
      .lead
        [("[", .wrap .other none (.seq [sign "[", maybe (typeOf false), sign "]"]))]
        never])]

/-- Types joined by `|` and `&`, each of which may also stand before the first; how these bind
changes no analysis. -/
def unionType (ends : Bool) : Rule :=
  let operator : Rule := oneOf ["|", "&"]
  let member : Rule :=
    .seq [plainGap, .many (.seq [operator, plainGap]), .ref (.primaryType ends)]
  .seq [member, .many (.seq [behindType ends, operator, member])]

/-- A type, possibly one that depends on a condition. -/
def fullType (ends : Bool) : Rule :=
  other
    [.ref (.unionType ends),
     maybe (.seq [behindType ends, word "extends", .ref (.unionType false), sign "?",
       typeOf false, sign ":", typeOf ends])]

end DocGate.Script.Rule

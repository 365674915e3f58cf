/-
DocGate.Script.Lexeme — lexemes of JavaScript and TypeScript.

The lexemes of the family share their words, numbers, strings and operators. Two things
depend on the place: whether a slash starts a regular expression, which the grammar
decides by asking for one, and whether a line end stands for a semicolon, which is
decided from what comes on the next line.

* `Dialect` — the dialects, and which of them know markup and types.
* `endsStatement` — whether a statement may end at a place without a semicolon.
* `Gap`, `skipGap` — the gap in front of a lexeme, and the blanks and comments that are
  in it.
* `Terminal`, `scan` — what the grammar can ask for, and the lexeme that answers; `none`
  if there is none at the place.
-/
import DocGate.Grammar.Rule

namespace DocGate.Script

open DocGate.Grammar

/-- The languages of the family. -/
inductive Dialect where
  | javaScript
  | typeScript
  /-- TypeScript with markup in expressions. -/
  | tsx
  deriving DecidableEq, Repr

namespace Dialect

/-- Whether expressions may hold markup. -/
def hasMarkup : Dialect → Bool
  | typeScript => false
  | _ => true

/-- Whether declarations may have types. -/
def hasTypes : Dialect → Bool
  | javaScript => false
  | _ => true

end Dialect

/-- The kinds of nodes that the analyses of a script tell apart. -/
inductive Kind where
  | program
  | functionDeclaration
  | generatorDeclaration
  | functionExpression
  | generatorExpression
  | methodDefinition
  | arrowFunction
  | block
  | ifStatement
  | switchStatement
  | forStatement
  | forInStatement
  | whileStatement
  | doStatement
  | catchClause
  | ternaryExpression
  | binaryExpression
  | call
  | variableDeclarator
  | lexicalDeclaration
  | variableDeclaration
  | exportStatement
  | pair
  | fieldDefinition
  | identifier
  | propertyIdentifier
  | privateIdentifier
  | string
  | number
  | computedName
  | member
  | subscript
  | parenthesized
  | nonNull
  | comment
  /-- Punctuation, an operator or a keyword. -/
  | mark
  /-- Any other construct. -/
  | other
  deriving DecidableEq, Repr, Inhabited

abbrev Place := Cursor Unit

/-! ## Blanks and comments -/

/-- The blanks of the character set's first block. -/
def isPlainBlank (c : Char) : Bool := ('\t' ≤ c && c ≤ '\r') || c == ' '

/-- The separators of the Unicode class `Zs` beyond the first block. -/
def isSpaceSeparator (c : Char) : Bool :=
  c == '\u00A0' || c == '\u1680' || ('\u2000' ≤ c && c ≤ '\u200A') || c == '\u202F'
    || c == '\u205F' || c == '\u3000'

/-- Whatever may stand between lexemes besides comments. -/
def isBlank (c : Char) : Bool :=
  isPlainBlank c || isSpaceSeparator c || c == '\uFEFF' || c == '\u2028' || c == '\u2029'
    || c == '\u2060' || c == '\u200B'

def isLineEnd (c : Char) : Bool := c == '\n' || c == '\u2028' || c == '\u2029'

/-- The place behind the next `*/`, if there is one. -/
def blockCommentEnd (s : Source) : Nat → Nat → Option Nat
  | 0, _ => none
  | fuel + 1, i =>
    if s.atEnd i then none
    else if s.peek i == '*' && s.peek (i + 1) == '/' then some (i + 2)
    else blockCommentEnd s fuel (i + 1)

/-- The end of the comment that starts at a place, if one does. Markup comments count where
`markup` is set; they end with their line. -/
def commentEnd (s : Source) (markup : Bool) (i : Nat) : Option Nat :=
  if s.startsAt i "//" then some (s.skipWhile (fun c => !isLineEnd c && c != '\r') i)
  else if s.startsAt i "/*" then blockCommentEnd s (s.size - i) (i + 2)
  else if markup && (s.startsAt i "<!--" || s.startsAt i "-->") then
    some (s.skipWhile (fun c => !isLineEnd c) i)
  else none

/-- Skips blanks and, if a comment comes next, the comment. -/
def skipComment (s : Source) (markup : Bool) (p : Place) : Option (ParseTree Kind × Place) :=
  let p := p.moveTo s (s.skipWhile isBlank p.pos)
  match commentEnd s markup p.pos with
  | some j => some (.leaf .comment .extra p.row "", p.moveTo s j)
  | none => none

/-! ## Line ends that end a statement -/

/-- What the look at the next lexeme found. -/
inductive Peeked where
  /-- A slash that starts no comment. -/
  | slash
  /-- The place of the next lexeme, and whether comments up to it held a line end. -/
  | at (place : Nat) (newline : Bool)

/-- Skips blanks and comments. Unless `through` is set, the look stops behind a block comment
that no slash follows. -/
def peekPast (s : Source) (through : Bool) : Nat → Nat → Bool → Peeked
  | 0, i, newline => .at i newline
  | fuel + 1, i, newline =>
    let i := s.skipWhile isPlainBlank i
    if s.atEnd i || s.peek i != '/' then .at i true
    else if s.peek (i + 1) == '/' then
      peekPast s through fuel (s.skipWhile (fun c => !isLineEnd c) i) newline
    else if s.peek (i + 1) == '*' then
      let j := (blockCommentEnd s (s.size - i) (i + 2)).getD s.size
      let newline := newline || (s.chars.extract i j).any isLineEnd
      if s.peek j != '/' && !through then .at j newline
      else peekPast s through fuel j newline
    else .slash

/-- Whether the lexeme on a new line starts a new statement rather than continuing the last
one. `behind` says that the last one could go on as an expression; `signature` that it may be
the head of a function whose body is to come. -/
def startsStatement (d : Dialect) (s : Source) (behind signature : Bool) (i : Nat) : Bool :=
  let next := s.peek (i + 1)
  match s.peek i with
  | '\x60' | ',' | ':' | ';' | '*' | '%' | '>' | '<' | '=' | '?' | '^' | '|' | '&' | '/' => false
  | '(' | '[' => d.hasTypes && !behind
  | '.' => !d.hasTypes && next.isDigit
  | '\x7b' => !signature
  | '+' => next == '+'
  | '-' => next == '-'
  | '!' => next != '='
  | 'i' =>
    let word := s.slice i (s.skipWhile (fun c => c.isAlpha) i)
    word != "in" && word != "instanceof"
  | _ => true

/-- Whether a statement may end at a closing brace. In a typed dialect it may not where the
brace closes a pattern that has a type. -/
def endsAtBrace (d : Dialect) (s : Source) (behind : Bool) (i : Nat) : Bool :=
  !d.hasTypes || s.peek (s.skipWhile isPlainBlank (i + 1)) != ':' || behind

/-- Whether the statement ends here without a semicolon: before a closing brace, at the end of
the text, or at a line end behind which a new statement starts. -/
def endsStatement (d : Dialect) (s : Source) (behind signature : Bool) (i : Nat) : Bool :=
  let j := s.skipWhile (fun c => isPlainBlank c && c != '\n') i
  if s.atEnd j then true
  else if s.peek j == '\x7d' then endsAtBrace d s behind j
  else if isLineEnd (s.peek j) && (s.peek j == '\n' || !d.hasTypes) then
    match peekPast s true (s.size - j) (j + 1) false with
    | .slash => false
    | .at k _ => s.atEnd k || startsStatement d s behind signature k
  else if s.peek j == '/' && !d.hasTypes then
    match peekPast s false (s.size - j) j false with
    | .slash => false
    | .at k newline =>
      if newline && !behind && s.peek k != ',' && s.peek k != '=' then true
      else
        -- Behind a comment on the same line the question is the same again.
        let k := s.skipWhile (fun c => isPlainBlank c && c != '\n') k
        s.atEnd k || s.peek k == '\x7d' ||
          (isLineEnd (s.peek k) &&
            match peekPast s true (s.size - k) (k + 1) false with
            | .slash => false
            | .at l _ => s.atEnd l || startsStatement d s behind signature l)
  else false

/-! ## Words, numbers and operators -/

/-- Characters that no word holds. -/
def isBreak (c : Char) : Bool :=
  c < ' ' || isBlank c || ":;\x60\"'@#.,|^&<=>+-*/\\%?!~()[]\x7b\x7d".toList.contains c

def isHexDigit (c : Char) : Bool :=
  c.isDigit || ('a' ≤ c && c ≤ 'f') || ('A' ≤ c && c ≤ 'F')

/-- The end of `n` hexadecimal digits, if they stand here. -/
def hexDigitsEnd (s : Source) : Nat → Nat → Option Nat
  | 0, i => some i
  | n + 1, i => if !s.atEnd i && isHexDigit (s.peek i) then hexDigitsEnd s n (i + 1) else none

/-- The end of `\x7b`digits`\x7d`, if that stands here. -/
def bracedHexEnd (s : Source) (i : Nat) : Option Nat :=
  if s.peek i != '\x7b' then none
  else
    let j := s.skipWhile isHexDigit (i + 1)
    if j == i + 1 || s.peek j != '\x7d' then none else some (j + 1)

/-- The end of an escaped character of a word, if one stands here. -/
def wordEscapeEnd (s : Source) (i : Nat) : Option Nat :=
  if s.startsAt i "\\u" then
    match hexDigitsEnd s 4 (i + 2) with
    | some j => some j
    | none => bracedHexEnd s (i + 2)
  else none

/-- Goes on in a word. -/
def wordWithin (s : Source) : Nat → Nat → Nat
  | 0, i => i
  | fuel + 1, i =>
    if s.atEnd i then i
    else if !isBreak (s.peek i) then wordWithin s fuel (i + 1)
    else
      match wordEscapeEnd s i with
      | some j => wordWithin s fuel j
      | none => i

/-- The end of the word that starts at a place, which is the place itself if none does. -/
def wordEnd (s : Source) (i : Nat) : Nat :=
  if (s.peek i).isDigit then i else wordWithin s (s.size + 1 - i) i

/-- Digits with single underscores between them. -/
def digitsWithin (s : Source) (p : Char → Bool) : Nat → Nat → Nat
  | 0, i => i
  | fuel + 1, i =>
    let j := s.skipWhile p i
    if j == i then i
    else if s.peek j == '_' && !s.atEnd (j + 1) && p (s.peek (j + 1)) then
      digitsWithin s p fuel (j + 1)
    else j

def digitsEnd (s : Source) (p : Char → Bool) (i : Nat) : Nat :=
  digitsWithin s p (s.size + 1 - i) i

/-- The end of an exponent, if one starts here. -/
def exponentEnd (s : Source) (i : Nat) : Nat :=
  if s.peek i == 'e' || s.peek i == 'E' then
    let j := if s.peek (i + 1) == '+' || s.peek (i + 1) == '-' then i + 2 else i + 1
    let k := digitsEnd s Char.isDigit j
    if k == j then i else k
  else i

/-- The end of an integer with a base mark, if one starts here. -/
def basedEnd (s : Source) (i : Nat) : Option Nat :=
  let digits (p : Char → Bool) : Option Nat :=
    let j := digitsEnd s p (i + 2)
    if j == i + 2 then none else if s.peek j == 'n' then some (j + 1) else some j
  if s.peek i != '0' then none
  else
    match s.peek (i + 1) with
    | 'x' | 'X' => digits isHexDigit
    | 'o' | 'O' => digits fun c => '0' ≤ c && c ≤ '7'
    | 'b' | 'B' => digits fun c => c == '0' || c == '1'
    | _ => none

/-- The end of the number that starts at a place, if one does. -/
def numberEnd (s : Source) (i : Nat) : Option Nat :=
  match basedEnd s i with
  | some j => some j
  | none =>
    let j := digitsEnd s Char.isDigit i
    if s.peek j == '.' then
      let k := digitsEnd s Char.isDigit (j + 1)
      if j == i && k == j + 1 then none else some (exponentEnd s k)
    else if j == i then none
    else if s.peek j == 'n' then some (j + 1)
    else some (exponentEnd s j)

/-- Operators and punctuation of more than one character, longer ones first. -/
def longOperators : List String :=
  [">>>=", "===", "!==", "**=", "<<=", ">>=", ">>>", "&&=", "||=", "??=", "...",
   "=>", "==", "!=", "<=", ">=", "&&", "||", "??", "?.", "++", "--",
   "+=", "-=", "*=", "/=", "%=", "&=", "|=", "^=", "<<", ">>", "**"]

/-- The longest operator or punctuation at a place; any other character stands for itself. A
question mark before a decimal fraction stands alone. -/
def operatorAt (s : Source) (i : Nat) : String :=
  let longest := (longOperators.find? (s.startsAt i)).getD (s.slice i (i + 1))
  if longest == "?." && (s.peek (i + 2)).isDigit then "?" else longest

/-! ## Strings, templates and regular expressions -/

/-- The end of the escape sequence at a backslash, if it is one. -/
def escapeEnd (s : Source) (i : Nat) : Option Nat :=
  let c := s.peek (i + 1)
  if s.atEnd (i + 1) then none
  else if c == 'x' then hexDigitsEnd s 2 (i + 2)
  else if c == 'u' then
    match hexDigitsEnd s 4 (i + 2) with
    | some j => some j
    | none => bracedHexEnd s (i + 2)
  else if c == '\r' && isLineEnd (s.peek (i + 2)) then some (i + 3)
  else some (i + 2)

/-- The end of a string literal from inside it. -/
def stringWithin (s : Source) (q : Char) : Nat → Nat → Option Nat
  | 0, _ => none
  | fuel + 1, i =>
    let c := s.peek i
    if s.atEnd i || c == '\n' || c == '\r' then none
    else if c == q then some (i + 1)
    else if c == '\\' then
      match escapeEnd s i with
      | some j => stringWithin s q fuel j
      | none => none
    else stringWithin s q fuel (i + 1)

/-- The end of the string literal that starts at a place, if one does. -/
def stringEnd (s : Source) (i : Nat) : Option Nat :=
  let q := s.peek i
  if q == '"' || q == '\'' then stringWithin s q (s.size + 1 - i) (i + 1) else none

/-- The end of the plain characters of a template. -/
def templateWithin (s : Source) : Nat → Nat → Nat
  | 0, i => i
  | fuel + 1, i =>
    let c := s.peek i
    if s.atEnd i || c == '\x60' || c == '\\' || (c == '$' && s.peek (i + 1) == '\x7b') then i
    else templateWithin s fuel (i + 1)

/-- The end of a character class of a regular expression from inside it. -/
def classWithin (s : Source) : Nat → Nat → Option Nat
  | 0, _ => none
  | fuel + 1, i =>
    let c := s.peek i
    if s.atEnd i || c == '\n' then none
    else if c == ']' then some (i + 1)
    else if c == '\\' then
      if s.atEnd (i + 1) || s.peek (i + 1) == '\n' then none else classWithin s fuel (i + 2)
    else classWithin s fuel (i + 1)

/-- The closing slash of a regular expression from inside it. -/
def regexWithin (s : Source) : Nat → Nat → Option Nat
  | 0, _ => none
  | fuel + 1, i =>
    let c := s.peek i
    if s.atEnd i || c == '\n' then none
    else if c == '/' then some i
    else if c == '[' then
      match classWithin s fuel (i + 1) with
      | some j => regexWithin s fuel j
      | none => none
    else if c == '\\' then
      if s.atEnd (i + 1) || s.peek (i + 1) == '\n' then none else regexWithin s fuel (i + 2)
    else regexWithin s fuel (i + 1)

/-- The end of the regular expression, with its flags, that starts at a place, if one does. -/
def regexEnd (s : Source) (i : Nat) : Option Nat :=
  if s.peek i != '/' then none
  else
    match regexWithin s (s.size + 1 - i) (i + 1) with
    | some j =>
      if j == i + 1 then none
      else some (s.skipWhile (fun c => 'a' ≤ c && c ≤ 'z') (j + 1))
    | none => none

/-! ## Markup -/

/-- The end of the text of an element. Line ends and the blanks behind them are no text by
themselves. -/
def markupTextEnd (s : Source) (i : Nat) : Option Nat :=
  let j := s.skipWhile (fun c => !"<>\x7b\x7d&".toList.contains c) i
  let text := (s.chars.extract i j).toList
  let (_, saw) := text.foldl
    (fun (atLine, saw) c =>
      if c == '\n' then (true, saw)
      else if atLine && isPlainBlank c then (true, saw)
      else (false, true))
    (false, false)
  if saw then some j else none

/-- The end of a character reference, if one stands here. -/
def entityEnd (s : Source) (i : Nat) : Option Nat :=
  let closed (start most : Nat) (p : Char → Bool) : Option Nat :=
    let j := s.skipWhile p start
    if start < j && j - start ≤ most && s.peek j == ';' then some (j + 1) else none
  if s.peek i != '&' then none
  else if s.peek (i + 1) == '#' then
    if s.peek (i + 2) == 'x' || s.peek (i + 2) == 'X' then closed (i + 3) 6 isHexDigit
    else closed (i + 2) 5 Char.isDigit
  else closed (i + 1) 30 Char.isAlpha

/-- The end of the value of an attribute from inside its quotes. An ampersand before a letter
or a number sign must start a character reference. -/
def attributeWithin (s : Source) (q : Char) : Nat → Nat → Option Nat
  | 0, _ => none
  | fuel + 1, i =>
    let c := s.peek i
    if s.atEnd i then none
    else if c == q then some (i + 1)
    else if c == '&' then
      match entityEnd s i with
      | some j => attributeWithin s q fuel j
      | none =>
        let next := s.peek (i + 1)
        if next == '#' || next.isAlpha || s.atEnd (i + 1) then none
        else attributeWithin s q fuel (i + 2)
    else attributeWithin s q fuel (i + 1)

/-- The end of a name in markup, where dashes may continue a word. -/
def markupNameEnd (s : Source) (i : Nat) : Nat :=
  let j := wordEnd s i
  let k := s.skipWhile (fun c => c.isAlphanum || c == '_' || c == '$') i
  if i < j && j == k && s.peek k == '-' then
    s.skipWhile (fun c => c.isAlphanum || c == '_' || c == '$' || c == '-') k
  else j

/-! ## Terminals -/

/-- A gap before a lexeme. -/
inductive Gap where
  /-- Anywhere but behind an expression. -/
  | plain
  /-- Where a statement may have ended, but not behind an expression. -/
  | within
  /-- Behind an expression, at which the statement may end if `ends` is set. -/
  | behind (ends : Bool)
  /-- Behind a type, at which the statement may end if `ends` is set. -/
  | behindType (ends : Bool)
  deriving DecidableEq, Repr

/-- The lexemes of the grammar. -/
inductive Terminal where
  /-- Skips to the next lexeme, unless the statement ends before it. -/
  | gap (kind : Gap)
  /-- A keyword. -/
  | word (spelling : String)
  /-- An operator or punctuation, as the longest one at its place. -/
  | sign (spelling : String)
  /-- Exactly this text, also where a longer operator starts. -/
  | exactly (spelling : String)
  /-- A word that is used as a name, except the given ones. -/
  | identifier (except : List String)
  /-- Any word, as the name of a property. -/
  | propertyName
  | privateName
  /-- A word with a value of its own. -/
  | constant (spelling : String)
  | number
  | string
  | regex
  | templateText
  | templateEscape
  | markupText
  | entity
  | markupName
  | attributeValue
  /-- A semicolon, or a place at which a statement ends without one. -/
  | semicolon (behind : Bool)
  /-- The same behind the head of a function. -/
  | signatureEnd
  /-- A first line that names an interpreter. -/
  | hashBang
  /-- The end of the text. -/
  | finish
  deriving Repr

/-- Skips to the next lexeme. The comments are given last one first. -/
def skipGap (d : Dialect) (s : Source) (kind : Gap) :
    Nat → List (ParseTree Kind) → Place → Option (List (ParseTree Kind) × Place)
  | 0, _, _ => none
  | fuel + 1, comments, p =>
    let (ended, markup) : Bool × Bool := match kind with
      | .plain => (false, true)
      | .within => (endsStatement d s false false p.pos, false)
      | .behind ends => (ends && endsStatement d s true false p.pos, false)
      | .behindType ends => (ends && endsStatement d s false false p.pos, false)
    if ended then none
    else
      match skipComment s markup p with
      | some (c, q) => skipGap d s kind fuel (c :: comments) q
      | none => some (comments, p.moveTo s (s.skipWhile isBlank p.pos))

def gapAt (d : Dialect) (s : Source) (kind : Gap) (p : Place) :
    Option (List (ParseTree Kind) × Place) :=
  skipGap d s kind (s.size + 1) [] p

/-- A semicolon, or the end of a statement without one, past comments that come before it. -/
def findSemicolon (d : Dialect) (s : Source) (behind signature : Bool) :
    Nat → List (ParseTree Kind) → Place → Option (Lexeme Kind Unit)
  | 0, _, _ => none
  | fuel + 1, comments, p =>
    if endsStatement d s behind signature p.pos then
      some { comments := comments.reverse, next := p }
    else
      match skipComment s false p with
      | some (c, q) => findSemicolon d s behind signature fuel (c :: comments) q
      | none =>
        let q := p.moveTo s (s.skipWhile isBlank p.pos)
        if s.peek q.pos == ';' then
          some
            { comments := comments.reverse
              leaf := some (.leaf .mark .anonymous q.row ";")
              next := q.moveTo s (q.pos + 1) }
        else none

/-- A leaf from a place up to `j`, after a gap with the given comments. -/
def leafTo (s : Source) (k : Kind) (r : Role) (comments : List (ParseTree Kind)) (p : Place)
    (j : Nat) : Lexeme Kind Unit :=
  { comments := comments.reverse
    leaf := some (.leaf k r p.row (s.slice p.pos j))
    next := p.moveTo s j }

/-- The lexeme that a terminal stands for, at a place. -/
def scan (d : Dialect) (t : Terminal) (s : Source) (p : Place) : Option (Lexeme Kind Unit) :=
  match t with
  | .gap kind => do
    let (comments, q) ← gapAt d s kind p
    return { comments := comments.reverse, next := q }
  | .word w => do
    let (comments, q) ← gapAt d s .plain p
    let j := wordEnd s q.pos
    guard (s.slice q.pos j == w)
    return leafTo s .mark .anonymous comments q j
  | .sign w => do
    let (comments, q) ← gapAt d s .plain p
    guard (!s.atEnd q.pos && operatorAt s q.pos == w)
    return leafTo s .mark .anonymous comments q (q.pos + w.length)
  | .exactly w => do
    let (comments, q) ← gapAt d s .plain p
    guard (s.startsAt q.pos w)
    return leafTo s .mark .anonymous comments q (q.pos + w.length)
  | .identifier except => do
    let (comments, q) ← gapAt d s .plain p
    let j := wordEnd s q.pos
    guard (q.pos < j && !except.contains (s.slice q.pos j))
    return leafTo s .identifier .named comments q j
  | .propertyName => do
    let (comments, q) ← gapAt d s .plain p
    let j := wordEnd s q.pos
    guard (q.pos < j)
    return leafTo s .propertyIdentifier .named comments q j
  | .privateName => do
    let (comments, q) ← gapAt d s .plain p
    guard (s.peek q.pos == '#')
    let j := wordEnd s (q.pos + 1)
    guard (q.pos + 1 < j)
    return leafTo s .privateIdentifier .named comments q j
  | .constant w => do
    let (comments, q) ← gapAt d s .plain p
    let j := wordEnd s q.pos
    guard (s.slice q.pos j == w)
    return leafTo s .other .named comments q j
  | .number => do
    let (comments, q) ← gapAt d s .plain p
    let j ← numberEnd s q.pos
    return leafTo s .number .named comments q j
  | .string => do
    let (comments, q) ← gapAt d s .plain p
    let j ← stringEnd s q.pos
    return leafTo s .string .named comments q j
  | .regex => do
    let (comments, q) ← gapAt d s .plain p
    let j ← regexEnd s q.pos
    return leafTo s .other .named comments q j
  | .templateText => do
    let j := templateWithin s (s.size + 1 - p.pos) p.pos
    guard (p.pos < j)
    return { next := p.moveTo s j }
  | .templateEscape => do
    guard (s.peek p.pos == '\\')
    let j ← escapeEnd s p.pos
    return { next := p.moveTo s j }
  | .markupText => do
    let j ← markupTextEnd s p.pos
    return { leaf := some (.leaf .other .named p.row ""), next := p.moveTo s j }
  | .entity => do
    let (comments, q) ← gapAt d s .plain p
    let j ← entityEnd s q.pos
    return leafTo s .other .named comments q j
  | .markupName => do
    let (comments, q) ← gapAt d s .plain p
    let j := markupNameEnd s q.pos
    guard (q.pos < j)
    return leafTo s .other .named comments q j
  | .attributeValue => do
    let (comments, q) ← gapAt d s .plain p
    let quote := s.peek q.pos
    guard (quote == '"' || quote == '\'')
    let j ← attributeWithin s quote (s.size + 1 - q.pos) (q.pos + 1)
    return leafTo s .other .named comments q j
  | .semicolon behind => findSemicolon d s behind false (s.size + 1) [] p
  | .signatureEnd => findSemicolon d s false true (s.size + 1) [] p
  | .hashBang => do
    guard (s.startsAt p.pos "#!")
    let j := s.skipWhile (· != '\n') p.pos
    return { leaf := some (.leaf .other .named p.row ""), next := p.moveTo s j }
  | .finish => do
    let (comments, q) ← gapAt d s .plain p
    guard (s.atEnd q.pos)
    return { comments := comments.reverse, next := q }

/-- The spelling of the lexeme that starts at a place: a word, the longest operator, a double
quote for any string, a number sign for a private name and a zero for any number. -/
def spelling (s : Source) (i : Nat) : String :=
  if s.atEnd i then ""
  else
    let j := wordEnd s i
    if i < j then s.slice i j
    else if (numberEnd s i).isSome then "0"
    else if s.peek i == '\'' then "\""
    else operatorAt s i

end DocGate.Script

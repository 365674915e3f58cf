/-
DocGate.Python.Lexeme — lexemes of Python.

Python marks its blocks by indentation, so which lexeme comes next depends on the margin
of the next line and on what the grammar can use at this place. Where no mark is due,
blanks, line ends and comments are skipped and an ordinary lexeme is read.

String literals are read piece by piece, because a formatted string holds expressions.
The delimiters of the literals around a place are part of the lexical memory.

* `Layout` — what is remembered between lexemes: the margins of the open blocks, and the
  open literals.
* `Site` — what the grammar can use at a place besides ordinary lexemes.
* `margin`, `markAt` — the margin of the next line, and the mark (`newline`, `indent`,
  `dedent`) that is due. Marks take no room in the text.
* `Terminal`, `scan` — what the grammar can ask for, and the lexeme that answers; `none`
  if there is none at the place.
-/
import DocGate.Grammar.Rule
import DocGate.Text.Identifier

namespace DocGate.Python

open DocGate.Grammar DocGate.Text

/-- The kinds of nodes that the analyses of a Python file tell apart. -/
inductive Kind where
  | module
  | functionDefinition
  | block
  | ifStatement
  | elifClause
  | forStatement
  | whileStatement
  | exceptClause
  | withStatement
  | conditionalExpression
  | booleanOperation
  | call
  | expressionStatement
  | string
  | concatenatedString
  | identifier
  | attribute
  | subscript
  | comment
  /-- Punctuation, an operator or a keyword. -/
  | mark
  /-- Any other construct. -/
  | other
  deriving DecidableEq, Repr, Inhabited

/-! ## Lexical memory -/

/-- How a string literal was opened, and so how it is closed and what it may hold. -/
structure Delimiter where
  quote : Char
  triple : Bool
  format : Bool
  raw : Bool
  bytes : Bool
  deriving DecidableEq, Repr

/-- What is remembered between lexemes. -/
structure Layout where
  /-- The margins of the open blocks, the innermost first. -/
  margins : List Nat := [0]
  /-- The open string literals, the innermost first. -/
  strings : List Delimiter := []
  /-- Whether the literal opened last, and not closed since, is a formatted one. -/
  formatting : Bool := false
  deriving Repr

abbrev Place := Cursor Layout

/-- What the grammar can use at a place besides ordinary lexemes. -/
structure Site where
  newline : Bool := false
  indent : Bool := false
  dedent : Bool := false
  /-- A closing bracket could come next. -/
  close : Bool := false
  /-- A string literal could come next. -/
  string : Bool := false
  deriving DecidableEq, Repr

/-- The site behind the colon of a compound statement. -/
def Site.suite : Site := { newline := true, indent := true, string := true }

/-- A mark without extent that stands for layout. -/
inductive Mark where
  | newline
  | indent (column : Nat)
  | dedent
  deriving DecidableEq, Repr

/-! ## Margins -/

/-- What lies between a place and the next lexeme. -/
structure Margin where
  /-- A line end was passed, or the end of the text reached. -/
  ended : Bool := false
  /-- The column of the next lexeme on its line; a tab is worth eight columns. -/
  column : Nat := 0
  /-- The column of the first comment on a line of its own. -/
  comment : Option Nat := none
  /-- Where the next lexeme starts. -/
  stop : Nat := 0

/-- The end of the line that the place is on. -/
def lineEnd (s : Source) (i : Nat) : Nat := s.skipWhile (· != '\n') i

/-- Measures the margin from a place on. Comments are passed when `layout` is set. The answer
is `none` when something other than blanks decides what comes next: a comment behind a lexeme,
or a backslash that continues no line. -/
def marginWithin (s : Source) (layout : Bool) : Nat → Nat → Margin → Option Margin
  | 0, _, _ => none
  | fuel + 1, i, m =>
    if s.atEnd i then some { m with ended := true, column := 0, stop := i }
    else
      match s.peek i with
      | '\n' => marginWithin s layout fuel (i + 1) { m with ended := true, column := 0 }
      | ' ' => marginWithin s layout fuel (i + 1) { m with column := m.column + 1 }
      | '\r' => marginWithin s layout fuel (i + 1) { m with column := 0 }
      | '\x0c' => marginWithin s layout fuel (i + 1) { m with column := 0 }
      | '\t' => marginWithin s layout fuel (i + 1) { m with column := m.column + 8 }
      | '#' =>
        if !layout then some { m with stop := i }
        else if !m.ended then none
        else
          let first := m.comment.getD m.column
          marginWithin s layout fuel (lineEnd s i + 1) { m with column := 0, comment := some first }
      | '\\' =>
        let j := if s.peek (i + 1) == '\r' then i + 2 else i + 1
        if s.atEnd j then some { m with ended := true, column := 0, stop := j }
        else if s.peek j == '\n' then marginWithin s layout fuel (j + 1) m
        else none
      | _ => some { m with stop := i }

/-- The margin at a place. -/
def margin (s : Source) (layout : Bool) (i : Nat) : Option Margin :=
  marginWithin s layout (s.size + 2 - i) i {}

/-- The mark that is due at a place, if one is. A dedent is due as soon as the line is left of
the block and no comment of the block is still to come, also where the grammar has no use for
it, except between brackets and in formatted strings. -/
def markAt (s : Source) (site : Site) (p : Place) : Option Mark :=
  match margin s (site.newline || site.indent || site.dedent) p.pos with
  | none => none
  | some m =>
    if !m.ended then none
    else
      let current := p.memory.margins.headD 0
      let quoteNext := ['"', '\'', '\x60'].contains (s.peek m.stop)
      let dedents :=
        site.dedent || (!site.newline && !(site.string && quoteNext) && !site.close)
      if site.indent && current < m.column then some (.indent m.column)
      else if dedents && m.column < current && !p.memory.formatting
          && (m.comment.all fun c => c < current) then some .dedent
      else if site.newline then some .newline
      else none

/-! ## Gaps between lexemes -/

def isBlank (c : Char) : Bool :=
  ('\t' ≤ c && c ≤ '\r') || c == ' ' || c == '\uFEFF' || c == '\u2060' || c == '\u200B'

/-- Skips blanks, line ends and continued line ends. -/
def skipBlanksWithin (s : Source) : Nat → Nat → Nat
  | 0, i => i
  | fuel + 1, i =>
    if s.atEnd i then i
    else if isBlank (s.peek i) then skipBlanksWithin s fuel (i + 1)
    else if s.peek i == '\\' then
      let j := if s.peek (i + 1) == '\r' then i + 2 else i + 1
      if s.atEnd j then j
      else if s.peek j == '\n' then skipBlanksWithin s fuel (j + 1)
      else i
    else i

def skipBlanks (s : Source) (i : Nat) : Nat := skipBlanksWithin s (s.size + 1 - i) i

/-- Skips blanks and, if a comment comes next, the comment. -/
def skipComment (s : Source) (p : Place) : Option (ParseTree Kind × Place) :=
  let p := p.moveTo s (skipBlanks s p.pos)
  if !s.atEnd p.pos && s.peek p.pos == '#' then
    let q := p.moveTo s (lineEnd s p.pos)
    some (.leaf .comment .extra p.row (s.slice p.pos q.pos), q)
  else none

/-- Looks for a layout mark that satisfies `wanted`, past comments that come before it. The
comments are given last one first. -/
def findMark (s : Source) (site : Site) (wanted : Mark → Bool) :
    Nat → List (ParseTree Kind) → Place → Option (List (ParseTree Kind) × Mark × Place)
  | 0, _, _ => none
  | fuel + 1, comments, p =>
    match markAt s site p with
    | some m => if wanted m then some (comments, m, p) else none
    | none =>
      match skipComment s p with
      | some (c, q) => findMark s site wanted fuel (c :: comments) q
      | none => none

/-- Skips to the next ordinary lexeme. There is none when a layout mark is due first. The
comments are given last one first. -/
def skipGap (s : Source) (site : Site) :
    Nat → List (ParseTree Kind) → Place → Option (List (ParseTree Kind) × Place)
  | 0, _, _ => none
  | fuel + 1, comments, p =>
    match markAt s site p with
    | some _ => none
    | none =>
      match skipComment s p with
      | some (c, q) => skipGap s site fuel (c :: comments) q
      | none => some (comments, p.moveTo s (skipBlanks s p.pos))

/-! ## Words, numbers and operators -/

/-- The end of the word that starts at a place, which is the place itself if none does. -/
def wordEnd (s : Source) (i : Nat) : Nat :=
  if !s.atEnd i && isWordStart (s.peek i) then s.skipWhile isWordContinue (i + 1) else i

def isDigit (c : Char) : Bool := c.isDigit

/-- One or more groups of digits, each with at most one underscore behind it. -/
def digitsWithin (s : Source) (p : Char → Bool) : Nat → Nat → Nat
  | 0, i => i
  | fuel + 1, i =>
    let j := s.skipWhile p i
    if j == i then i
    else if s.peek j == '_' then digitsWithin s p fuel (j + 1)
    else j

def digitsEnd (s : Source) (i : Nat) : Nat := digitsWithin s isDigit (s.size + 1 - i) i

/-- The end of an exponent, if one starts here. -/
def exponentEnd (s : Source) (i : Nat) : Nat :=
  if s.peek i == 'e' || s.peek i == 'E' then
    let j := if s.peek (i + 1) == '+' || s.peek (i + 1) == '-' then i + 2 else i + 1
    let k := digitsEnd s j
    if k == j then i else k
  else i

/-- Digits of a base after its mark; an underscore may stand before a group. -/
def basedWithin (s : Source) (p : Char → Bool) : Nat → Nat → Nat
  | 0, i => i
  | fuel + 1, i =>
    let j := if s.peek i == '_' then i + 1 else i
    let k := s.skipWhile p j
    if k == j then i else basedWithin s p fuel k

def isHexDigit (c : Char) : Bool :=
  c.isDigit || ('a' ≤ c && c ≤ 'f') || ('A' ≤ c && c ≤ 'F')

/-- The end of an integer with a base mark, if one starts here. -/
def basedEnd (s : Source) (i : Nat) : Option Nat :=
  let digits (p : Char → Bool) : Option Nat :=
    let j := basedWithin s p (s.size + 1 - i) (i + 2)
    if j == i + 2 then none
    else if s.peek j == 'l' || s.peek j == 'L' then some (j + 1)
    else some j
  if s.peek i != '0' then none
  else
    match s.peek (i + 1) with
    | 'x' => digits isHexDigit
    | 'X' => digits isHexDigit
    | 'o' => digits fun c => '0' ≤ c && c ≤ '7'
    | 'O' => digits fun c => '0' ≤ c && c ≤ '7'
    | 'b' => digits fun c => c == '0' || c == '1'
    | 'B' => digits fun c => c == '0' || c == '1'
    | _ => none

/-- The end of the number that starts at a place, if one does. -/
def numberEnd (s : Source) (i : Nat) : Option Nat :=
  let imaginary (j : Nat) : Nat := if s.peek j == 'j' || s.peek j == 'J' then j + 1 else j
  match basedEnd s i with
  | some j => some j
  | none =>
    let j := digitsEnd s i
    if s.peek j == '.' then
      let k := digitsEnd s (j + 1)
      if j == i && k == j + 1 then none
      else some (imaginary (exponentEnd s k))
    else if j == i then none
    else
      let k := exponentEnd s j
      if k != j then some (imaginary k)
      else if s.peek j == 'l' || s.peek j == 'L' then some (j + 1)
      else some (imaginary j)

/-- Operators and punctuation of more than one character, longer ones first. -/
def longOperators : List String :=
  ["**=", "//=", ">>=", "<<=", "...",
   "->", ":=", "==", "!=", "<=", ">=", "<>", "**", "//", "<<", ">>",
   "+=", "-=", "*=", "/=", "%=", "@=", "&=", "|=", "^="]

/-- The longest operator or punctuation at a place; any other character stands for itself. -/
def operatorAt (s : Source) (i : Nat) : String :=
  (longOperators.find? (s.startsAt i)).getD (s.slice i (i + 1))

/-! ## String literals -/

/-- The opening of a string literal at a place, and the place behind it. -/
def openString (s : Source) (i : Nat) : Option (Delimiter × Nat) :=
  let j := s.skipWhile (fun c => "fFtTrRbBuU".toList.contains c) i
  let marks := (s.chars.extract i j).toList.map Char.toLower
  let q := s.peek j
  if s.atEnd j then none
  else if q == '\'' || q == '"' || q == '\x60' then
    let triple := q != '\x60' && s.peek (j + 1) == q && s.peek (j + 2) == q
    some
      ({ quote := q
         triple := triple
         format := marks.contains 'f' || marks.contains 't'
         raw := marks.contains 'r'
         bytes := marks.contains 'b' },
       if triple then j + 3 else j + 1)
  else none

/-- How far the escape sequence at a backslash reaches. Where none is formed the backslash
stands alone. -/
def escapeEnd (s : Source) (i : Nat) : Nat :=
  let hexadecimal (n : Nat) : Nat :=
    if (List.range n).all (fun k => isHexDigit (s.peek (i + 2 + k))) then i + 2 + n else i + 1
  let c := s.peek (i + 1)
  if ['\n', '\'', '"', '\\', 'a', 'b', 'f', 'r', 'n', 't', 'v'].contains c then i + 2
  else if c == '\r' && s.peek (i + 2) == '\n' then i + 3
  else if c == 'x' then hexadecimal 2
  else if c == 'u' then hexadecimal 4
  else if c == 'U' then hexadecimal 8
  else if c.isDigit then min (s.skipWhile Char.isDigit (i + 1)) (i + 4)
  else if c == 'N' && s.peek (i + 2) == '\x7b' then
    let j := s.skipWhile (· != '\x7d') (i + 3)
    if j == i + 3 || s.atEnd j then i + 1 else j + 1
  else i + 1

/-- One run of plain text of a literal from a place on, or its closing quotes: the place behind
it, and whether it closes the literal. There is none before an escape sequence or an expression
in braces, nor where a literal on one line meets the line end. In a raw literal a backslash is
plain text and takes a following quote, backslash or line end with it. -/
def plainPiece (s : Source) (d : Delimiter) : Nat → Bool → Nat → Option (Nat × Bool)
  | 0, _, _ => none
  | fuel + 1, content, i =>
    let stop : Option (Nat × Bool) := if content then some (i, false) else none
    let c := s.peek i
    if s.atEnd i || c == '\x00' then none
    else if (c == '\x7b' || c == '\x7d') && d.format then stop
    else if c == '\\' then
      if d.raw then
        let j := if s.peek (i + 1) == d.quote || s.peek (i + 1) == '\\' then i + 2 else i + 1
        let k :=
          if s.peek j == '\r' then (if s.peek (j + 1) == '\n' then j + 2 else j + 1)
          else if s.peek j == '\n' then j + 1
          else j
        plainPiece s d fuel content k
      else if d.bytes && ['N', 'u', 'U'].contains (s.peek (i + 1)) then
        plainPiece s d fuel true (i + 3)
      else stop
    else if c == d.quote then
      if d.triple then
        if s.peek (i + 1) == d.quote then
          if s.peek (i + 2) == d.quote then
            if content then some (i, false) else some (i + 3, true)
          else some (i + 2, false)
        else some (i + 1, false)
      else if content then some (i, false)
      else some (i + 1, true)
    else if c == '\n' && content && !d.triple then none
    else plainPiece s d fuel true (i + 1)

/-- The piece of the literal `d` at a place: a run of plain text, the closing quotes or an
escape sequence. In a formatted literal a doubled brace is a piece of its own. -/
def pieceAt (s : Source) (d : Delimiter) (i : Nat) : Option (Nat × Bool) :=
  let c := s.peek i
  if d.format && (c == '\x7b' || c == '\x7d') then
    if s.peek (i + 1) == c then some (i + 2, false) else none
  else
    match plainPiece s d (s.size + 1 - i) false i with
    | some r => some r
    | none => if c == '\\' then some (escapeEnd s i, false) else none

/-! ## Terminals -/

/-- The lexemes of the grammar. -/
inductive Terminal where
  /-- Skips to the next ordinary lexeme. -/
  | gap (site : Site)
  /-- A keyword. -/
  | word (spelling : String) (site : Site)
  /-- An operator or punctuation, as the longest one at its place. -/
  | sign (spelling : String) (site : Site)
  /-- Exactly this text, also where a longer operator starts. -/
  | exactly (spelling : String) (site : Site)
  /-- A word that is used as a name. -/
  | identifier (site : Site)
  /-- A word with a value of its own. -/
  | constant
  | number
  /-- A line end. Where an indent could come as well, the next line is not a deeper one. -/
  | newline (site : Site)
  | indent
  | dedent
  | openString
  | piece
  | closeString
  /-- The conversion of an expression in a formatted string. -/
  | conversion
  /-- Text of a format specification. -/
  | specification
  /-- The end of the text. -/
  | finish
  deriving Repr

/-- A leaf from a place up to `j`, after a gap with the given comments. -/
def leafTo (s : Source) (k : Kind) (r : Role) (comments : List (ParseTree Kind)) (p : Place)
    (j : Nat) : Lexeme Kind Layout :=
  { comments := comments.reverse
    leaf := some (.leaf k r p.row (s.slice p.pos j))
    next := p.moveTo s j }

def gapAt (s : Source) (site : Site) (p : Place) : Option (List (ParseTree Kind) × Place) :=
  skipGap s site (s.size + 1) [] p

/-- The lexeme that a terminal stands for, at a place. -/
def scan (t : Terminal) (s : Source) (p : Place) : Option (Lexeme Kind Layout) :=
  match t with
  | .gap site => do
    let (comments, q) ← gapAt s site p
    return { comments := comments.reverse, next := q }
  | .word w site => do
    let (comments, q) ← gapAt s site p
    let j := wordEnd s q.pos
    guard (s.slice q.pos j == w)
    return leafTo s .mark .anonymous comments q j
  | .sign w site => do
    let (comments, q) ← gapAt s site p
    guard (!s.atEnd q.pos && operatorAt s q.pos == w)
    return leafTo s .mark .anonymous comments q (q.pos + w.length)
  | .exactly w site => do
    let (comments, q) ← gapAt s site p
    guard (s.startsAt q.pos w)
    return leafTo s .mark .anonymous comments q (q.pos + w.length)
  | .identifier site => do
    let (comments, q) ← gapAt s site p
    let j := wordEnd s q.pos
    guard (q.pos < j)
    return leafTo s .identifier .named comments q j
  | .constant => do
    let (comments, q) ← gapAt s {} p
    let j := wordEnd s q.pos
    guard (q.pos < j)
    return leafTo s .other .named comments q j
  | .number => do
    let (comments, q) ← gapAt s {} p
    let j ← numberEnd s q.pos
    return leafTo s .other .named comments q j
  | .newline site => do
    let (comments, _, q) ← findMark s site (· == .newline) (s.size + 1) [] p
    return { comments := comments.reverse, next := q }
  | .indent => do
    let (comments, m, q) ← findMark s .suite (fun m => m matches .indent _) (s.size + 1) [] p
    match m with
    | .indent column =>
      let memory := { q.memory with margins := column :: q.memory.margins }
      return { comments := comments.reverse, next := { q with memory := memory } }
    | _ => none
  | .dedent => do
    let (comments, _, q) ←
      findMark s { dedent := true, string := true } (· == .dedent) (s.size + 1) [] p
    let memory := { q.memory with margins := q.memory.margins.tail }
    return { comments := comments.reverse, next := { q with memory := memory } }
  | .openString => do
    let (comments, q) ← gapAt s { string := true } p
    let (d, j) ← openString s q.pos
    let l := leafTo s .mark .anonymous comments q j
    let memory :=
      { l.next.memory with strings := d :: l.next.memory.strings, formatting := d.format }
    return { l with next := { l.next with memory := memory } }
  | .piece => do
    let d ← p.memory.strings.head?
    let (j, closes) ← pieceAt s d p.pos
    guard !closes
    return { next := p.moveTo s j }
  | .closeString => do
    let d ← p.memory.strings.head?
    let (j, closes) ← pieceAt s d p.pos
    guard closes
    let l := leafTo s .mark .anonymous [] p j
    let memory := { l.next.memory with strings := p.memory.strings.tail, formatting := false }
    return { l with next := { l.next with memory := memory } }
  | .conversion => do
    let (comments, q) ← gapAt s { close := true } p
    guard (s.peek q.pos == '!' && (let c := s.peek (q.pos + 1); 'a' ≤ c && c ≤ 'z'))
    return leafTo s .other .named comments q (q.pos + 2)
  | .specification => do
    let i := skipBlanks s p.pos
    let j := s.skipWhile (fun c => c != '\x7b' && c != '\x7d' && c != '\n') i
    guard (i < j)
    return { next := p.moveTo s j }
  | .finish => do
    let (comments, q) ← gapAt s {} p
    guard (s.atEnd q.pos)
    return { comments := comments.reverse, next := q }

/-- The spelling of the lexeme that starts at a place: a word, the longest operator, a quote for
any string literal and a zero for any number. -/
def spelling (s : Source) (i : Nat) : String :=
  if s.atEnd i then ""
  else if (openString s i).isSome then "'"
  else
    let j := wordEnd s i
    if i < j then s.slice i j
    else if (numberEnd s i).isSome then "0"
    else operatorAt s i

end DocGate.Python

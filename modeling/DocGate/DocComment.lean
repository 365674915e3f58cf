/-
DocGate.DocComment — documentation comments: what stands above a declaration documents
it, in a language without documentation strings.

A block comment that opens with two stars documents, and so does a line comment with
three slashes. Between the declaration and its documentation only blank lines and plain
comment lines may stand, and both the distance to the documentation and the length of a
block are limited.

* `classify` — what a line is to the search: documentation, the end of a block, a line
  that is passed over, or one that ends the search.
* `search?`, `blockDocuments?` — the search upwards from a declaration, at most `reach`
  lines, and the one for the opening of a block, at most `blockReach` lines.
* `precedes?` — whether documentation precedes the declaration on a line; `none` would
  say that a line is missing. `precedes` takes that for no.

Lines are looked at as texts: a mark counts wherever it stands in a line, be it code or
not. `DocGate.Proofs.DocComment.Search` shows that no line is ever missing, and
`DocGate.Proofs.DocComment.Block` what comes of looking at texts.
-/
import DocGate.Text.Blank

namespace DocGate.DocComment

/-- How many lines above a declaration are looked at. -/
def reach : Nat := 10

/-- How many lines above the line that closes a block its opening is looked for. -/
def blockReach : Nat := 20

/-- Whether `part` stands somewhere in `cs`. -/
def holds (part : List Char) : List Char → Bool
  | [] => part.isEmpty
  | c :: cs => part.isPrefixOf (c :: cs) || holds part cs

/-- What a line means to the search for documentation. -/
inductive LineClass where
  /-- Nothing that matters: a blank line, a plain line comment or the inside of a block. -/
  | passed
  /-- A documentation comment of its own. -/
  | documentation
  /-- The last line of a block comment. -/
  | blockEnd
  | code
  deriving DecidableEq, Repr

/-- The class of a line. -/
def classify (line : String) : LineClass :=
  let cs := (Text.trim line).toList
  if cs.isEmpty then .passed
  else if "///".toList.isPrefixOf cs then .documentation
  else if "*/".toList.isSuffixOf cs then .blockEnd
  else if "//".toList.isPrefixOf cs || "*".toList.isPrefixOf cs then .passed
  else .code

/-- Whether the nearest of the `fuel` lines before `i` that opens a block comment opens it as
documentation. There is no answer if a line is looked for that does not exist. -/
def blockDocuments? (lines : Array String) : (fuel i : Nat) → Option Bool
  | 0, _ => some false
  | _, 0 => some false
  | fuel + 1, i + 1 =>
    match lines[i]? with
    | none => none
    | some line =>
      if holds "/**".toList line.toList then some true
      else if holds "/*".toList line.toList then some false
      else blockDocuments? lines fuel i

/-- Whether documentation is found among the `fuel` lines before `i`, from the nearest on. -/
def search? (lines : Array String) : (fuel i : Nat) → Option Bool
  | 0, _ => some false
  | _, 0 => some false
  | fuel + 1, i + 1 =>
    match lines[i]? with
    | none => none
    | some line =>
      match classify line with
      | .passed => search? lines fuel i
      | .documentation => some true
      | .blockEnd => blockDocuments? lines (blockReach + 1) (i + 1)
      | .code => some false

/-- Whether the declaration on a line, counted from one, has documentation above it. A line past
the end stands behind all lines. -/
def precedes? (lines : Array String) (line : Nat) : Option Bool :=
  search? lines reach (min (line - 1) lines.size)

/-- The answer of `precedes?`, which is always there. -/
def precedes (lines : Array String) (line : Nat) : Bool := (precedes? lines line).getD false

end DocGate.DocComment

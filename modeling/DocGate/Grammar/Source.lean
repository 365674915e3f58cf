/-
DocGate.Grammar.Source — source text and cursors.

A source is an array of characters, so that a reader can look at any place in constant
time. A cursor is a place in it together with the row of that place and with what the
lexical rules of a language remember between lexemes.

* `Source.peek` — the character at a place; behind the end it is the character zero,
  which no lexeme has in it.
* `Source.skipWhile`, `Source.startsAt`, `Source.slice` — what lexical rules are made
  of.
* `Cursor.moveTo` — the cursor at another place; the row is counted along with the move,
  so it is right only for a place that is not in front.
-/
import DocGate.Grammar.ParseTree

namespace DocGate.Grammar

/-- The characters of a text. -/
structure Source where
  chars : Array Char

namespace Source

def ofString (s : String) : Source := ⟨s.toList.toArray⟩

def size (s : Source) : Nat := s.chars.size

/-- The character at a place, and NUL past the end. -/
def peek (s : Source) (i : Nat) : Char := s.chars.getD i '\x00'

def atEnd (s : Source) (i : Nat) : Bool := s.chars.size ≤ i

/-- The text from `i` up to `j`, without the character at `j`. -/
def slice (s : Source) (i j : Nat) : String :=
  String.ofList (s.chars.extract i j).toList

/-- Whether the characters `cs` stand at `i`. -/
def hasAt (s : Source) : Nat → List Char → Bool
  | _, [] => true
  | i, c :: cs => !s.atEnd i && s.peek i == c && s.hasAt (i + 1) cs

/-- Whether the text `t` stands at `i`. -/
def startsAt (s : Source) (i : Nat) (t : String) : Bool := s.hasAt i t.toList

/-- The first place at or after `i` whose character does not satisfy `p`, looking at no more
than `fuel` characters. -/
def skipWithin (s : Source) (p : Char → Bool) : Nat → Nat → Nat
  | 0, i => i
  | fuel + 1, i => if !s.atEnd i && p (s.peek i) then s.skipWithin p fuel (i + 1) else i

/-- The first place at or after `i` whose character does not satisfy `p`. -/
def skipWhile (s : Source) (p : Char → Bool) (i : Nat) : Nat :=
  s.skipWithin p (s.size - i) i

/-- The number of line feeds among the `n` characters from `i` on. -/
def lineFeeds (s : Source) : Nat → Nat → Nat → Nat
  | 0, _, found => found
  | n + 1, i, found => s.lineFeeds n (i + 1) (if s.peek i == '\n' then found + 1 else found)

end Source

/-- A place in a source, the row of that place, and the lexical memory `μ`. -/
structure Cursor (μ : Type) where
  pos : Nat
  row : Nat
  memory : μ

/-- The cursor further on in the same source. -/
def Cursor.moveTo {μ : Type} (c : Cursor μ) (s : Source) (pos : Nat) : Cursor μ :=
  { c with pos := pos, row := s.lineFeeds (pos - c.pos) c.pos c.row }

end DocGate.Grammar

/-
DocGate.Text.Lines — the lines of a text.

A line ends at a line feed, and a carriage return before the line feed belongs to the
line end. What is behind the last line feed is a line only if it is not empty, and keeps
all its characters.

* `lines` — the lines of a text without their ends.
* `linesOnto` — the lines behind those that are already there.

How lines are numbered is compared with the rows of a reader in
`DocGate.Proofs.Text.Rows`.
-/

namespace DocGate.Text

/-- A line, given last character first, without the carriage return of its end. -/
def dropReturn : List Char → List Char
  | '\r' :: cs => cs
  | cs => cs

/-- The lines of `cs` behind the lines `found`, the last of these first, if `line` is what the
current line holds so far, last character first. -/
def linesOnto (found : List String) (line : List Char) : List Char → List String
  | [] => (if line.isEmpty then found else String.ofList line.reverse :: found).reverse
  | '\n' :: cs => linesOnto (String.ofList (dropReturn line).reverse :: found) [] cs
  | c :: cs => linesOnto found (c :: line) cs

/-- The lines of a text. -/
def lines (s : String) : List String := linesOnto [] [] s.toList

end DocGate.Text

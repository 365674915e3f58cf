/-
DocGate.Json.Writer — writing JSON.

Values are written with two blanks for each level, a field or an item on a line. In a
string only the quote, the backslash and the characters below the blank are escaped.

* `Json.quoted` — a string with its quotes.
* `Json.renderAt`, `Json.render` — a value at a level, and at the outermost one. There
  is no line feed at the end.

What is written is a text of the value by the grammar of `DocGate.Proofs.Json.Grammar`,
as long as the numbers in it are numbers of the format.
-/
import DocGate.Json.Basic

namespace DocGate.Json

def hexDigit (n : Nat) : Char := if n < 10 then Char.ofNat (48 + n) else Char.ofNat (87 + n)

/-- A character inside a string. -/
def escapeChar (c : Char) : List Char :=
  match c with
  | '"' => ['\\', '"']
  | '\\' => ['\\', '\\']
  | '\n' => ['\\', 'n']
  | '\t' => ['\\', 't']
  | '\r' => ['\\', 'r']
  | '\x08' => ['\\', 'b']
  | '\x0c' => ['\\', 'f']
  | c =>
    if c < ' ' then ['\\', 'u', '0', '0', hexDigit (c.toNat / 16), hexDigit (c.toNat % 16)]
    else [c]

/-- A string with its quotes. -/
def quoted (s : String) : String := "\"" ++ String.ofList (s.toList.flatMap escapeChar) ++ "\""

/-- The blanks in front of a line at a level. -/
def indent (level : Nat) : String := String.ofList (List.replicate (2 * level) ' ')

mutual

/-- A value at a level. -/
def renderAt (level : Nat) : Json → String
  | .null => "null"
  | .bool b => if b then "true" else "false"
  | .number text => text
  | .string s => quoted s
  | .array [] => "[]"
  | .array (item :: items) =>
    "[\n" ++ indent (level + 1) ++ renderAt (level + 1) item ++ renderItems (level + 1) items
      ++ "\n" ++ indent level ++ "]"
  | .object [] => "\x7b\x7d"
  | .object (field :: fields) =>
    "\x7b\n" ++ indent (level + 1) ++ renderField (level + 1) field
      ++ renderFields (level + 1) fields ++ "\n" ++ indent level ++ "\x7d"

/-- The items behind the first one, each behind a comma. -/
def renderItems (level : Nat) : List Json → String
  | [] => ""
  | item :: items =>
    ",\n" ++ indent level ++ renderAt level item ++ renderItems level items

/-- A field of an object. -/
def renderField (level : Nat) : String × Json → String
  | (name, value) => quoted name ++ ": " ++ renderAt level value

/-- The fields behind the first one, each behind a comma. -/
def renderFields (level : Nat) : List (String × Json) → String
  | [] => ""
  | field :: fields =>
    ",\n" ++ indent level ++ renderField level field ++ renderFields level fields

end

/-- A value as a text of several lines. -/
def render (v : Json) : String := renderAt 0 v

end DocGate.Json

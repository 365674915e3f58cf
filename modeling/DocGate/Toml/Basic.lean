/-
DocGate.Toml.Basic — TOML values.

Settings are written in a flat part of TOML: keys with numbers, texts, truth values and
arrays of these. Dates and tables are not part of it, since no setting takes one.

* `Value`, `Document` — values, and a document as its keys with their values in order.
-/
import DocGate.Number.Binary64

namespace DocGate.Toml

/-- A value of a key. -/
inductive Value where
  | integer (n : Int)
  | float (x : Binary64)
  | string (s : String)
  | boolean (b : Bool)
  | array (items : List Value)
  deriving Repr, Inhabited

/-- The keys of a document with their values, in the order of the text. -/
abbrev Document := List (String × Value)

end DocGate.Toml

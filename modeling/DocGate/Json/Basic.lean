/-
DocGate.Json.Basic — JSON values.

A number is kept as its text, since what it is worth depends on who reads it. The fields
of an object are a list in their order, and `Json.field?` finds the first of a name.
-/

namespace DocGate

/-- A JSON value. The fields of an object stand in the order in which they are written. -/
inductive Json where
  | null
  | bool (value : Bool)
  | number (text : String)
  | string (value : String)
  | array (items : List Json)
  | object (fields : List (String × Json))
  deriving Repr, Inhabited

namespace Json

def nat (n : Nat) : Json := .number (toString n)

/-- The first field of an object with a name. -/
def field? (name : String) : Json → Option Json
  | .object fields => fields.lookup name
  | _ => none

end Json

end DocGate

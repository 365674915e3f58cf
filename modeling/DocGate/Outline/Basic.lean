/-
DocGate.Outline.Basic — what complexity is measured on.

An outline is a tree that keeps of a function only the constructs that make it harder to
follow, whatever language it was written in. Everything else is `Construct.other`, which
costs nothing and only holds its children together.

* `Construct` — what can cost something; `Construct.nests` are those that make what is
  inside them cost more.
* `Outline` — a construct with what is inside it.
* `Outline.listing`, `Outline.shape` — the constructs from top to bottom, each with the
  number of constructs around it, and the same as texts.
-/

namespace DocGate

/-- The constructs that complexity tells apart. -/
inductive Construct where
  /-- A branch of the control flow. -/
  | conditional
  | loop
  /-- A handler of exceptions. -/
  | handler
  /-- A scope that acquires and releases a resource. -/
  | resource
  /-- A chain of one boolean operator over so many operands. -/
  | chain (operands : Nat)
  /-- A conditional expression. -/
  | ternary
  /-- A call, with the name that it calls if that is a plain name. -/
  | call (callee : Option String)
  /-- Anything else. -/
  | other
  deriving DecidableEq, Repr

namespace Construct

/-- The construct in one or two words. -/
def label : Construct → String
  | conditional => "conditional"
  | loop => "loop"
  | handler => "handler"
  | resource => "resource"
  | chain n => "chain " ++ toString n
  | ternary => "ternary"
  | call none => "call"
  | call (some name) => "call " ++ name
  | other => "other"

/-- Whether the constructs inside are nested one level deeper. -/
def nests : Construct → Bool
  | conditional | loop | handler => true
  | _ => false

end Construct

/-- A construct with the constructs inside it. -/
inductive Outline where
  | node (construct : Construct) (children : List Outline)
  deriving Repr

namespace Outline

def construct : Outline → Construct
  | node k _ => k

def children : Outline → List Outline
  | node _ cs => cs

mutual

/-- The nodes other than `Construct.other`, each with the number of such nodes around it, a
parent before its children. -/
def listingFrom (depth : Nat) : Outline → List (Nat × Construct)
  | node .other cs => listingAll depth cs
  | node k cs => (depth, k) :: listingAll (depth + 1) cs

/-- The listings of several outlines, one after the other. -/
def listingAll (depth : Nat) : List Outline → List (Nat × Construct)
  | [] => []
  | c :: cs => c.listingFrom depth ++ listingAll depth cs

end

/-- The nodes other than `Construct.other` with their depths. -/
def listing (o : Outline) : List (Nat × Construct) := o.listingFrom 0

/-- The listing, a line for each node. -/
def shape (o : Outline) : List String :=
  o.listing.map fun (depth, k) => toString depth ++ " " ++ k.label

end Outline

end DocGate

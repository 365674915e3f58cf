/-
DocGate.Path — paths and their components.

A path is a text whose components stand between slashes. Repeated and trailing slashes
mean nothing, and neither does a component that stands for the current directory, except
in front. Two paths are the same if their components are.

* `Path.components`, `Path.same`, `Path.lt` — the components, and equality and order by
  them. Names are ordered by their bytes.
* `Path.fileName?`, `Path.extension?` — the last component, if it is a name, and what is
  behind its last dot, unless the dot is in front.
* `Path.join`, `Path.below?` — a path below another one, and what is left of a path
  below another one.
* `Path.displayFrom` — a path as a report shows it.

A path is a text, and so is a name. Names whose bytes are no text are outside this
library: there is no path to them, and a report shows none of them.
-/

namespace DocGate

/-- A path as it was written. -/
structure Path where
  text : String
  deriving DecidableEq, Repr, Inhabited

namespace Path

/-- A part of a path. -/
inductive Component where
  /-- The slash in front. -/
  | root
  /-- The current directory. -/
  | current
  /-- The directory above. -/
  | parent
  | normal (name : String)
  deriving DecidableEq, Repr

namespace Component

def text : Component → String
  | root => "/"
  | current => "."
  | parent => ".."
  | normal name => name

/-- The component that a name between slashes stands for. -/
def ofName (name : String) : Component := if name = ".." then .parent else .normal name

/-- Where a component stands in the order of paths: by kind, and names by their bytes. -/
def rank : Component → Nat
  | root => 0
  | current => 1
  | parent => 2
  | normal _ => 3

/-- The strict order of names by their bytes. -/
def bytesLt : List UInt8 → List UInt8 → Bool
  | _, [] => false
  | [], _ :: _ => true
  | a :: as, b :: bs => a < b || (a == b && bytesLt as bs)

/-- Whether a name comes before another, byte by byte. -/
def nameLt (a b : String) : Bool := bytesLt a.toUTF8.data.toList b.toUTF8.data.toList

def lt : Component → Component → Bool
  | normal a, normal b => nameLt a b
  | a, b => a.rank < b.rank

end Component

/-- The texts between slashes; `name` is what has been read of the first one, last character
first. -/
def splitOnto (name : List Char) : List Char → List String
  | [] => [String.ofList name.reverse]
  | '/' :: cs => String.ofList name.reverse :: splitOnto [] cs
  | c :: cs => splitOnto (c :: name) cs

/-- The texts between slashes. -/
def names (p : Path) : List String := splitOnto [] p.text.toList

/-- The names that lead somewhere: neither empty nor the current directory. -/
def locate (p : Path) : List String := p.names.filter fun n => n != "" && n != "."

/-- Whether the path starts at the root. -/
def isAbsolute (p : Path) : Bool := p.text.toList.head? == some '/'

/-- The components of a path. -/
def components (p : Path) : List Component :=
  let first : List Component :=
    if p.isAbsolute then [.root]
    else if p.names.head? == some "." then [.current]
    else []
  first ++ p.locate.map Component.ofName

/-- Whether two paths have the same components. -/
def same (p q : Path) : Bool := p.components == q.components

/-- The order of lists of components, first difference first. -/
def componentsLt : List Component → List Component → Bool
  | _, [] => false
  | [], _ :: _ => true
  | a :: as, b :: bs => a.lt b || (a == b && componentsLt as bs)

/-- The order of paths by components. -/
def lt (p q : Path) : Bool := componentsLt p.components q.components

/-- The last component, if it is a name. -/
def fileName? (p : Path) : Option String :=
  match p.components.getLast? with
  | some (.normal name) => some name
  | _ => none

/-- What stands behind the last dot of a file name, unless that dot is in front of it. -/
def extensionOf (name : String) : Option String :=
  let behind := name.toList.reverse.takeWhile (· != '.')
  let before := name.toList.reverse.drop (behind.length + 1)
  if before.isEmpty then none else some (String.ofList behind.reverse)

/-- The extension of the file name, without its dot. -/
def extension? (p : Path) : Option String := p.fileName?.bind extensionOf

/-- The path `q` seen from the directory `p`. -/
def join (p q : Path) : Path :=
  if q.isAbsolute then q
  else if p.text.isEmpty || p.text.toList.getLast? == some '/' then ⟨p.text ++ q.text⟩
  else ⟨p.text ++ "/" ++ q.text⟩

/-- The components of `p` below the directory `base`, if it is below it. -/
def below? (base p : Path) : Option (List Component) :=
  let b := base.components
  if b.isPrefixOf p.components then some (p.components.drop b.length) else none

/-- Components as a report shows them: joined by slashes, without the current directory. -/
def display (cs : List Component) : String :=
  let parts := (cs.filter (· != .current)).map fun c =>
    match c with
    | .root => ""
    | c => c.text
  let text := "/".intercalate parts
  if text.isEmpty then
    if cs.head? == some .root then "/" else "."
  else text

/-- A path as a report shows it, from `base` if it lies below it. -/
def displayFrom (base : Option Path) (p : Path) : String :=
  display ((base.bind fun b => b.below? p).getD p.components)

end Path

end DocGate

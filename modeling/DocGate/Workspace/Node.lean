/-
DocGate.Workspace.Node — trees of files.

A node is a file, a link to a path, or a directory of named nodes. A location is the
names that lead from a directory to a node without following any link.

* `Node`, `File` — nodes, and what a file has: its bytes, and whether it may be run and
  be read.
* `Location.relative`, `Location.absolute` — a location as a path.
* `Node.at?`, `Node.put`, `Node.erase` — the node at a location, and a tree with another
  one there or none.
* `Node.byName` — entries in the order of their names.
* `Node.leaves`, `Node.files` — what is no directory, and what is a file, with
  locations.

A directory is a list of entries, in which a name may occur twice or be no name of a
file. Trees as they are on a disk are told apart by `Node.WellFormed`, in
`DocGate.Proofs.Workspace.Tree`. Names whose bytes are no text, and directories that
exist but cannot be listed, are not among the nodes.
-/
import DocGate.Path

namespace DocGate

/-- A file. -/
structure File where
  content : List UInt8
  executable : Bool := false
  readable : Bool := true
  deriving DecidableEq, Repr

/-- A file, a link or a directory. -/
inductive Node where
  | file (f : File)
  | link (target : Path)
  | directory (entries : List (String × Node))
  deriving Repr, Inhabited

/-- The names that lead to a node. -/
abbrev Location := List String

namespace Location

/-- The path from the directory where the location starts. -/
def relative (l : Location) : Path := ⟨"/".intercalate l⟩

/-- The path from the root. -/
def absolute (l : Location) : Path := ⟨"/" ++ "/".intercalate l⟩

end Location

namespace Node

/-- A directory without entries. -/
def empty : Node := .directory []

/-- The entries of a directory; nothing else has any. -/
def entries : Node → List (String × Node)
  | directory es => es
  | _ => []

def isDirectory : Node → Bool
  | directory _ => true
  | _ => false

def isFile : Node → Bool
  | file _ => true
  | _ => false

/-- The entry of a directory with a name. -/
def child? (n : Node) (name : String) : Option Node := n.entries.lookup name

/-- The node at a location. -/
def at? : Node → Location → Option Node
  | n, [] => some n
  | n, name :: rest => (n.child? name).bind fun c => c.at? rest

/-- Gives an entry another node, or adds the entry. -/
def setEntry (name : String) (node : Node) : List (String × Node) → List (String × Node)
  | [] => [(name, node)]
  | e :: es => if e.1 == name then (name, node) :: es else e :: setEntry name node es

/-- Puts a node to a location. Directories that lead to it come into being. -/
def put : Node → Location → Node → Node
  | _, [], new => new
  | n, name :: rest, new =>
    .directory (setEntry name (((n.child? name).getD .empty).put rest new) n.entries)

/-- Takes away the node at a location. -/
def erase : Node → Location → Node
  | n, [] => n
  | n, [name] => .directory (n.entries.filter fun e => e.1 != name)
  | n, name :: rest =>
    match n.child? name with
    | some c => .directory (setEntry name (c.erase rest) n.entries)
    | none => n

/-- Values by name, in the order of the bytes of the names. -/
def byName {α : Type} (es : List (String × α)) : List (String × α) :=
  es.mergeSort fun a b => !Path.Component.nameLt b.1 a.1

mutual

/-- The files and links at or below a node, with their locations behind `here`. Entries of a
directory come in the order of their names. -/
def leavesFrom (here : Location) : Node → List (Location × Node)
  | .directory es => (byName (entryLeaves here es)).flatMap (·.2)
  | n => [(here, n)]

/-- The names of entries with the files and links at or below each of them. -/
def entryLeaves (here : Location) : List (String × Node) → List (String × List (Location × Node))
  | [] => []
  | e :: es => pairLeaves here e :: entryLeaves here es

/-- The name of an entry with the files and links at or below it. -/
def pairLeaves (here : Location) : String × Node → String × List (Location × Node)
  | (name, n) => (name, leavesFrom (here ++ [name]) n)

end

/-- The files and links at or below a node. -/
def leaves (n : Node) : List (Location × Node) := leavesFrom [] n

/-- The locations of the files at or below a node. -/
def files (n : Node) : List Location := (n.leaves.filter fun l => l.2.isFile).map (·.1)

end Node

end DocGate

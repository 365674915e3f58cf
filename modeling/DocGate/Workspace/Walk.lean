/-
DocGate.Workspace.Walk — walking a tree.

A walk finds the files that are not ignored. It does not look into directories with an
ignored component, because nothing below them would be kept, and it does not follow
links.

* `walkFrom` — the files from a location on, in the order of names at each level.
* `walk` — the files of a tree.

That a walk misses no file that is kept is proved in `DocGate.Proofs.Workspace.Walk`.
-/
import DocGate.IgnoreFilter
import DocGate.Workspace.Node

namespace DocGate.Node

mutual

/-- The files at or below a node that are kept, with their locations behind `here`. -/
def walkFrom (f : IgnoreFilter) (here : Location) : Node → List Location
  | .file _ => if f.includes here.relative then [here] else []
  | .link _ => []
  | .directory es =>
    if f.descends here.relative then (byName (entryWalks f here es)).flatMap (·.2) else []

/-- The names of entries with the files at or below each of them that are kept. -/
def entryWalks (f : IgnoreFilter) (here : Location) :
    List (String × Node) → List (String × List Location)
  | [] => []
  | e :: es => pairWalk f here e :: entryWalks f here es

/-- The name of an entry with the files at or below it that are kept. -/
def pairWalk (f : IgnoreFilter) (here : Location) : String × Node → String × List Location
  | (name, n) => (name, walkFrom f (here ++ [name]) n)

end

/-- The files below a directory that are kept. -/
def walk (f : IgnoreFilter) (n : Node) : List Location := walkFrom f [] n

end DocGate.Node

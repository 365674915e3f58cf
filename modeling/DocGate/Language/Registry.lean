/-
DocGate.Language.Registry — registries of languages.

A registry lists languages in the order of their registration and knows the owner of
each suffix: the first registered language that claims it.

* `Registry.register`, `Registry.ofList`, `Registry.ofKeys` — registries built up from
  nothing, from a list, and from the keys of settings, of which unknown ones are left
  out.
* `Registry.forSuffix?`, `Registry.forPath?` — the language of a suffix, and of a path
  by its extension.

Owners are places in the list. That both stay in step is proved in
`DocGate.Proofs.Language.Registry` and `DocGate.Proofs.Language.Ownership`.
-/
import Std.Data.HashMap
import DocGate.Language.Basic
import DocGate.Path

namespace DocGate

/-- Registered languages, with the place of the owner of each suffix among them. -/
structure Registry where
  languages : Array Language := #[]
  owners : Std.HashMap String Nat := {}

namespace Registry

def empty : Registry := {}

/-- Adds a language. Suffixes that have an owner keep it. -/
def register (r : Registry) (l : Language) : Registry where
  languages := r.languages.push l
  owners := l.suffixes.foldl (fun m s => m.insertIfNew s r.languages.size) r.owners

/-- The registry of the given languages. -/
def ofList (ls : List Language) : Registry := ls.foldl register empty

/-- All languages. -/
def full : Registry := ofList Language.all

/-- The languages that at least one of the keys enables. -/
def ofKeys (keys : List String) : Registry :=
  ofList (Language.all.filter fun l => keys.any l.hasKey)

/-- The owner of a suffix, which starts with a dot. -/
def forSuffix? (r : Registry) (suffix : String) : Option Language :=
  r.owners[suffix]?.bind fun i => r.languages[i]?

/-- The language of a file by the extension of its name. -/
def forPath? (r : Registry) (p : Path) : Option Language :=
  p.extension?.bind fun e => r.forSuffix? ("." ++ e)

end Registry

end DocGate

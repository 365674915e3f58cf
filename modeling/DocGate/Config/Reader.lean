/-
DocGate.Config.Reader — settings in a file.

A file of settings has a key for each setting that it gives. A key that is none of
these, or a value of another kind, makes the file malformed.

* `Settings.add` — one key with its value; a whole number is a target as well, a number
  with a point is no threshold.
* `Settings.read?` — the settings in a text. `none` says that the text is malformed and
  does not say where: the format is that of `DocGate.Toml`, and the texts of its errors
  are not part of this library.
-/
import DocGate.Config.Basic
import DocGate.Toml.Reader

namespace DocGate.Settings

/-- A threshold fits into a word of 32 bits. -/
def threshold? : Toml.Value → Option Nat
  | .integer n => if 0 ≤ n && n < UInt32.size then some n.toNat else none
  | _ => none

/-- A target may be written as an integer as well. -/
def target? : Toml.Value → Option Binary64
  | .float x => some x
  | .integer n => some (.ofRatio (n < 0) n.natAbs 1)
  | _ => none

def string? : Toml.Value → Option String
  | .string s => some s
  | _ => none

def strings? : Toml.Value → Option (List String)
  | .array items => items.mapM string?
  | _ => none

/-- Adds what an entry of a file gives. -/
def add (s : Settings) : String × Toml.Value → Option Settings
  | ("complexity_threshold", v) => (threshold? v).map fun n => { s with threshold := n }
  | ("target_coverage", v) => (target? v).map fun x => { s with target := x }
  | ("languages", v) => (strings? v).map fun l => { s with languages := l }
  | ("ignore", v) => (strings? v).map fun l => { s with ignore := l }
  | ("staged_languages", v) => (strings? v).map fun l => { s with stagedLanguages := l }
  | _ => none

/-- The settings that the text of a file gives. -/
def read? (text : String) : Option Settings := do (← Toml.read? text).foldlM add {}

end DocGate.Settings

/-
DocGate.Language.Basic — the languages whose functions can be found.

* `Language` — a closed list, with names in reports, keys in settings, and suffixes of
  files. No two languages share a suffix.
* `Language.hasKey` — whether a key means the language; letters of the first block may
  be in either case.
* `Language.units` — the functions of a text in the language, in the order in which they
  stand. A text that is no source of the language has none.
-/
import DocGate.Python.Units
import DocGate.Script.Units

namespace DocGate

/-- A language whose functions can be found. -/
inductive Language where
  | python
  | javaScript
  | typeScript
  /-- TypeScript with markup. -/
  | tsx
  deriving DecidableEq, Repr

namespace Language

/-- The languages in the order in which they are registered. -/
def all : List Language := [python, javaScript, typeScript, tsx]

def name : Language → String
  | python => "Python"
  | javaScript => "JavaScript"
  | typeScript => "TypeScript"
  | tsx => "TSX"

/-- The key by which a configuration enables the language. -/
def key : Language → String
  | python => "python"
  | javaScript => "javascript"
  | typeScript | tsx => "typescript"

/-- The suffixes of its files. -/
def suffixes : Language → List String
  | python => [".py", ".pyi"]
  | javaScript => [".js", ".jsx", ".mjs", ".cjs"]
  | typeScript => [".ts", ".mts", ".cts"]
  | tsx => [".tsx"]

/-- Whether two texts differ at most in the case of letters of the Latin alphabet. -/
def sameKey (a b : String) : Bool := a.toList.map Char.toLower == b.toList.map Char.toLower

/-- Whether a key enables the language. -/
def hasKey (l : Language) (key : String) : Bool := sameKey l.key key

/-- Whether a key enables some language. -/
def isKnownKey (key : String) : Bool := all.any fun l => l.hasKey key

/-- The units of a source in a language, in the order of their declarations; none if it has an
error. -/
def units : Language → String → List FunctionUnit
  | python => Python.units
  | javaScript => Script.units .javaScript
  | typeScript => Script.units .typeScript
  | tsx => Script.units .tsx

end Language

end DocGate

/-
DocGate.IgnoreFilter — which files are ignored.

An ignore pattern is a glob for whole paths. Besides, what is behind a leading `**/` is
a glob for the names of files, and what remains of it without any `**/` and `/**` is one
for every component of a path. A file is ignored if one of these matches; a directory is
skipped only if one of its components is ignored, because then everything below it is
ignored as well.

* `IgnorePattern.nameGlob?`, `IgnorePattern.componentGlob?` — what a pattern holds
  besides the glob for whole paths.
* `IgnoreFilter.ofPatterns` — the filter for a list of patterns, or the first pattern
  that does not compile, in one of its three forms.
* `IgnoreFilter.ignores`, `IgnoreFilter.descends` — whether a file is left out, and
  whether a directory is looked into.

A filter keeps lists of globs and asks one after the other. A library that joins them
into one automaton may refuse a list for its size, with an error for the combined
patterns. Lists that large are outside this library: here a filter fails only for a
pattern of its own.
-/
import DocGate.Glob.Matching
import DocGate.Glob.Reader
import DocGate.Path

namespace DocGate

/-- A pattern that does not compile: which one was configured, and what is wrong. -/
structure PatternError where
  pattern : String
  error : Glob.Error
  deriving DecidableEq, Repr

namespace IgnorePattern

/-- The pattern without any `**/`. -/
def dropLeading : List Char → List Char
  | '*' :: '*' :: '/' :: cs => dropLeading cs
  | c :: cs => c :: dropLeading cs
  | [] => []

/-- The pattern without any `/**`. -/
def dropTrailing : List Char → List Char
  | '/' :: '*' :: '*' :: cs => dropTrailing cs
  | c :: cs => c :: dropTrailing cs
  | [] => []

/-- What is left of a pattern for a component, if anything is. -/
def componentGlob? (pattern : String) : Option String :=
  let bare := dropTrailing (dropLeading pattern.toList)
  if bare.isEmpty then none else some (String.ofList bare)

/-- The glob for the names of files that a pattern holds, if it holds one. -/
def nameGlob? (pattern : String) : Option String :=
  match pattern.toList with
  | '*' :: '*' :: '/' :: cs => some (String.ofList cs)
  | _ => none

end IgnorePattern

/-- The compiled globs of a list of patterns. -/
structure IgnoreFilter where
  paths : List (List Glob.Token) := []
  names : List (List Glob.Token) := []
  components : List (List Glob.Token) := []

namespace IgnoreFilter

/-- A glob that came out of a pattern. -/
def compileFor (pattern glob : String) : Except PatternError (List Glob.Token) :=
  (Glob.compile glob).mapError fun e => ⟨pattern, e⟩

/-- A glob that came out of a pattern, if there is one. -/
def compileFor? (pattern : String) : Option String → Except PatternError (List (List Glob.Token))
  | some glob => (compileFor pattern glob).map fun ts => [ts]
  | none => .ok []

/-- Adds a pattern. -/
def add (f : IgnoreFilter) (pattern : String) : Except PatternError IgnoreFilter := do
  let path ← compileFor pattern pattern
  let name ← compileFor? pattern (IgnorePattern.nameGlob? pattern)
  let component ← compileFor? pattern (IgnorePattern.componentGlob? pattern)
  return ⟨f.paths ++ [path], f.names ++ name, f.components ++ component⟩

/-- The filter for a list of patterns. There is nothing to be built from the globs of the three
lists once each of them compiles. A library that makes one automaton of a list may find it too
large, and then fails for the "combined patterns"; a list of tokens has no such limit, so patterns
that large are outside this library. -/
def ofPatterns (patterns : List String) : Except PatternError IgnoreFilter :=
  patterns.foldlM add {}

/-- Whether some glob matches a text. -/
def anyMatch (globs : List (List Glob.Token)) (text : String) : Bool :=
  globs.any fun g => Glob.isMatch g text

/-- Whether a component of a path is ignored. -/
def hasIgnoredComponent (f : IgnoreFilter) (p : Path) : Bool :=
  p.components.any fun c =>
    match c with
    | .normal name => anyMatch f.components name
    | _ => false

/-- Whether a file is ignored. -/
def ignores (f : IgnoreFilter) (p : Path) : Bool :=
  anyMatch f.paths p.text
    || (match p.fileName? with
      | some name => anyMatch f.names name
      | none => false)
    || f.hasIgnoredComponent p

/-- Whether a file is kept. -/
def includes (f : IgnoreFilter) (p : Path) : Bool := !f.ignores p

/-- Whether to look into a directory. -/
def descends (f : IgnoreFilter) (p : Path) : Bool := !f.hasIgnoredComponent p

end IgnoreFilter

end DocGate

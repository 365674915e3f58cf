/-
DocGate.Scanner — what a scan finds.

A scanner looks at the source files of a workspace: at all below a directory, or at
those that are staged. Files without functions are not reported. What is wrong with one
file, be it that it cannot be read or that it is no valid source, makes it a file
without functions and touches no other file.

* `Scanner.ofConfig` — the scanner of some settings, or the pattern among them that does
  not compile.
* `Scanner.filesBelow`, `Scanner.scanAll` — the files below a directory that are not
  ignored, and the report on them. It fails only where the path leads to no directory.
* `Scanner.keepsStaged`, `Scanner.scanStaged` — which staged paths are looked at, and
  the report on them. Where there is no repository, or none that can be read, the report
  is empty.
* `Scanner.functionsOf` — the functions of one file.

In a scan of staged files the languages may be others than in a scan of all files
(`Config.stagedLanguages`).
-/
import DocGate.Config.Basic
import DocGate.Language.Registry
import DocGate.Report.Basic
import DocGate.Workspace.Basic
import DocGate.Workspace.Walk

namespace DocGate

/-- What a scan needs of its settings. -/
structure Scanner where
  /-- The languages to look at. -/
  registry : Registry
  /-- The languages to look at among staged files. -/
  stagedRegistry : Registry
  ignore : IgnoreFilter
  threshold : Nat

namespace Scanner

/-- The scanner with some settings. -/
def ofConfig (c : Config) : Except Problem Scanner :=
  match IgnoreFilter.ofPatterns c.ignore with
  | .ok ignore =>
    .ok
      { registry := .ofKeys c.languages
        stagedRegistry := .ofKeys c.stagedLanguages
        ignore := ignore
        threshold := c.threshold }
  | .error e => .error (.invalidPattern e)

/-- The functions of a file. -/
def functionsOf (w : Workspace) (registry : Registry) (path : Path) : List ScoredFunction :=
  match registry.forPath? path with
  | none => []
  | some language =>
    match w.readSource? path with
    | none => []
    | some source => (language.units source).map ScoredFunction.ofUnit

/-- The report on a file that is shown by the given name. -/
def reportOn (s : Scanner) (w : Workspace) (registry : Registry) (path : Path) (shown : String) :
    FileReport :=
  .check s.threshold shown (functionsOf w registry path)

/-- The report on one file, which may be an ignored one. -/
def scanFile (s : Scanner) (w : Workspace) (path : Path) : FileReport :=
  s.reportOn w s.registry path (path.displayFrom none)

/-- The report on files that are given from a directory. -/
def scanPaths (s : Scanner) (w : Workspace) (registry : Registry) (base : Path)
    (paths : List Path) : ScanReport :=
  ⟨(paths.map fun p => s.reportOn w registry (base.join p) (p.displayFrom none)).filter
    fun f => 0 < f.functionCount⟩

/-- The files below a directory that are not ignored. -/
def filesBelow (w : Workspace) (ignore : IgnoreFilter) (root : Path) :
    Except Problem (List Path) :=
  match w.find root with
  | .error fault => .error (.unreadable root fault)
  | .ok n =>
    if n.isDirectory then .ok ((n.walk ignore).map Location.relative)
    else .error (.rootNotDirectory root)

/-- The report on all files below a directory. -/
def scanAll (s : Scanner) (w : Workspace) (root : Path) : Except Problem ScanReport :=
  match filesBelow w s.ignore root with
  | .error p => .error p
  | .ok paths =>
    .ok (s.scanPaths w s.registry root (paths.filter fun p => (s.registry.forPath? p).isSome))

/-- Whether a staged file is looked at: if it still is a file, is not ignored, and has a
language. -/
def keepsStaged (s : Scanner) (w : Workspace) (base path : Path) : Bool :=
  w.hasFile (base.join path) && s.ignore.includes path && (s.stagedRegistry.forPath? path).isSome

/-- The report on the staged files of the repository that a directory belongs to. Without a
repository that can tell them, there are none. -/
def scanStaged (s : Scanner) (w : Workspace) (root : Path) : ScanReport :=
  match w.stagedFiles root with
  | .error _ => {}
  | .ok (l, paths) =>
    s.scanPaths w s.stagedRegistry l.absolute (paths.filter (s.keepsStaged w l.absolute))

end Scanner

end DocGate

/-
DocGate.Config.Basic — settings: which complexity needs documentation, which part of the
functions should be documented, which languages are looked at, and what is ignored.

* `Config` — all settings, and `Config.default` the defaults. `Settings` — those that a
  file gives; `Config.ofSettings` fills up the others.
* `Config.check` — the settings in the order in which they are looked at: threshold,
  target, patterns. The first that is wrong is the one that is told.
* `Config.validated` — the settings, if nothing is wrong with them.

A pattern is checked as a glob for whole paths and nothing more. That a checked pattern
need not compile for the scanner is the subject of
`DocGate.Proofs.Config.PatternAgreement`.
-/
import DocGate.Problem

namespace DocGate

/-- The settings of a scan. -/
structure Config where
  /-- A function that is more complex than this needs documentation. -/
  threshold : Nat := 10
  /-- The part of the functions that should be documented. -/
  target : Binary64 := .ofRatio false 9 10
  /-- The keys of the languages to look at. -/
  languages : List String := ["python", "javascript", "typescript"]
  ignore : List String :=
    ["**/test_*.py", "**/*.test.js", "**/migrations/**", "**/node_modules/**"]
  /-- The keys of the languages to look at among staged files. -/
  stagedLanguages : List String := ["python"]
  deriving DecidableEq, Repr

/-- The settings that someone gives. -/
structure Settings where
  threshold : Option Nat := none
  target : Option Binary64 := none
  languages : Option (List String) := none
  ignore : Option (List String) := none
  stagedLanguages : Option (List String) := none
  deriving DecidableEq, Repr

namespace Config

/-- The settings if no one gives any. -/
def default : Config := {}

/-- The given settings, and defaults for the others. Of a language that is listed twice the first
place counts. -/
def ofSettings (s : Settings) : Config where
  threshold := s.threshold.getD default.threshold
  target := s.target.getD default.target
  languages := (s.languages.map List.eraseDups).getD default.languages
  ignore := s.ignore.getD default.ignore
  stagedLanguages := (s.stagedLanguages.map List.eraseDups).getD default.stagedLanguages

/-- Whether the threshold is one of those allowed. -/
def hasValidThreshold (c : Config) : Bool := 1 ≤ c.threshold && c.threshold ≤ 20

/-- Whether the target is a part of a whole. -/
def hasValidTarget (c : Config) : Bool := c.target.isRatio

/-- Finds the first pattern that is no glob. -/
def checkPatterns : List String → Except Problem Unit
  | [] => .ok ()
  | p :: ps =>
    match Glob.compile p with
    | .ok _ => checkPatterns ps
    | .error e => .error (.invalidPattern ⟨p, e⟩)

/-- Finds out what is wrong with the settings: first the threshold, then the target, then the
patterns. -/
def check (c : Config) : Except Problem Unit :=
  if !c.hasValidThreshold then .error (.thresholdOutOfRange c.threshold)
  else if !c.hasValidTarget then .error (.targetOutOfRange c.target)
  else checkPatterns c.ignore

/-- The settings, if nothing is wrong with them. -/
def validated (c : Config) : Except Problem Config := c.check.map fun _ => c

/-- The settings with another threshold. -/
def withThreshold (c : Config) (threshold : Nat) : Config := { c with threshold }

end Config

end DocGate

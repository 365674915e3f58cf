/-
DocGate.CommandLine.Basic — invocations: what a user asks for. A check fails on
violations; a scan reports them and may demand that a part of all functions is
documented.

* `CommonOptions` — what every command knows: how much is shown, whether anything is
  printed, colours, and whether files of settings are left aside.
* `CheckOptions`, `ScanOptions` — the options of the two commands. Only a check has
  another threshold and looks at staged files; only a scan has a least coverage.
* `Invocation` — a command with the common options. How it is read from words is in
  `DocGate.CommandLine.Reader`, what it does in `DocGate.Run`.
-/
import DocGate.Number.Binary64
import DocGate.Path
import DocGate.Report.Format

namespace DocGate

/-- What holds for every command. -/
structure CommonOptions where
  verbosity : Nat := 0
  quiet : Bool := false
  /-- Use the default settings and read no file of settings. -/
  defaultsOnly : Bool := false
  colour : ColourChoice := .auto
  deriving DecidableEq, Repr

/-- How a check is to be made. -/
structure CheckOptions where
  path : Path := ⟨"."⟩
  /-- Look at staged files only. -/
  staged : Bool := false
  /-- The file of settings. -/
  config : Option Path := none
  /-- A threshold instead of the one in the settings. -/
  threshold : Option Nat := none
  format : ReportFormat := .text
  /-- The file to write the report to. -/
  output : Option Path := none
  deriving DecidableEq, Repr

/-- How a scan is to be made. -/
structure ScanOptions where
  path : Path := ⟨"."⟩
  /-- The file of settings. -/
  config : Option Path := none
  /-- The part of the functions that must be documented. -/
  failUnder : Option Binary64 := none
  format : ReportFormat := .text
  /-- The file to write the report to. -/
  output : Option Path := none
  deriving DecidableEq, Repr

/-- What is to be done. -/
inductive Command where
  | check (options : CheckOptions)
  | scan (options : ScanOptions)
  deriving DecidableEq, Repr

/-- A command and what holds for every command. -/
structure Invocation where
  common : CommonOptions := {}
  command : Command
  deriving DecidableEq, Repr

end DocGate

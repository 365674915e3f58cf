/-
DocGate.Run — carrying out a command.

A command has a verdict: the report, where it goes, and the exit code. Coming to a
verdict reads the workspace and changes nothing; only then the report is delivered.

* `Workspace.judge` — the verdict of a check (`judgeCheck`) or of a scan (`judgeScan`),
  or the problem that stands in the way.
* `Workspace.deliver` — the report is written to its file, or else printed (`print`)
  unless the command is to be quiet. A file that cannot be written is a problem.
* `Workspace.abort` — what a report that cannot be printed does. It is no problem that
  the command would come back with: the command is aborted, with the exit code of the
  runtime.
* `Workspace.run` — a command from its invocation to its `Outcome`.

The standard output takes everything or nothing (`Workspace.outputFault`). The error
output takes everything, and what the runtime itself says there of an aborted command is
not part of the outcome.

The exit code is the subject of `DocGate.Proofs.Run.ExitCode`, and the way to the
settings that of `DocGate.Proofs.Run.Settings`.
-/
import DocGate.CommandLine.Basic
import DocGate.Config.Loading
import DocGate.Report.Notice
import DocGate.Scanner

namespace DocGate

/-- What a command found. -/
structure Verdict where
  exitCode : Nat
  /-- The report in its format. -/
  report : String
  /-- The file that the report goes to, if it goes to one. -/
  destination : Option Path := none
  /-- What is said besides. -/
  remark : String := ""
  deriving DecidableEq, Repr

/-- What a command did. -/
structure Outcome where
  exitCode : Nat
  stdout : String := ""
  stderr : String := ""
  /-- Why the command failed. -/
  problem : Option Problem := none
  /-- What the command was aborted with, if it was aborted and has not returned. -/
  abortion : Option String := none
  /-- The workspace after the command. -/
  workspace : Workspace

/-- The exit code of a command that was aborted. -/
def Outcome.abortedCode : Nat := 101

namespace Problem

/-- The notice of a problem. -/
def notice (p : Problem) : Notice where
  title := if p.concernsSettings then "Configuration Error" else "Error"
  message := p.message
  detail := p.detail?
  suggestion :=
    if p.concernsSettings then
      some ("Check " ++ Config.localName.text ++ " or pass --no-config to use defaults")
    else none

end Problem

namespace Workspace

/-- What of the workspace decides which settings a command uses. -/
def surroundings (w : Workspace) : Surroundings where
  workingDirectory := some w.workingDirectory.absolute
  settingsDirectory := w.settingsDirectory.map Location.absolute
  hasFile := w.has
  readText := w.readText

/-- The settings of a command. -/
def loadConfig (w : Workspace) (named : Option Path) (defaultsOnly : Bool) :
    Except Problem Config :=
  Config.load w.surroundings named defaultsOnly

/-- The settings with another threshold, if one is given and valid. -/
def overrideThreshold (c : Config) : Option Nat → Except Problem Config
  | some threshold => (c.withThreshold threshold).validated
  | none => .ok c

/-- A report as a command shows it. -/
def showReport (common : CommonOptions) (format : ReportFormat) (c : Config) (r : ScanReport) :
    String :=
  format.render common.colour.shows { verbosity := common.verbosity, target := c.target } r

/-- A check fails on violations. -/
def judgeCheck (w : Workspace) (common : CommonOptions) (o : CheckOptions) :
    Except Problem Verdict := do
  let loaded ← w.loadConfig o.config common.defaultsOnly
  let c ← overrideThreshold loaded o.threshold
  let s ← Scanner.ofConfig c
  let r ← if o.staged then .ok (s.scanStaged w o.path) else s.scanAll w o.path
  return {
    exitCode := if r.hasViolations then 1 else 0
    report := showReport common o.format c r
    destination := o.output }

/-- Whether too few functions are documented. -/
def isBelow (r : ScanReport) : Option Binary64 → Bool
  | some least => r.coverage.lt least
  | none => false

/-- What is said about too few documented functions. -/
def shortfall (common : CommonOptions) (r : ScanReport) : Option Binary64 → String
  | some least =>
    if r.coverage.lt least && !common.quiet then
      "Coverage " ++ r.coverage.percent ++ "% is below --fail-under " ++ least.percent ++ "%\n"
    else ""
  | none => ""

/-- A scan fails only if too few functions are documented. -/
def judgeScan (w : Workspace) (common : CommonOptions) (o : ScanOptions) :
    Except Problem Verdict := do
  let c ← w.loadConfig o.config common.defaultsOnly
  let s ← Scanner.ofConfig c
  let r ← s.scanAll w o.path
  return {
    exitCode := if isBelow r o.failUnder then 1 else 0
    report := showReport common o.format c r
    destination := o.output
    remark := shortfall common r o.failUnder }

/-- What a command finds. -/
def judge (w : Workspace) (i : Invocation) : Except Problem Verdict :=
  match i.command with
  | .check o => w.judgeCheck i.common o
  | .scan o => w.judgeScan i.common o

/-- What a report that cannot be printed does: the command does not come back to say so. The
runtime tells of it, and the exit code is that of the runtime. -/
def abort (w : Workspace) (fault : FileFault) : Outcome where
  exitCode := Outcome.abortedCode
  abortion := some ("failed printing to stdout: " ++ fault.message)
  workspace := w

/-- Prints a report, unless the command is to be quiet. -/
def print (w : Workspace) (common : CommonOptions) (v : Verdict) : Outcome :=
  if common.quiet then { exitCode := v.exitCode, stderr := v.remark, workspace := w }
  else
    match w.outputFault with
    | some fault => w.abort fault
    | none =>
      { exitCode := v.exitCode, stdout := v.report, stderr := v.remark, workspace := w }

/-- Delivers a report, to its file or else to the standard output. A file that cannot be written
is a problem like others. -/
def deliver (w : Workspace) (common : CommonOptions) (v : Verdict) : Except Problem Outcome :=
  match v.destination with
  | some path =>
    match w.write path (Utf8.encode v.report) with
    | .ok w => .ok { exitCode := v.exitCode, stderr := v.remark, workspace := w }
    | .error fault => .error (.unwritable fault)
  | none => .ok (w.print common v)

/-- What a command does that fails. -/
def fail (w : Workspace) (common : CommonOptions) (p : Problem) : Outcome where
  exitCode := 2
  stderr := p.notice.render common.colour.shows
  problem := some p
  workspace := w

/-- Carries out a command. -/
def run (w : Workspace) (i : Invocation) : Outcome :=
  match w.judge i >>= w.deliver i.common with
  | .ok outcome => outcome
  | .error p => w.fail i.common p

end Workspace

end DocGate

/-
DocGate.Proofs.Run.ExitCode — the exit code of a check.

A check goes through steps: it loads settings, validates a threshold that is given,
makes a scanner, looks for the directory to scan, and delivers its report, to a file or
to the standard output.

* `Workspace.FailsAt` — a step fails, those in front of it having succeeded;
  `Workspace.ComesTo` — which report the check comes to before it is delivered.
* `Workspace.comesTo_or_failsAt`, `judgeCheck_of_comesTo`, `exists_judgeCheck_error` —
  one or the other is the case, and each decides what the check does.
* `exitCode_eq_two_iff`, `abortion_isSome_iff`, `exitCode_tells_iff` — when the exit
  code is two, when the check is aborted, and when the exit code tells of every step
  that fails.
* `exitCode_of_check` — the exit code. It is two exactly if a step has failed that is
  not the printing of the report; a failure in front of the delivery leaves output and
  workspace as they were. If no step has failed, it tells whether a function above the
  threshold has no documentation, and how the report is shown has no part in it.
* `aborts_of_fullOutput` — an empty directory and a standard output that is full: the
  report cannot be printed, and the exit code is not two.

A report that cannot be printed aborts the check (`Workspace.abort`), whereas one that
cannot be written to its file makes it fail. So the rule that a failed step makes the
exit code two holds exactly where that does not happen, which is the fourth part of the
main statement.

There are no hypotheses: every workspace, every way to show the report and every check
is covered.
-/
import DocGate.Proofs.Scanner.Reports
import DocGate.Run

namespace DocGate

/-- The steps of a check that may fail. -/
inductive CheckStep where
  | settings
  | threshold
  | scanner
  | root
  /-- The report is written to its file. -/
  | write
  /-- The report is printed. -/
  | print
  deriving DecidableEq, Repr

/-- Whether a step delivers the report. -/
def CheckStep.delivers : CheckStep → Bool
  | write | print => true
  | settings | threshold | scanner | root => false

namespace Workspace

/-- A check works with the settings that are loaded, and if a threshold is given, with that one
instead of theirs, if it makes valid settings. -/
def WorksWith (w : Workspace) (common : CommonOptions) (o : CheckOptions) (c : Config) : Prop :=
  ∃ loaded, w.loadConfig o.config common.defaultsOnly = .ok loaded ∧
    match o.threshold with
    | none => c = loaded
    | some threshold => c = loaded.withThreshold threshold ∧ c.check = .ok ()

/-- A check with some settings comes to a report. -/
def ComesTo (w : Workspace) (common : CommonOptions) (o : CheckOptions) (c : Config)
    (r : ScanReport) : Prop :=
  w.WorksWith common o c ∧ ∃ s, Scanner.ofConfig c = .ok s ∧
    if o.staged then s.scanStaged w o.path = r else s.scanAll w o.path = .ok r

/-- A step of a check fails when the steps in front of it have not. -/
inductive FailsAt (w : Workspace) (common : CommonOptions) (o : CheckOptions) :
    CheckStep → Prop where
  /-- There are no settings to be had. -/
  | settings {p : Problem} (load : w.loadConfig o.config common.defaultsOnly = .error p) :
      FailsAt w common o .settings
  /-- The given threshold makes the settings invalid. -/
  | threshold {loaded : Config} {threshold : Nat} {p : Problem}
      (load : w.loadConfig o.config common.defaultsOnly = .ok loaded)
      (given : o.threshold = some threshold)
      (invalid : (loaded.withThreshold threshold).check = .error p) :
      FailsAt w common o .threshold
  /-- The settings make no scanner. -/
  | scanner {c : Config} {p : Problem} (works : w.WorksWith common o c)
      (fails : Scanner.ofConfig c = .error p) : FailsAt w common o .scanner
  /-- All files are to be scanned and there is no directory of them. -/
  | root {c : Config} {s : Scanner} (works : w.WorksWith common o c)
      (made : Scanner.ofConfig c = .ok s) (full : o.staged = false)
      (missing : ∀ es, w.find o.path ≠ .ok (.directory es)) : FailsAt w common o .root
  /-- The report cannot be written to its file. -/
  | write {c : Config} {r : ScanReport} {path : Path} {fault : FileFault}
      (comes : w.ComesTo common o c r) (given : o.output = some path)
      (fails : w.write path (Utf8.encode (showReport common o.format c r)) = .error fault) :
      FailsAt w common o .write
  /-- The report is to be printed and the standard output takes nothing. -/
  | print {c : Config} {r : ScanReport} {fault : FileFault}
      (comes : w.ComesTo common o c r) (bare : o.output = none) (loud : common.quiet = false)
      (fails : w.outputFault = some fault) : FailsAt w common o .print

variable {w : Workspace} {common : CommonOptions} {o : CheckOptions} {c : Config}
  {r : ScanReport} {step : CheckStep}

/-! ## The steps of a check -/

theorem validated_eq_ok (h : c.check = .ok ()) : c.validated = .ok c := by
  rw [Config.validated, h]
  rfl

theorem validated_eq_error {p : Problem} (h : c.check = .error p) : c.validated = .error p := by
  rw [Config.validated, h]
  rfl

/-- Behind the first two steps a check works with some settings. -/
theorem WorksWith.loaded (h : w.WorksWith common o c) :
    ∃ loaded, w.loadConfig o.config common.defaultsOnly = .ok loaded ∧
      overrideThreshold loaded o.threshold = .ok c ∧
      c.threshold = o.threshold.getD loaded.threshold := by
  obtain ⟨loaded, hload, hc⟩ := h
  refine ⟨loaded, hload, ?_⟩
  cases ht : o.threshold with
  | none =>
    rw [ht] at hc
    subst hc
    exact ⟨rfl, rfl⟩
  | some threshold =>
    rw [ht] at hc
    obtain ⟨rfl, hvalid⟩ := hc
    exact ⟨validated_eq_ok hvalid, rfl⟩

/-- A check comes to a report, or a step in front of the last one fails. -/
theorem comesTo_or_failsAt (w : Workspace) (common : CommonOptions) (o : CheckOptions) :
    (∃ c r, w.ComesTo common o c r) ∨
      ∃ step, step.delivers = false ∧ w.FailsAt common o step := by
  -- the settings, as they are behind the first two steps
  have hsettings : (∃ c, w.WorksWith common o c) ∨
      ∃ step, step.delivers = false ∧ w.FailsAt common o step := by
    cases hload : w.loadConfig o.config common.defaultsOnly with
    | error p => exact Or.inr ⟨.settings, rfl, .settings hload⟩
    | ok loaded =>
      cases ht : o.threshold with
      | none => exact Or.inl ⟨loaded, loaded, hload, by rw [ht]⟩
      | some threshold =>
        cases hcheck : (loaded.withThreshold threshold).check with
        | error p => exact Or.inr ⟨.threshold, rfl, .threshold hload ht hcheck⟩
        | ok u => exact Or.inl ⟨_, loaded, hload, by rw [ht]; exact ⟨rfl, hcheck⟩⟩
  rcases hsettings with ⟨c, hworks⟩ | hfails
  · cases hs : Scanner.ofConfig c with
    | error p => exact Or.inr ⟨.scanner, rfl, .scanner hworks hs⟩
    | ok s =>
      cases hstaged : o.staged with
      | true => exact Or.inl ⟨c, s.scanStaged w o.path, hworks, s, hs, by simp [hstaged]⟩
      | false =>
        by_cases hroot : ∃ es, w.find o.path = .ok (.directory es)
        · obtain ⟨r, hr⟩ := (Scanner.scanAll_isOk_iff (s := s)).mpr hroot
          exact Or.inl ⟨c, r, hworks, s, hs, by simpa [hstaged] using hr⟩
        · refine Or.inr ⟨.root, rfl, .root hworks hs hstaged fun es hes => ?_⟩
          exact hroot ⟨es, hes⟩
  · exact Or.inr hfails

/-- The verdict of a check that comes to a report. -/
theorem judgeCheck_of_comesTo (h : w.ComesTo common o c r) :
    w.judgeCheck common o = .ok
      { exitCode := if r.hasViolations then 1 else 0
        report := showReport common o.format c r
        destination := o.output } := by
  obtain ⟨hworks, s, hs, hr⟩ := h
  obtain ⟨loaded, hload, hoverride, -⟩ := hworks.loaded
  simp only [judgeCheck, hload, hoverride, hs, bind, Except.bind]
  cases hstaged : o.staged with
  | true =>
    simp only [hstaged, if_true] at hr
    simp only [if_true, hr]
    rfl
  | false =>
    simp only [hstaged, Bool.false_eq_true, if_false] at hr
    simp only [Bool.false_eq_true, if_false, hr]
    rfl

/-- A check has no verdict if a step in front of the delivery fails. -/
theorem exists_judgeCheck_error (h : w.FailsAt common o step) (hstep : step.delivers = false) :
    ∃ p, w.judgeCheck common o = .error p := by
  cases h with
  | @settings p hload =>
    exact ⟨p, by simp only [judgeCheck, hload, bind, Except.bind]⟩
  | @threshold loaded threshold p hload hgiven hinvalid =>
    refine ⟨p, ?_⟩
    simp only [judgeCheck, hload, hgiven, overrideThreshold, validated_eq_error hinvalid, bind,
      Except.bind]
  | @scanner c p hworks hfails =>
    obtain ⟨loaded, hload, hoverride, -⟩ := hworks.loaded
    exact ⟨p, by simp only [judgeCheck, hload, hoverride, hfails, bind, Except.bind]⟩
  | @root c s hworks hmade hfull hmissing =>
    obtain ⟨loaded, hload, hoverride, -⟩ := hworks.loaded
    have hscan : ∃ p, s.scanAll w o.path = .error p := by
      rw [Scanner.scanAll_of_not_directory hmissing]
      split
      · exact ⟨_, rfl⟩
      · exact ⟨_, rfl⟩
    obtain ⟨p, hp⟩ := hscan
    refine ⟨p, ?_⟩
    simp only [judgeCheck, hload, hoverride, hmade, hfull, hp, bind, Except.bind,
      Bool.false_eq_true, if_false]
  | write => cases hstep
  | print => cases hstep

/-! ## What a check does -/

theorem run_of_judgeCheck_error {p : Problem} (h : w.judgeCheck common o = .error p) :
    w.run ⟨common, .check o⟩ = w.fail common p := by
  simp only [run, judge, h, bind, Except.bind]

/-- A step in front of the delivery that fails makes the exit code two, and nothing is said or
written. -/
theorem run_of_failsAt (h : w.FailsAt common o step) (hstep : step.delivers = false) :
    (w.run ⟨common, .check o⟩).exitCode = 2 ∧ (w.run ⟨common, .check o⟩).abortion = none ∧
      (w.run ⟨common, .check o⟩).stdout = "" ∧ (w.run ⟨common, .check o⟩).workspace = w := by
  obtain ⟨p, hp⟩ := exists_judgeCheck_error h hstep
  rw [run_of_judgeCheck_error hp]
  exact ⟨rfl, rfl, rfl, rfl⟩

/-- Writing the report is a step like those in front of it. -/
theorem run_of_failsAt_write (h : w.FailsAt common o .write) :
    (w.run ⟨common, .check o⟩).exitCode = 2 ∧ (w.run ⟨common, .check o⟩).abortion = none := by
  cases h with
  | write hcomes hgiven hfails =>
    simp only [run, judge, judgeCheck_of_comesTo hcomes, bind, Except.bind, deliver, hgiven,
      hfails, fail, and_self]

/-- Printing the report is not: the check does not come back. -/
theorem run_of_failsAt_print (h : w.FailsAt common o .print) :
    ∃ fault, w.outputFault = some fault ∧ w.run ⟨common, .check o⟩ = w.abort fault := by
  cases h with
  | @print c r fault hcomes hbare hloud hfails =>
    refine ⟨fault, hfails, ?_⟩
    simp only [run, judge, judgeCheck_of_comesTo hcomes, bind, Except.bind, deliver, hbare, print,
      hloud, hfails, Bool.false_eq_true, if_false]

theorem run_of_failsAt_of_ne (h : w.FailsAt common o step) (hne : step ≠ .print) :
    (w.run ⟨common, .check o⟩).exitCode = 2 ∧ (w.run ⟨common, .check o⟩).abortion = none := by
  cases step with
  | write => exact run_of_failsAt_write h
  | print => exact absurd rfl hne
  | _ =>
    have hrun := run_of_failsAt h rfl
    exact ⟨hrun.1, hrun.2.1⟩

/-- A step in front of the delivery does not look at how the report is shown. -/
theorem FailsAt.shownOtherwise (h : w.FailsAt common o step) (hstep : step.delivers = false)
    (verbosity : Nat) (quiet : Bool) (colour : ColourChoice) (format : ReportFormat)
    (output : Option Path) :
    w.FailsAt { common with verbosity, quiet, colour } { o with format, output } step := by
  cases h with
  | settings hload => exact .settings hload
  | threshold hload hgiven hinvalid => exact .threshold hload hgiven hinvalid
  | scanner hworks hfails => exact .scanner hworks hfails
  | root hworks hmade hfull hmissing => exact .root hworks hmade hfull hmissing
  | write => cases hstep
  | print => cases hstep

/-- What a check does that comes to a report and can deliver it. -/
theorem run_of_comesTo (h : w.ComesTo common o c r)
    (hdelivers : ∀ step, step.delivers → ¬ w.FailsAt common o step) :
    (w.run ⟨common, .check o⟩).exitCode = (if r.hasViolations then 1 else 0) ∧
      (w.run ⟨common, .check o⟩).abortion = none := by
  simp only [run, judge, judgeCheck_of_comesTo h, bind, Except.bind, deliver]
  cases hgiven : o.output with
  | some path =>
    cases hwrite : w.write path (Utf8.encode (showReport common o.format c r)) with
    | ok w' => simp only [hwrite, and_self]
    | error fault => exact absurd (.write h hgiven hwrite) (hdelivers .write rfl)
  | none =>
    cases hquiet : common.quiet with
    | true => simp only [print, hquiet, if_true, and_self]
    | false =>
      cases hfault : w.outputFault with
      | none => simp only [print, hquiet, hfault, Bool.false_eq_true, if_false, and_self]
      | some fault => exact absurd (.print h hgiven hquiet hfault) (hdelivers .print rfl)

/-- A report has violations if one of its functions is above the threshold of the settings and
has no documentation. -/
theorem ComesTo.hasViolations_iff (h : w.ComesTo common o c r) :
    r.hasViolations
      ↔ ∃ f ∈ r.files, ∃ g ∈ f.functions, c.threshold < g.complexity ∧ g.documented = false := by
  obtain ⟨-, s, hs, hr⟩ := h
  have hthreshold := (Scanner.ofConfig_eq_ok hs).2.2
  have hchecked : ∀ f ∈ r.files, f = .check s.threshold f.path f.functions := by
    intro f hf
    split at hr
    · subst hr
      exact (Scanner.of_mem_scanStaged hf).2
    · exact (Scanner.of_mem_scanAll hr hf).2
  rw [ScanReport.hasViolations_iff_exists hchecked, hthreshold]
  simp only [ScoredFunction.violates, Bool.and_eq_true, decide_eq_true_eq, Bool.not_eq_true']

/-- A check in which no step fails comes to a report and tells of its violations. -/
theorem exists_comesTo_of_not_failsAt (hnone : ¬ ∃ step, w.FailsAt common o step) :
    ∃ c r, w.ComesTo common o c r ∧
      (w.run ⟨common, .check o⟩).exitCode = if r.hasViolations then 1 else 0 := by
  rcases comesTo_or_failsAt w common o with ⟨c, r, h⟩ | ⟨step, -, h⟩
  · exact ⟨c, r, h, (run_of_comesTo h fun step _ hfails => hnone ⟨step, hfails⟩).1⟩
  · exact absurd ⟨step, h⟩ hnone

theorem exitCode_of_failsAt_print (h : w.FailsAt common o .print) :
    (w.run ⟨common, .check o⟩).exitCode = Outcome.abortedCode := by
  obtain ⟨fault, -, hrun⟩ := run_of_failsAt_print h
  rw [hrun]
  rfl

/-- Two is the exit code of a step that fails and lets the check come back. -/
theorem exitCode_eq_two_iff : (w.run ⟨common, .check o⟩).exitCode = 2
    ↔ ∃ step, step ≠ .print ∧ w.FailsAt common o step := by
  constructor
  · intro hcode
    by_cases hprint : w.FailsAt common o .print
    · rw [exitCode_of_failsAt_print hprint] at hcode
      cases hcode
    · refine Classical.byContradiction fun hnone => ?_
      obtain ⟨c, r, -, hexit⟩ := exists_comesTo_of_not_failsAt fun ⟨step, h⟩ =>
        hnone ⟨step, fun heq => hprint (heq ▸ h), h⟩
      rw [hexit] at hcode
      split at hcode <;> cases hcode
  · rintro ⟨step, hne, h⟩
    exact (run_of_failsAt_of_ne h hne).1

theorem abortion_eq_none (hprint : ¬ w.FailsAt common o .print) :
    (w.run ⟨common, .check o⟩).abortion = none := by
  rcases comesTo_or_failsAt w common o with ⟨c, r, h⟩ | ⟨step, hstep, h⟩
  · by_cases hwrite : w.FailsAt common o .write
    · exact (run_of_failsAt_write hwrite).2
    · refine (run_of_comesTo h fun step hstep => ?_).2
      cases step with
      | write => exact hwrite
      | print => exact hprint
      | _ => cases hstep
  · exact (run_of_failsAt h hstep).2.1

/-- Nothing but a report that cannot be printed aborts a check. -/
theorem abortion_isSome_iff :
    (w.run ⟨common, .check o⟩).abortion.isSome ↔ w.FailsAt common o .print := by
  constructor
  · intro habort
    refine Classical.byContradiction fun hprint => ?_
    rw [abortion_eq_none hprint] at habort
    cases habort
  · intro hprint
    obtain ⟨fault, -, hrun⟩ := run_of_failsAt_print hprint
    rw [hrun]
    rfl

/-- The exit code tells of every step that fails, unless the check is aborted. -/
theorem exitCode_tells_iff : ((w.run ⟨common, .check o⟩).exitCode = 2
      ↔ ∃ step, w.FailsAt common o step)
    ↔ ¬ w.FailsAt common o .print := by
  constructor
  · intro hiff hprint
    have hcode := hiff.mpr ⟨.print, hprint⟩
    rw [exitCode_of_failsAt_print hprint] at hcode
    cases hcode
  · intro hprint
    rw [exitCode_eq_two_iff]
    exact ⟨fun ⟨step, _, h⟩ => ⟨step, h⟩,
      fun ⟨step, h⟩ => ⟨step, fun heq => hprint (heq ▸ h), h⟩⟩

/-- Checks that can deliver what they come to have the same exit code, however they show it. -/
theorem exitCode_shownOtherwise (verbosity : Nat) (quiet : Bool) (colour : ColourChoice)
    (format : ReportFormat) (output : Option Path)
    (hout : ∀ step, step.delivers → ¬ w.FailsAt common o step)
    (hout' : ∀ step, step.delivers →
      ¬ w.FailsAt { common with verbosity, quiet, colour } { o with format, output } step) :
    (w.run ⟨{ common with verbosity, quiet, colour }, .check { o with format, output }⟩).exitCode
      = (w.run ⟨common, .check o⟩).exitCode := by
  rcases comesTo_or_failsAt w common o with ⟨c, r, h⟩ | ⟨step, hstep, h⟩
  · have h' : w.ComesTo { common with verbosity, quiet, colour } { o with format, output } c r :=
      h
    rw [(run_of_comesTo h hout).1, (run_of_comesTo h' hout').1]
  · have h' := h.shownOtherwise hstep verbosity quiet colour format output
    rw [(run_of_failsAt h hstep).1, (run_of_failsAt h' hstep).1]

/-- **The exit code of a check.** It is two exactly if a step fails other than printing the
report. A report that cannot be printed aborts the check instead, and nothing else does. So the
exit code tells whether a step fails exactly where that is not the case. Before the report is
delivered, nothing has been said or written. If no step fails, the exit code is one if the report
has a function above the threshold without documentation, and zero if it has none; the threshold
is the one that is given, or else that of the loaded settings. Checks that differ only in how
they show their report, and that can deliver it, have the same exit code. A check of staged files
where there is no repository to tell them has no violations. -/
theorem exitCode_of_check (w : Workspace) (common : CommonOptions) (o : CheckOptions) :
    ((w.run ⟨common, .check o⟩).exitCode = 2
      ↔ ∃ step, step ≠ .print ∧ w.FailsAt common o step) ∧
    ((w.run ⟨common, .check o⟩).abortion.isSome ↔ w.FailsAt common o .print) ∧
    (w.FailsAt common o .print → (w.run ⟨common, .check o⟩).exitCode = Outcome.abortedCode) ∧
    (((w.run ⟨common, .check o⟩).exitCode = 2 ↔ ∃ step, w.FailsAt common o step)
      ↔ ¬ w.FailsAt common o .print) ∧
    (∀ step, step.delivers = false → w.FailsAt common o step →
      (w.run ⟨common, .check o⟩).stdout = "" ∧ (w.run ⟨common, .check o⟩).workspace = w) ∧
    ((¬ ∃ step, w.FailsAt common o step) → ∃ loaded c r,
      w.loadConfig o.config common.defaultsOnly = .ok loaded ∧ w.ComesTo common o c r ∧
      c.threshold = o.threshold.getD loaded.threshold ∧
      ((∃ f ∈ r.files, ∃ g ∈ f.functions,
          o.threshold.getD loaded.threshold < g.complexity ∧ g.documented = false) →
        (w.run ⟨common, .check o⟩).exitCode = 1) ∧
      ((¬ ∃ f ∈ r.files, ∃ g ∈ f.functions,
          o.threshold.getD loaded.threshold < g.complexity ∧ g.documented = false) →
        (w.run ⟨common, .check o⟩).exitCode = 0)) ∧
    (∀ verbosity quiet colour format output,
      (∀ step, step.delivers → ¬ w.FailsAt common o step) →
      (∀ step, step.delivers →
        ¬ w.FailsAt { common with verbosity, quiet, colour } { o with format, output } step) →
      (w.run ⟨{ common with verbosity, quiet, colour }, .check { o with format, output }⟩).exitCode
        = (w.run ⟨common, .check o⟩).exitCode) ∧
    (∀ fault, o.staged → w.stagedFiles o.path = .error fault →
      (¬ ∃ step, w.FailsAt common o step) → (w.run ⟨common, .check o⟩).exitCode = 0) := by
  refine ⟨exitCode_eq_two_iff, abortion_isSome_iff, exitCode_of_failsAt_print,
    exitCode_tells_iff, ?_, ?_, exitCode_shownOtherwise, ?_⟩
  · intro step hstep h
    exact (run_of_failsAt h hstep).2.2
  · intro hnone
    obtain ⟨c, r, h, hexit⟩ := exists_comesTo_of_not_failsAt hnone
    obtain ⟨loaded, hload, -, hthreshold⟩ := h.1.loaded
    refine ⟨loaded, c, r, hload, h, hthreshold, ?_, ?_⟩
    · rw [← hthreshold, ← h.hasViolations_iff, hexit]
      intro hviolations
      rw [if_pos hviolations]
    · rw [← hthreshold, ← h.hasViolations_iff, hexit]
      intro hviolations
      rw [if_neg hviolations]
  · intro fault hstaged hnorepo hnone
    obtain ⟨c, r, ⟨-, s, -, hr⟩, hexit⟩ := exists_comesTo_of_not_failsAt hnone
    rw [if_pos hstaged, Scanner.scanStaged_of_error hnorepo] at hr
    rw [hexit, ← hr]
    rfl

/-- The defaults make a scanner. -/
theorem exists_scanner_of_default : ∃ s, Scanner.ofConfig .default = .ok s := by
  have hok : (Scanner.ofConfig .default).isOk := by decide +kernel
  cases hs : Scanner.ofConfig .default with
  | ok s => exact ⟨s, rfl⟩
  | error p => rw [hs] at hok; cases hok

/-- Where there is no directory, a check of all files fails and a check of staged files finds
nothing. -/
theorem exitCode_of_check_of_missing_directory :
    (run {} ⟨{ defaultsOnly := true }, .check { path := ⟨"missing"⟩ }⟩).exitCode = 2 ∧
      (run {} ⟨{ defaultsOnly := true },
        .check { path := ⟨"missing"⟩, staged := true }⟩).exitCode = 0 := by
  have hmissing : find {} ⟨"missing"⟩ = .error .missing := by
    have hnames : (⟨"missing"⟩ : Path).names = ["missing"] := by decide
    have hresolve : resolve {} ⟨"missing"⟩ = .error .missing := by
      rw [resolve_eq_follow (by decide), hnames, Node.follow_cons]
      rfl
    rw [find, hresolve]
  have hworks : ∀ staged, WorksWith {} { defaultsOnly := true } { path := ⟨"missing"⟩, staged }
      .default := fun staged => ⟨.default, rfl, rfl⟩
  obtain ⟨s, hs⟩ := exists_scanner_of_default
  constructor
  · refine (exitCode_of_check {} _ _).1.mpr ⟨.root, by decide, .root (hworks false) hs rfl ?_⟩
    simp [hmissing]
  · refine (exitCode_of_check {} _ _).2.2.2.2.2.2.2 .noDirectory rfl ?_ ?_
    · have hdiscover : discover {} ⟨"missing"⟩ = .error .noDirectory :=
        discover_of_not_directory (by simp [hmissing])
      simp only [stagedFiles, hdiscover, bind, Except.bind]
    · rintro ⟨step, hstep⟩
      cases hstep with
      | settings hload => cases hload
      | threshold hload hgiven hinvalid => cases hgiven
      | scanner hworks hfails =>
        obtain ⟨loaded, hload, rfl⟩ := hworks
        cases hload
        rw [hs] at hfails
        cases hfails
      | root hworks hmade hfull hmissing => cases hfull
      | write hcomes hgiven hfails => cases hgiven
      | print hcomes hbare hloud hfails => cases hfails

/-- A workspace without files whose standard output has no room left. -/
def withFullOutput : Workspace where
  outputFault := some (.other "No space left on device (os error 28)")

/-- The report of a check cannot be printed, and the exit code is not two. -/
theorem aborts_of_fullOutput :
    FailsAt withFullOutput { defaultsOnly := true } { path := ⟨"."⟩ } .print ∧
      (withFullOutput.run ⟨{ defaultsOnly := true }, .check { path := ⟨"."⟩ }⟩).exitCode = 101 ∧
      (withFullOutput.run ⟨{ defaultsOnly := true }, .check { path := ⟨"."⟩ }⟩).abortion
        = some "failed printing to stdout: No space left on device (os error 28)" ∧
      ¬ ∀ (w : Workspace) common o,
        (w.run ⟨common, .check o⟩).exitCode = 2 ↔ ∃ step, w.FailsAt common o step := by
  obtain ⟨s, hs⟩ := exists_scanner_of_default
  have hroot : withFullOutput.find ⟨"."⟩ = .ok (.directory []) :=
    find_eq_ok_iff.mpr ⟨[], resolve_here rfl rfl, rfl⟩
  obtain ⟨r, hr⟩ := (Scanner.scanAll_isOk_iff (s := s)).mpr ⟨[], hroot⟩
  have hprint : FailsAt withFullOutput { defaultsOnly := true } { path := ⟨"."⟩ } .print :=
    .print ⟨⟨.default, rfl, rfl⟩, s, hs, hr⟩ rfl rfl rfl
  obtain ⟨fault, hfault, hrun⟩ := run_of_failsAt_print hprint
  cases hfault
  refine ⟨hprint, by rw [hrun]; rfl, by rw [hrun]; rfl, fun hclaim => ?_⟩
  have hcode := (hclaim _ _ _).mpr ⟨.print, hprint⟩
  rw [hrun] at hcode
  cases hcode

end Workspace

end DocGate

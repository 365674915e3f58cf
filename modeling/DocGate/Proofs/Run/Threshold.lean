/-
DocGate.Proofs.Run.Threshold — commands under two thresholds.

The threshold has no part in which files a scan reports, nor in what they count. So it
decides on the exit code of a check by the violations alone, and on that of a scan not
at all.

* `undelivered?`, `exitCodeOf` — the exit code that a report which is not delivered
  leads to, and the exit code of a command by its report.
* `Workspace.exitCode_check`, `Workspace.exitCode_scan` — the exit codes of both
  commands in this form.
* `reports_and_exit_codes_of_raised_threshold` — what a higher threshold changes in
  reports and in exit codes. A check that passes still passes, and a scan has the same
  exit code.

The side condition is that only the threshold is raised (`Config.RaisesTo`). The two
commands may show their reports differently; only where the standard output takes
nothing must both or none of them be quiet, because a command that prints is aborted
there. How a command came to its threshold, by a file of settings or by an option, makes
no difference.
-/
import DocGate.Proofs.IgnoreFilter.Patterns
import DocGate.Proofs.Run.Settings
import DocGate.Proofs.Scanner.Threshold

namespace DocGate

namespace Workspace

/-- Whether a file can be written is not a question of what is written. -/
theorem write_isOk (w : Workspace) (p : Path) (content content' : List UInt8) :
    (w.write p content).isOk = (w.write p content').isOk := by
  unfold write
  split
  · rfl
  · split <;> rfl

/-- The exit code of a command that cannot deliver its report, if it cannot: a file that cannot be
written is a failure, and an output that takes nothing aborts the command. -/
def undelivered? (w : Workspace) (quiet : Bool) : Option Path → Option Nat
  | some p => if (w.write p []).isOk then none else some 2
  | none => if quiet then none else w.outputFault.map fun _ => Outcome.abortedCode

/-- The exit code of a command that comes to a report or fails before; `code` judges the
report. -/
def exitCodeOf (w : Workspace) (quiet : Bool) (destination : Option Path)
    (code : ScanReport → Nat) : Except Problem ScanReport → Nat
  | .error _ => 2
  | .ok r => (w.undelivered? quiet destination).getD (code r)

variable {w : Workspace} {c c' : Config}

theorem undelivered?_ne_zero (quiet : Bool) (destination : Option Path) :
    w.undelivered? quiet destination ≠ some 0 := by
  cases destination with
  | some p => rw [undelivered?]; split <;> simp
  | none => rw [undelivered?]; split <;> simp [Outcome.abortedCode]

/-- Whether a command is quiet matters only if the standard output takes nothing. -/
theorem undelivered?_congr {quiet quiet' : Bool} (h : w.outputFault.isSome → quiet' = quiet)
    (destination : Option Path) :
    w.undelivered? quiet' destination = w.undelivered? quiet destination := by
  cases hfault : w.outputFault with
  | some fault => rw [h (by rw [hfault]; rfl)]
  | none => cases destination <;> simp [undelivered?, hfault]

theorem exitCode_runUnder {i : Invocation} {x : Except Problem ScanReport}
    {destination : Option Path} (verdict : ScanReport → Verdict)
    (hjudge : w.judgeUnder c i = x.map verdict)
    (hdestination : ∀ r, (verdict r).destination = destination) :
    (w.runUnder c i).exitCode
      = w.exitCodeOf i.common.quiet destination (fun r => (verdict r).exitCode) x := by
  cases x with
  | error p => simp only [runUnder, hjudge, Except.map, bind, Except.bind, fail, exitCodeOf]
  | ok r =>
    simp only [runUnder, hjudge, Except.map, bind, Except.bind, deliver, hdestination, exitCodeOf,
      undelivered?]
    cases destination with
    | none =>
      cases hquiet : i.common.quiet with
      | true => simp [print, hquiet]
      | false => cases hfault : w.outputFault <;> simp [print, abort, hquiet, hfault]
    | some path =>
      simp only [write_isOk w path [] (Utf8.encode (verdict r).report)]
      cases w.write path (Utf8.encode (verdict r).report) with
      | ok w' => rfl
      | error fault => rfl

/-! ## The reports of the two commands -/

/-- The report that a command comes to under some settings. -/
def reportUnder (w : Workspace) (c : Config) (root : Path) (staged : Bool) :
    Except Problem ScanReport :=
  Scanner.ofConfig c >>= fun s =>
    if staged then .ok (s.scanStaged w root) else s.scanAll w root

theorem exitCode_check (w : Workspace) (c : Config) (common : CommonOptions) (o : CheckOptions) :
    (w.runUnder c ⟨common, .check o⟩).exitCode
      = w.exitCodeOf common.quiet o.output (fun r => if r.hasViolations then 1 else 0)
          (w.reportUnder c o.path o.staged) := by
  refine exitCode_runUnder (fun r =>
    { exitCode := if r.hasViolations then 1 else 0
      report := showReport common o.format c r
      destination := o.output }) ?_ fun r => rfl
  simp only [judgeUnder, reportUnder, bind, Except.bind]
  cases Scanner.ofConfig c with
  | error p => rfl
  | ok s =>
    cases hstaged : o.staged with
    | true => simp only [if_true, pure, Except.pure, Except.map]
    | false => cases hscan : s.scanAll w o.path <;> simp [pure, Except.pure, Except.map, hscan]

/-- A scan looks at all files. -/
theorem exitCode_scan (w : Workspace) (c : Config) (common : CommonOptions) (o : ScanOptions) :
    (w.runUnder c ⟨common, .scan o⟩).exitCode
      = w.exitCodeOf common.quiet o.output (fun r => if isBelow r o.failUnder then 1 else 0)
          (w.reportUnder c o.path false) := by
  refine exitCode_runUnder (fun r =>
    { exitCode := if isBelow r o.failUnder then 1 else 0
      report := showReport common o.format c r
      destination := o.output
      remark := shortfall common r o.failUnder }) ?_ fun r => rfl
  simp only [judgeUnder, reportUnder, bind, Except.bind]
  cases Scanner.ofConfig c with
  | error p => rfl
  | ok s => cases hscan : s.scanAll w o.path <;> simp [pure, Except.pure, Except.map, hscan]

/-! ## Two thresholds -/

open Scanner (RelaxesTo)

theorem reportUnder_relaxesTo (h : c.RaisesTo c') (w : Workspace) (root : Path) (staged : Bool) :
    RelaxesTo (w.reportUnder c root staged) (w.reportUnder c' root staged) := by
  obtain ⟨threshold, hle, rfl⟩ := h
  rw [reportUnder, reportUnder, Scanner.ofConfig_withThreshold]
  cases hs : Scanner.ofConfig c with
  | error p => exact .failure p
  | ok s =>
    have hthreshold : s.threshold ≤ threshold := by
      rwa [(Scanner.ofConfig_eq_ok hs).2.2]
    cases staged with
    | true => exact .report (Scanner.scanStaged_relaxesTo hthreshold w root)
    | false => exact Scanner.scanAll_relaxesTo hthreshold w root

/-- A check without violations has none under a higher threshold. -/
theorem exitCode_check_of_raisesTo (h : c.RaisesTo c') {common common' : CommonOptions}
    {o o' : CheckOptions} (hquiet : w.outputFault.isSome → common'.quiet = common.quiet)
    (hpath : o'.path = o.path) (hstaged : o'.staged = o.staged) (houtput : o'.output = o.output)
    (hzero : (w.runUnder c ⟨common, .check o⟩).exitCode = 0) :
    (w.runUnder c' ⟨common', .check o'⟩).exitCode = 0 := by
  rw [exitCode_check] at hzero ⊢
  rw [houtput, hpath, hstaged]
  have hreports := reportUnder_relaxesTo h w o.path o.staged
  generalize w.reportUnder c o.path o.staged = x, w.reportUnder c' o.path o.staged = x'
    at hreports hzero
  cases hreports with
  | failure p => cases hzero
  | @report r r' hrelaxes =>
    simp only [exitCodeOf, undelivered?_congr hquiet] at hzero ⊢
    cases hdeliver : w.undelivered? common.quiet o.output with
    | some code =>
      rw [hdeliver, Option.getD_some] at hzero
      rw [hzero] at hdeliver
      exact absurd hdeliver (undelivered?_ne_zero _ _)
    | none =>
      cases hviolations : r'.hasViolations with
      | false => rfl
      | true => simp [hdeliver, hrelaxes.hasViolations hviolations] at hzero

/-- A scan judges by the coverage, on which the threshold has no bearing. -/
theorem exitCode_scan_of_raisesTo (h : c.RaisesTo c') {common common' : CommonOptions}
    {o o' : ScanOptions} (hquiet : w.outputFault.isSome → common'.quiet = common.quiet)
    (hpath : o'.path = o.path) (hunder : o'.failUnder = o.failUnder)
    (houtput : o'.output = o.output) :
    (w.runUnder c' ⟨common', .scan o'⟩).exitCode
      = (w.runUnder c ⟨common, .scan o⟩).exitCode := by
  rw [exitCode_scan, exitCode_scan, houtput, hunder, hpath]
  have hreports := reportUnder_relaxesTo h w o.path false
  generalize w.reportUnder c o.path false = x, w.reportUnder c' o.path false = x' at hreports
  cases hreports with
  | failure p => rfl
  | @report r r' hrelaxes =>
    have hbelow : isBelow r' o.failUnder = isBelow r o.failUnder := by
      cases o.failUnder with
      | none => rfl
      | some least => simp only [isBelow, hrelaxes.coverage]
    simp only [exitCodeOf, undelivered?_congr hquiet, hbelow]

/-- **A higher threshold.** Settings that differ only in their threshold make a scanner both or
neither, and their scans fail for the same reason or not at all. They report the same files with
the same functions and the same counts, and the violations of a file under the higher threshold
are some of those under the lower one. So a check that has the exit code zero under the lower
threshold has it under the higher one, and a scan has the same exit code under both; where the
standard output takes nothing, the two commands have to be both quiet or neither. This is so for
commands that work under these settings, which are all commands that come to them by files and
options. -/
theorem reports_and_exit_codes_of_raised_threshold {c c' : Config} (h : c.RaisesTo c') :
    (∀ p, Scanner.ofConfig c = .error p ↔ Scanner.ofConfig c' = .error p) ∧
    (∀ s s', Scanner.ofConfig c = .ok s → Scanner.ofConfig c' = .ok s' → ∀ w root,
      RelaxesTo (s.scanAll w root) (s'.scanAll w root) ∧
        (s.scanStaged w root).RelaxesTo (s'.scanStaged w root)) ∧
    (∀ (w : Workspace) common common' (o o' : CheckOptions),
      (w.outputFault.isSome → common'.quiet = common.quiet) →
      o'.path = o.path → o'.staged = o.staged → o'.output = o.output →
      (w.runUnder c ⟨common, .check o⟩).exitCode = 0 →
        (w.runUnder c' ⟨common', .check o'⟩).exitCode = 0) ∧
    (∀ (w : Workspace) common common' (o o' : ScanOptions),
      (w.outputFault.isSome → common'.quiet = common.quiet) →
      o'.path = o.path → o'.failUnder = o.failUnder → o'.output = o.output →
      (w.runUnder c' ⟨common', .scan o'⟩).exitCode
        = (w.runUnder c ⟨common, .scan o⟩).exitCode) ∧
    (∀ (w : Workspace) i, ∀ d ∈ [c, c'],
      i.settingsWith Settings.read? w.surroundings = .ok d → w.run i = w.runUnder d i) := by
  have hraises := h
  obtain ⟨threshold, hle, rfl⟩ := h
  have hmade := Scanner.ofConfig_withThreshold c threshold
  refine ⟨?_, ?_, ?_, ?_, ?_⟩
  · intro p
    rw [hmade]
    cases Scanner.ofConfig c <;> simp [Except.map]
  · intro s s' hs hs' w root
    rw [hmade, hs] at hs'
    cases hs'
    have hthreshold : s.threshold ≤ threshold := by
      rwa [(Scanner.ofConfig_eq_ok hs).2.2]
    exact ⟨Scanner.scanAll_relaxesTo hthreshold w root,
      Scanner.scanStaged_relaxesTo hthreshold w root⟩
  · intro w common common' o o' hquiet hpath hstaged houtput
    exact exitCode_check_of_raisesTo hraises hquiet hpath hstaged houtput
  · intro w common common' o o' hquiet hpath hunder houtput
    exact exitCode_scan_of_raisesTo hraises hquiet hpath hunder houtput
  · intro w i d _ hsettings
    rw [run_eq_runWith, runWith_of_ok w hsettings]

/-- A source with one function, which is one step too complex for the threshold one and has no
documentation. -/
def branchingSource : File where
  content := Utf8.encode "def f(a, b): return a and b or a\n"

/-- Where such a file is staged, its function decides on the violations. -/
theorem hasViolations_of_branchingSource {s : Scanner}
    (hlanguages : s.stagedRegistry = .ofKeys ["python"]) (hignore : s.ignore = {}) :
    (s.scanStaged (halfStaged branchingSource) ⟨"."⟩).hasViolations
      = decide (s.threshold < 2) := by
  have hrepo : (halfStaged branchingSource).discover ⟨"."⟩
      = .ok ([], .oneStaged ["pkg", "a.py"]) := (oneStaged_here _ _).2
  have hpath : (Location.absolute []).join (Location.relative ["pkg", "a.py"])
      = ⟨"/pkg/a.py"⟩ := by decide
  have hfind : (halfStaged branchingSource).find ⟨"/pkg/a.py"⟩ = .ok (.file branchingSource) := by
    rw [← hpath]
    exact find_join (resolve_absolute (by simp) rfl) (by simp) (by decide) rfl (by simp)
  have hlanguage : ∀ p : Path, p.extension? = some "py" →
      (Registry.ofKeys ["python"]).forPath? p = some .python := by
    intro p hp
    rw [Registry.forPath?_ofKeys_eq_some_iff]
    exact ⟨by decide, "py", hp, by decide⟩
  have hfunctions : Scanner.functionsOf (halfStaged branchingSource) s.stagedRegistry
      ⟨"/pkg/a.py"⟩ = [⟨"f", 1, 2, false⟩] := by
    simp only [Scanner.functionsOf, hlanguages, hlanguage ⟨"/pkg/a.py"⟩ (by decide),
      readSource?_eq_some_iff.mpr ⟨_, hfind, rfl, rfl⟩]
    decide +kernel
  have hkeeps : s.keepsStaged (halfStaged branchingSource) (Location.absolute [])
      (Location.relative ["pkg", "a.py"]) := by
    rw [Scanner.keepsStaged, hpath, hasFile_iff.mpr ⟨_, hfind⟩, hlanguages,
      hlanguage _ (by decide), hignore, IgnoreFilter.includes, IgnoreFilter.ignores_empty]
    rfl
  rw [Scanner.scanStaged_of_staged hrepo (Repository.staged_oneStaged _),
    List.filter_cons_of_pos hkeeps, List.filter_nil]
  simp only [Scanner.scanPaths, hpath, Scanner.reportOn, hfunctions, List.map_cons, List.map_nil]
  by_cases hthreshold : s.threshold < 2 <;>
    simp [FileReport.check, FileReport.flaggedFrom, FileReport.functionCount,
      ScoredFunction.violates, ScanReport.hasViolations, FileReport.hasViolations, hthreshold]

/-- The exit codes of a check of the staged files where such a file is staged, and a scan that
has the same exit code whatever the threshold. -/
theorem exit_codes_of_branchingSource :
    let w := halfStaged branchingSource
    let check threshold := (w.runUnder (Config.forPython.withThreshold threshold)
      ⟨{}, .check { path := ⟨"."⟩, staged := true }⟩).exitCode
    let scan threshold := (w.runUnder (Config.forPython.withThreshold threshold)
      ⟨{}, .scan { path := ⟨"."⟩, failUnder := some .one }⟩).exitCode
    check 1 = 1 ∧ check 2 = 0 ∧ check 3 = 0 ∧ scan 3 = scan 2 := by
  intro w check scan
  have hdelivers : w.undelivered? false none = none := rfl
  have hcheck : ∀ threshold, check threshold = if threshold < 2 then 1 else 0 := by
    intro threshold
    have hviolations := hasViolations_of_branchingSource
      (s := { Scanner.forPython with threshold := threshold }) rfl rfl
    simp only [check, exitCode_check, reportUnder, Scanner.ofConfig_withThreshold,
      Scanner.ofConfig_forPython, Except.map, bind, Except.bind, if_true, exitCodeOf, hdelivers,
      Option.getD_none, w, hviolations, decide_eq_true_eq]
  have hraises : ∀ c : Config, (c.withThreshold 2).RaisesTo (c.withThreshold 3) :=
    fun c => ⟨3, Nat.le_succ 2, rfl⟩
  obtain ⟨-, -, hchecks, hscans, -⟩ :=
    reports_and_exit_codes_of_raised_threshold (hraises .forPython)
  refine ⟨hcheck 1, hcheck 2, ?_, ?_⟩
  · exact hchecks w {} {} _ _ (fun _ => rfl) rfl rfl rfl (hcheck 2)
  · exact hscans w {} {} { path := ⟨"."⟩, failUnder := some .one }
      { path := ⟨"."⟩, failUnder := some .one } (fun _ => rfl) rfl rfl rfl

end Workspace

end DocGate

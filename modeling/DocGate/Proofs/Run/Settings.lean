/-
DocGate.Proofs.Run.Settings — the settings that a command works with.

* `Invocation.settingsWith`, `Workspace.runUnder` — a command first comes to its
  settings and then works with them.
* `Workspace.run_eq_runWith` — what else happens is a failure, so that a command is the
  one behind the other.
* `Config.ComeFrom` — settings come from the defaults or from one file; `Config.Gives` —
  that file alone decides what they are, or what is wrong with them.
* `Config.IsProper` — settings that are in range and whose patterns are globs.
* `settings_of_command` — where the settings come from, for each command; and neither
  the defaults nor a file nor another threshold brings about settings that are not
  proper.

How the text of a file is read is a parameter (`read`), so the results hold for every
format of settings.
-/
import DocGate.Proofs.Config.PatternAgreement
import DocGate.Proofs.Run.ExitCode

namespace DocGate

/-! ## Settings in range -/

/-- Settings in range: a threshold from 1 to 20, a target that is a number from zero to one, and
patterns that are globs. -/
structure Config.IsProper (c : Config) : Prop where
  threshold : 1 ≤ c.threshold ∧ c.threshold ≤ 20
  target : ∃ negative units, c.target = .finite negative units ∧
    0 ≤ Binary64.signedUnits negative units ∧
    Binary64.signedUnits negative units ≤ Binary64.unitsOfOne
  ignore : ∀ pattern ∈ c.ignore, ∃ tokens, Glob.compile pattern = .ok tokens

theorem Binary64.finite_of_isRatio {x : Binary64} (h : x.isRatio) :
    ∃ negative units, x = .finite negative units ∧ 0 ≤ signedUnits negative units ∧
      signedUnits negative units ≤ unitsOfOne := by
  rw [isRatio, Bool.and_eq_true] at h
  obtain ⟨hzero, hone⟩ := h
  cases x with
  | nan => cases hzero
  | infinite negative =>
    cases negative with
    | false => cases hone
    | true => cases hzero
  | finite negative units =>
    exact ⟨negative, units, rfl, of_decide_eq_true hzero, of_decide_eq_true hone⟩

namespace Config

/-- Settings with which nothing is wrong are in range. -/
theorem isProper_of_check {c : Config} (h : c.check = .ok ()) : c.IsProper := by
  rw [check] at h
  split at h
  · cases h
  · rename_i hthreshold
    split at h
    · cases h
    · rename_i htarget
      simp only [Bool.not_eq_true, Bool.not_eq_false'] at hthreshold htarget
      refine ⟨?_, Binary64.finite_of_isRatio htarget, ?_⟩
      · simpa [hasValidThreshold] using hthreshold
      · have hpatterns := checkPatterns_isOk c.ignore
        rw [h] at hpatterns
        intro pattern hpattern
        have hok := List.all_eq_true.mp hpatterns.symm pattern hpattern
        cases hcompile : Glob.compile pattern with
        | ok tokens => exact ⟨tokens, rfl⟩
        | error e => rw [hcompile] at hok; cases hok

theorem default_check : default.check = .ok () := by
  have hok : default.check.isOk := by decide +kernel
  cases h : default.check with
  | ok u => rfl
  | error p => rw [h] at hok; cases hok

/-! ## Where settings come from -/

/-- Where settings come from, of which a file may be named, and all files may be ruled out:
from a file, or else from the defaults. -/
inductive ComeFrom (s : Surroundings) : Option Path → Bool → Option Path → Prop where
  /-- Files are ruled out, even a named one. -/
  | defaultsOnly (named : Option Path) : ComeFrom s named true none
  | named (path : Path) : ComeFrom s (some path) false (some path)
  | localFile {dir : Path} (known : s.workingDirectory = some dir)
      (there : s.hasFile (dir.join localName)) :
      ComeFrom s none false (some (dir.join localName))
  /-- The file of the user counts where there is none in the working directory. -/
  | userFile {dir : Path}
      (noLocal : ∀ d, s.workingDirectory = some d → s.hasFile (d.join localName) = false)
      (known : s.settingsDirectory = some dir) (there : s.hasFile (dir.join userName)) :
      ComeFrom s none false (some (dir.join userName))
  | nowhere
      (noLocal : ∀ d, s.workingDirectory = some d → s.hasFile (d.join localName) = false)
      (noUser : ∀ d, s.settingsDirectory = some d → s.hasFile (d.join userName) = false) :
      ComeFrom s none false none

/-- What comes from there: settings, or what is wrong with the file. -/
inductive Gives (read : String → Option Settings) (s : Surroundings) :
    Option Path → Except Problem Config → Prop where
  | defaults : Gives read s none (.ok default)
  | unreadable {path : Path} {fault : FileFault} (fails : s.readText path = .error fault) :
      Gives read s (some path) (.error (.unreadable path fault))
  | malformed {path : Path} {text : String} (holds : s.readText path = .ok text)
      (fails : read text = none) : Gives read s (some path) (.error .malformedSettings)
  | invalid {path : Path} {text : String} {given : Settings} {p : Problem}
      (holds : s.readText path = .ok text) (reads : read text = some given)
      (fails : (ofSettings given).check = .error p) : Gives read s (some path) (.error p)
  | valid {path : Path} {text : String} {given : Settings}
      (holds : s.readText path = .ok text) (reads : read text = some given)
      (proper : (ofSettings given).check = .ok ()) :
      Gives read s (some path) (.ok (ofSettings given))

variable {read : String → Option Settings} {s : Surroundings} {named : Option Path}
  {defaultsOnly : Bool} {source : Option Path} {loaded : Except Problem Config}

/-- What there is to choose from if no file is named. -/
theorem mem_candidates {p : Path} :
    p ∈ candidates s ↔ (∃ d, s.workingDirectory = some d ∧ d.join localName = p) ∨
      ∃ d, s.settingsDirectory = some d ∧ d.join userName = p := by
  simp [candidates]

/-- Settings come from the file that is chosen. -/
theorem ComeFrom.eq_chosen (h : ComeFrom s named defaultsOnly source) :
    source = if defaultsOnly then none else chosen? s named := by
  cases h with
  | defaultsOnly => rfl
  | named path => rfl
  | localFile known there => simp [chosen?, candidates, known, there]
  | userFile noLocal known there =>
    cases hdir : s.workingDirectory with
    | none => simp [chosen?, candidates, hdir, known, there]
    | some d => simp [chosen?, candidates, hdir, known, there, noLocal d hdir]
  | nowhere noLocal noUser =>
    have hnone : (candidates s).find? s.hasFile = none := by
      rw [List.find?_eq_none]
      intro p hp
      rcases mem_candidates.mp hp with ⟨d, hd, rfl⟩ | ⟨d, hd, rfl⟩
      · simp [noLocal d hd]
      · simp [noUser d hd]
    exact hnone.symm

theorem exists_comeFrom (s : Surroundings) (named : Option Path) (defaultsOnly : Bool) :
    ∃ source, ComeFrom s named defaultsOnly source := by
  cases defaultsOnly with
  | true => exact ⟨none, .defaultsOnly named⟩
  | false =>
    cases named with
    | some path => exact ⟨some path, .named path⟩
    | none =>
      by_cases hlocal : ∃ d, s.workingDirectory = some d ∧ s.hasFile (d.join localName)
      · obtain ⟨d, hd, hthere⟩ := hlocal
        exact ⟨_, .localFile hd hthere⟩
      · have hnoLocal : ∀ d, s.workingDirectory = some d →
            s.hasFile (d.join localName) = false := by
          simpa using hlocal
        by_cases huser : ∃ d, s.settingsDirectory = some d ∧ s.hasFile (d.join userName)
        · obtain ⟨d, hd, hthere⟩ := huser
          exact ⟨_, .userFile hnoLocal hd hthere⟩
        · exact ⟨none, .nowhere hnoLocal (by simpa using huser)⟩

/-- The text of a file decides what comes from it. -/
theorem gives_loadFileWith (read : String → Option Settings) (s : Surroundings) (path : Path) :
    Gives read s (some path) (loadFileWith read s path) := by
  cases htext : s.readText path with
  | error fault =>
    simp only [loadFileWith, htext]
    exact .unreadable htext
  | ok text =>
    cases hread : read text with
    | none =>
      simp only [loadFileWith, htext, ofTextWith, hread]
      exact .malformed htext hread
    | some given =>
      simp only [loadFileWith, htext, ofTextWith, hread]
      cases hcheck : (ofSettings given).check with
      | ok u =>
        rw [Workspace.validated_eq_ok hcheck]
        exact .valid htext hread hcheck
      | error p =>
        rw [Workspace.validated_eq_error hcheck]
        exact .invalid htext hread hcheck

theorem ComeFrom.gives (h : ComeFrom s named defaultsOnly source)
    (read : String → Option Settings) :
    Gives read s source (loadWith read s named defaultsOnly) := by
  rw [loadWith, h.eq_chosen]
  cases defaultsOnly with
  | true => exact .defaults
  | false =>
    simp only [Bool.false_eq_true, if_false]
    cases chosen? s named with
    | none => exact .defaults
    | some path => exact gives_loadFileWith read s path

theorem Gives.isProper {c : Config} (h : Gives read s source (.ok c)) : c.IsProper := by
  cases h with
  | defaults => exact isProper_of_check default_check
  | valid holds reads proper => exact isProper_of_check proper

end Config

/-! ## Commands and their settings -/

namespace Invocation

/-- The file of settings that a command names. -/
def configPath (i : Invocation) : Option Path :=
  match i.command with
  | .check o => o.config
  | .scan o => o.config

/-- The threshold that a command gives, which only a check can. -/
def threshold? (i : Invocation) : Option Nat :=
  match i.command with
  | .check o => o.threshold
  | .scan _ => none

/-- The settings that a command works with, in some surroundings; `read` reads their text. -/
def settingsWith (i : Invocation) (read : String → Option Settings) (s : Surroundings) :
    Except Problem Config :=
  Config.loadWith read s i.configPath i.common.defaultsOnly >>= fun c =>
    Workspace.overrideThreshold c i.threshold?

end Invocation

namespace Workspace

/-- What a command finds that works with some settings. -/
def judgeUnder (w : Workspace) (c : Config) (i : Invocation) : Except Problem Verdict := do
  let s ← Scanner.ofConfig c
  match i.command with
  | .check o =>
    let r ← if o.staged then .ok (s.scanStaged w o.path) else s.scanAll w o.path
    return {
      exitCode := if r.hasViolations then 1 else 0
      report := showReport i.common o.format c r
      destination := o.output }
  | .scan o =>
    let r ← s.scanAll w o.path
    return {
      exitCode := if isBelow r o.failUnder then 1 else 0
      report := showReport i.common o.format c r
      destination := o.output
      remark := shortfall i.common r o.failUnder }

/-- What a command does that works with some settings. -/
def runUnder (w : Workspace) (c : Config) (i : Invocation) : Outcome :=
  match w.judgeUnder c i >>= w.deliver i.common with
  | .ok outcome => outcome
  | .error p => w.fail i.common p

/-- What a command does whose settings are found in some surroundings; `read` reads their text. -/
def runWith (w : Workspace) (read : String → Option Settings) (s : Surroundings)
    (i : Invocation) : Outcome :=
  match i.settingsWith read s with
  | .ok c => w.runUnder c i
  | .error p => w.fail i.common p

theorem judge_eq_judgeUnder (w : Workspace) (i : Invocation) :
    w.judge i = i.settingsWith Settings.read? w.surroundings >>= fun c => w.judgeUnder c i := by
  obtain ⟨common, command⟩ := i
  cases command with
  | check o =>
    simp only [judge, judgeCheck, Invocation.settingsWith, bind_assoc]
    rfl
  | scan o =>
    simp only [judge, judgeScan, Invocation.settingsWith, bind_assoc]
    rfl

/-- A command comes to its settings, and then works with them. -/
theorem run_eq_runWith (w : Workspace) (i : Invocation) :
    w.run i = w.runWith Settings.read? w.surroundings i := by
  rw [run, judge_eq_judgeUnder, runWith]
  cases i.settingsWith Settings.read? w.surroundings <;> rfl

variable {i : Invocation} {read : String → Option Settings} {s : Surroundings} {c : Config}

theorem runWith_of_ok (w : Workspace) (h : i.settingsWith read s = .ok c) :
    w.runWith read s i = w.runUnder c i := by
  rw [runWith, h]

theorem runWith_of_error (w : Workspace) {p : Problem} (h : i.settingsWith read s = .error p) :
    w.runWith read s i = w.fail i.common p := by
  rw [runWith, h]

end Workspace

namespace Invocation

variable {i : Invocation} {read : String → Option Settings} {s : Surroundings}

theorem settingsWith_of_error {p : Problem}
    (h : Config.loadWith read s i.configPath i.common.defaultsOnly = .error p) :
    i.settingsWith read s = .error p := by
  rw [settingsWith, h]
  rfl

theorem settingsWith_of_ok {c : Config}
    (h : Config.loadWith read s i.configPath i.common.defaultsOnly = .ok c) :
    i.settingsWith read s = match i.threshold? with
      | none => .ok c
      | some threshold => (c.withThreshold threshold).validated := by
  rw [settingsWith, h]
  cases hthreshold : i.threshold? <;> rfl

/-- Whatever settings a command works with, they are in range. -/
theorem isProper_of_settingsWith {c : Config} (h : i.settingsWith read s = .ok c) :
    c.IsProper := by
  obtain ⟨source, hsource⟩ :=
    Config.exists_comeFrom s i.configPath i.common.defaultsOnly
  have hgives := hsource.gives read
  cases hload : Config.loadWith read s i.configPath i.common.defaultsOnly with
  | error p => rw [settingsWith_of_error hload] at h; cases h
  | ok loaded =>
    rw [hload] at hgives
    rw [settingsWith_of_ok hload] at h
    cases hthreshold : i.threshold? with
    | none =>
      rw [hthreshold] at h
      cases h
      exact hgives.isProper
    | some threshold =>
      simp only [hthreshold] at h
      cases hcheck : (loaded.withThreshold threshold).check with
      | error p => rw [Workspace.validated_eq_error hcheck] at h; cases h
      | ok u =>
        rw [Workspace.validated_eq_ok hcheck] at h
        cases h
        exact Config.isProper_of_check hcheck

end Invocation

/-- **Which settings a command works with.** They come from one place: from the defaults if files
are ruled out, else from the named file, else from the file in the working directory, else from
that of the user, else again from the defaults. If that is a file that cannot be read, is
malformed or has settings out of range, the command fails with what is wrong with this file;
otherwise it has these settings, with the threshold that is given instead of theirs, if one is
given, and if it makes settings in range. So a command works only with settings in range. If files
are ruled out, nothing around the command has a part in its settings. -/
theorem settings_of_command (i : Invocation) (read : String → Option Settings)
    (s : Surroundings) :
    (∃ source, Config.ComeFrom s i.configPath i.common.defaultsOnly source ∧
      (∀ other, Config.ComeFrom s i.configPath i.common.defaultsOnly other → other = source) ∧
      ∃ loaded, Config.Gives read s source loaded ∧
        (∀ p, loaded = .error p → i.settingsWith read s = .error p) ∧
        (∀ c, loaded = .ok c → i.threshold? = none → i.settingsWith read s = .ok c) ∧
        ∀ c threshold, loaded = .ok c → i.threshold? = some threshold →
          ((c.withThreshold threshold).check = .ok () →
            i.settingsWith read s = .ok (c.withThreshold threshold)) ∧
          ∀ p, (c.withThreshold threshold).check = .error p →
            i.settingsWith read s = .error p) ∧
    (∀ c, i.settingsWith read s = .ok c → c.IsProper) ∧
    (i.common.defaultsOnly → ∀ read' s', i.settingsWith read' s' = i.settingsWith read s) ∧
    (∀ w : Workspace,
      (∀ c, i.settingsWith read s = .ok c → w.runWith read s i = w.runUnder c i) ∧
      (∀ p, i.settingsWith read s = .error p → w.runWith read s i = w.fail i.common p) ∧
      w.run i = w.runWith Settings.read? w.surroundings i) := by
  refine ⟨?_, fun c => Invocation.isProper_of_settingsWith, ?_, ?_⟩
  · obtain ⟨source, hsource⟩ := Config.exists_comeFrom s i.configPath i.common.defaultsOnly
    refine ⟨source, hsource, fun other hother => ?_, _, hsource.gives read, ?_, ?_, ?_⟩
    · rw [hother.eq_chosen, hsource.eq_chosen]
    · exact fun p => Invocation.settingsWith_of_error
    · intro c hload hthreshold
      rw [Invocation.settingsWith_of_ok hload, hthreshold]
    · intro c threshold hload hthreshold
      rw [Invocation.settingsWith_of_ok hload, hthreshold]
      exact ⟨Workspace.validated_eq_ok, fun p => Workspace.validated_eq_error⟩
  · intro honly read' s'
    rw [Invocation.settingsWith, Invocation.settingsWith, Config.loadWith, Config.loadWith,
      if_pos honly, if_pos honly]
  · intro w
    exact ⟨fun c => w.runWith_of_ok, fun p => w.runWith_of_error, w.run_eq_runWith i⟩

end DocGate

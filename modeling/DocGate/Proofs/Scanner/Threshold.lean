/-
DocGate.Proofs.Scanner.Threshold — scans under two thresholds.

A threshold decides which functions are violations and nothing else.

* `FileReport.check_relaxesTo` — under a higher threshold a file keeps its functions and
  has some of its violations.
* `Scanner.scanPaths_relaxesTo` — a scan reports the same files.
* `Scanner.scanAll_relaxesTo`, `Scanner.scanStaged_relaxesTo` — what a scan comes to
  under the higher threshold is what it comes to under the lower one but for some
  violations. A scan that fails, fails in the same way.

The only side condition is that one threshold is at least the other.
-/
import DocGate.Proofs.Scanner.Reports
import Mathlib.Data.List.Forall2

namespace DocGate

/-- The report on a file under a higher threshold: it may lack violations. -/
structure FileReport.RelaxesTo (x y : FileReport) : Prop where
  path : y.path = x.path
  functions : y.functions = x.functions
  flagged : y.flagged.Sublist x.flagged
  violations : y.violations.Sublist x.violations

/-- The report on a scan under a higher threshold: the same files with the same functions, of
which some may lack violations. -/
structure ScanReport.RelaxesTo (r r' : ScanReport) : Prop where
  files : List.Forall₂ FileReport.RelaxesTo r.files r'.files
  fileCount : r'.fileCount = r.fileCount
  functionCount : r'.functionCount = r.functionCount
  documentedCount : r'.documentedCount = r.documentedCount

/-- What a scan comes to under a higher threshold: it fails for the same reason, or its report
lacks violations at most. -/
inductive Scanner.RelaxesTo : Except Problem ScanReport → Except Problem ScanReport → Prop where
  | failure (p : Problem) : RelaxesTo (.error p) (.error p)
  | report {r r' : ScanReport} (h : r.RelaxesTo r') : RelaxesTo (.ok r) (.ok r')

/-- Settings with a higher threshold, and otherwise the same. -/
def Config.RaisesTo (c c' : Config) : Prop :=
  ∃ threshold, c.threshold ≤ threshold ∧ c' = c.withThreshold threshold

namespace FileReport

variable {t t' : Nat}

theorem flaggedFrom_sublist (h : t ≤ t') (i : Nat) (fs : List ScoredFunction) :
    (flaggedFrom t' i fs).Sublist (flaggedFrom t i fs) := by
  induction fs generalizing i with
  | nil => exact List.Sublist.refl _
  | cons f fs ih =>
    have hmono : f.violates t' → f.violates t := by
      simp only [ScoredFunction.violates, Bool.and_eq_true, decide_eq_true_eq]
      rintro ⟨habove, hundocumented⟩
      exact ⟨by omega, hundocumented⟩
    rw [flaggedFrom, flaggedFrom]
    by_cases ht' : f.violates t'
    · rw [if_pos ht', if_pos (hmono ht')]
      exact (ih (i + 1)).cons_cons i
    · rw [if_neg ht']
      split
      · exact (ih (i + 1)).cons i
      · exact ih (i + 1)

theorem check_relaxesTo (h : t ≤ t') (path : String) (fs : List ScoredFunction) :
    (check t path fs).RelaxesTo (check t' path fs) where
  path := rfl
  functions := rfl
  flagged := flaggedFrom_sublist h 0 fs
  violations := (flaggedFrom_sublist h 0 fs).filterMap _

theorem RelaxesTo.hasViolations {x y : FileReport} (h : x.RelaxesTo y) (hy : y.hasViolations) :
    x.hasViolations := by
  rw [FileReport.hasViolations, Bool.not_eq_true', List.isEmpty_eq_false_iff] at hy ⊢
  intro hx
  have hflagged := h.flagged
  rw [hx] at hflagged
  exact hy (List.sublist_nil.mp hflagged)

end FileReport

namespace ScanReport

variable {r r' : ScanReport}

/-- What files count together is the same if each counts the same. -/
theorem total_eq_of_forall₂ {count : FileReport → Nat}
    (h : List.Forall₂ (fun x y => count y = count x) r.files r'.files) :
    r'.total count = r.total count := by
  have hcounts : r'.files.map count = r.files.map count := by
    rw [← List.forall₂_eq_eq_eq, List.forall₂_map_left_iff, List.forall₂_map_right_iff]
    exact h.flip
  rw [total_eq_sum, total_eq_sum, hcounts]

theorem relaxesTo_of_files (h : List.Forall₂ FileReport.RelaxesTo r.files r'.files) :
    r.RelaxesTo r' where
  files := h
  fileCount := h.length_eq.symm
  functionCount := total_eq_of_forall₂ <| h.imp fun x y hxy => by
    rw [FileReport.functionCount, hxy.functions, FileReport.functionCount]
  documentedCount := total_eq_of_forall₂ <| h.imp fun x y hxy => by
    rw [FileReport.documentedCount, hxy.functions, FileReport.documentedCount]

theorem RelaxesTo.coverage (h : r.RelaxesTo r') : r'.coverage = r.coverage := by
  rw [ScanReport.coverage, h.documentedCount, h.functionCount, ScanReport.coverage]

/-- A report without violations has none under a higher threshold. -/
theorem RelaxesTo.hasViolations (h : r.RelaxesTo r') (hr' : r'.hasViolations) :
    r.hasViolations := by
  obtain ⟨xs⟩ := r
  obtain ⟨ys⟩ := r'
  have hfiles : List.Forall₂ FileReport.RelaxesTo xs ys := h.files
  have hany : ys.any FileReport.hasViolations → xs.any FileReport.hasViolations := by
    clear h hr'
    induction hfiles with
    | nil => exact id
    | cons hxy _ ih =>
      rw [List.any_cons, List.any_cons, Bool.or_eq_true, Bool.or_eq_true]
      exact Or.imp hxy.hasViolations ih
  exact hany hr'

end ScanReport

namespace Scanner

variable {s : Scanner} {w : Workspace} {t : Nat}

theorem ofConfig_withThreshold (c : Config) (threshold : Nat) :
    ofConfig (c.withThreshold threshold)
      = (ofConfig c).map fun s => { s with threshold } := by
  unfold ofConfig Config.withThreshold
  cases IgnoreFilter.ofPatterns c.ignore <;> rfl

theorem scanPaths_relaxesTo (h : s.threshold ≤ t) (registry : Registry) (base : Path)
    (ps : List Path) :
    (s.scanPaths w registry base ps).RelaxesTo
      ({ s with threshold := t }.scanPaths w registry base ps) := by
  refine ScanReport.relaxesTo_of_files ?_
  rw [scanPaths, scanPaths]
  refine List.rel_filter (fun x y hxy => ?_) ?_
  · have hcount : y.functionCount = x.functionCount := congrArg List.length hxy.functions
    show decide (0 < x.functionCount) = true ↔ decide (0 < y.functionCount) = true
    rw [hcount]
  · rw [List.forall₂_map_left_iff, List.forall₂_map_right_iff, List.forall₂_same]
    exact fun p _ => FileReport.check_relaxesTo h _ _

theorem scanAll_relaxesTo (h : s.threshold ≤ t) (w : Workspace) (root : Path) :
    RelaxesTo (s.scanAll w root) ({ s with threshold := t }.scanAll w root) := by
  rw [scanAll, scanAll]
  cases filesBelow w s.ignore root with
  | error p => exact .failure p
  | ok paths => exact .report (scanPaths_relaxesTo h s.registry root _)

theorem scanStaged_relaxesTo (h : s.threshold ≤ t) (w : Workspace) (root : Path) :
    (s.scanStaged w root).RelaxesTo ({ s with threshold := t }.scanStaged w root) := by
  rw [scanStaged, scanStaged]
  cases w.stagedFiles root with
  | error fault => exact ScanReport.relaxesTo_of_files .nil
  | ok found => exact scanPaths_relaxesTo h s.stagedRegistry _ _

end Scanner

end DocGate

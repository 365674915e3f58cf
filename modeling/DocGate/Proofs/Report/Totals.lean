/-
DocGate.Proofs.Report.Totals — violations and totals of a report.

The report on a file stores the places of its violations, counts them by the number of
places, and reads them back through the places.

* `FileReport.violations_check` — all three come to the same: the functions that violate
  the rule, in their order.
* `FileReport.documentedCount_add_violationCount_le` — the violations and the documented
  functions of a file are different functions, which bounds their number together.
* `ScanReport.total_append` — the report on a scan counts by adding up over its files,
  so that its totals are those of its parts put together.
* `violations_and_totals_of_checked` — all of it for every threshold and every list of
  files with their functions, in whatever order the files come.

The places in a report are those of its violations only if `FileReport.check` made it,
and the results are about reports that it made.
-/
import DocGate.Report.Basic
import Mathlib.Algebra.Ring.Nat

namespace DocGate

namespace FileReport

/-! ## The report on a file -/

/-- The places behind `before` that are flagged are those of the functions behind `before` that
violate the rule. -/
theorem mem_flaggedFrom (threshold : Nat) (before fs : List ScoredFunction) (i : Nat) :
    i ∈ flaggedFrom threshold before.length fs
      ↔ before.length ≤ i ∧ ∃ f, (before ++ fs)[i]? = some f ∧ f.violates threshold := by
  induction fs generalizing before with
  | nil =>
    simp only [flaggedFrom, List.not_mem_nil, List.append_nil, false_iff]
    rintro ⟨hle, f, hget, -⟩
    rw [List.getElem?_eq_none hle] at hget
    cases hget
  | cons g fs ih =>
    -- the function `g` moves over to those in front
    have hstep := ih (before ++ [g])
    rw [List.length_append, List.length_singleton, List.append_assoc, List.singleton_append]
      at hstep
    have hhere : (before ++ g :: fs)[before.length]? = some g := by simp
    have hrest : i ∈ flaggedFrom threshold (before.length + 1) fs ∨
        (i = before.length ∧ g.violates threshold) ↔
          before.length ≤ i ∧ ∃ f, (before ++ g :: fs)[i]? = some f ∧ f.violates threshold := by
      rw [hstep]
      constructor
      · rintro (⟨hle, hf⟩ | ⟨rfl, hg⟩)
        · exact ⟨by omega, hf⟩
        · exact ⟨Nat.le_refl _, g, hhere, hg⟩
      · rintro ⟨hle, f, hget, hf⟩
        rcases Nat.eq_or_lt_of_le hle with rfl | hlt
        · rw [hhere] at hget
          cases hget
          exact Or.inr ⟨rfl, hf⟩
        · exact Or.inl ⟨hlt, f, hget, hf⟩
    rw [← hrest, flaggedFrom]
    split
    · rename_i hg
      simp [hg, or_comm]
    · rename_i hg
      simp [hg]

/-- Reading through the places gives the functions that violate the rule, in their order. -/
theorem filterMap_flaggedFrom (threshold : Nat) (before fs : List ScoredFunction) :
    (flaggedFrom threshold before.length fs).filterMap (fun i => (before ++ fs)[i]?)
      = fs.filter (·.violates threshold) := by
  induction fs generalizing before with
  | nil => rfl
  | cons g fs ih =>
    have hstep := ih (before ++ [g])
    rw [List.length_append, List.length_singleton, List.append_assoc, List.singleton_append]
      at hstep
    have hhere : (before ++ g :: fs)[before.length]? = some g := by simp
    rw [flaggedFrom]
    split
    · rename_i hg
      rw [List.filterMap_cons_some hhere, hstep, List.filter_cons_of_pos hg]
    · rename_i hg
      rw [hstep, List.filter_cons_of_neg hg]

/-- A place is stored exactly if there is a function at it that violates the rule. -/
theorem mem_flagged_check (threshold : Nat) (path : String) (fs : List ScoredFunction) (i : Nat) :
    i ∈ (check threshold path fs).flagged ↔ ∃ f, fs[i]? = some f ∧ f.violates threshold := by
  have hmem := mem_flaggedFrom threshold [] fs i
  simpa [check] using hmem

theorem violations_check (threshold : Nat) (path : String) (fs : List ScoredFunction) :
    (check threshold path fs).violations = fs.filter (·.violates threshold) := by
  have hread := filterMap_flaggedFrom threshold [] fs
  simpa [violations, check] using hread

theorem length_flaggedFrom (threshold i : Nat) (fs : List ScoredFunction) :
    (flaggedFrom threshold i fs).length = fs.countP (·.violates threshold) := by
  induction fs generalizing i with
  | nil => rfl
  | cons g fs ih =>
    rw [flaggedFrom]
    split
    · rename_i hg
      rw [List.length_cons, ih, List.countP_cons_of_pos hg]
    · rename_i hg
      rw [ih, List.countP_cons_of_neg hg]

theorem violationCount_check (threshold : Nat) (path : String) (fs : List ScoredFunction) :
    (check threshold path fs).violationCount = fs.countP (·.violates threshold) :=
  length_flaggedFrom threshold 0 fs

theorem hasViolations_eq (r : FileReport) : r.hasViolations = decide (0 < r.violationCount) := by
  rw [hasViolations, violationCount]
  cases r.flagged <;> simp

theorem hasViolations_check (threshold : Nat) (path : String) (fs : List ScoredFunction) :
    (check threshold path fs).hasViolations ↔ ∃ f ∈ fs, f.violates threshold := by
  rw [hasViolations_eq, violationCount_check, decide_eq_true_iff, List.countP_pos_iff]

/-- No function is both documented and a violation. -/
theorem documentedCount_add_violationCount_le (threshold : Nat) (path : String)
    (fs : List ScoredFunction) :
    (check threshold path fs).documentedCount + (check threshold path fs).violationCount
      ≤ (check threshold path fs).functionCount := by
  have hundocumented : fs.countP (·.violates threshold) ≤ fs.countP (fun f => !f.documented) := by
    refine List.countP_mono_left fun f _ hf => ?_
    simp only [ScoredFunction.violates, Bool.and_eq_true] at hf
    exact hf.2
  have hsplit := List.length_eq_countP_add_countP (fun f : ScoredFunction => f.documented) (l := fs)
  rw [violationCount_check]
  simp only [documentedCount, functionCount, check]
  simp only [Bool.decide_eq_false, Bool.not_eq_true] at hsplit
  omega

end FileReport

namespace ScanReport

/-! ## The report on a scan -/

theorem total_cons (f : FileReport) (fs : List FileReport) (count : FileReport → Nat) :
    total ⟨f :: fs⟩ count = count f + total ⟨fs⟩ count :=
  rfl

theorem total_eq_sum (r : ScanReport) (count : FileReport → Nat) :
    r.total count = (r.files.map count).sum := by
  obtain ⟨fs⟩ := r
  induction fs with
  | nil => rfl
  | cons f fs ih => rw [total_cons, ih, List.map_cons, List.sum_cons]

/-- What files count together is what the parts of their list count together. -/
theorem total_append (fs gs : List FileReport) (count : FileReport → Nat) :
    total ⟨fs ++ gs⟩ count = total ⟨fs⟩ count + total ⟨gs⟩ count := by
  simp [total_eq_sum]

/-- The report on files with the given functions. -/
def ofFunctions (threshold : Nat) (inputs : List (String × List ScoredFunction)) : ScanReport :=
  ⟨inputs.map fun x => .check threshold x.1 x.2⟩

theorem files_ofFunctions_append (threshold : Nat)
    (inputs more : List (String × List ScoredFunction)) :
    (ofFunctions threshold (inputs ++ more)).files
      = (ofFunctions threshold inputs).files ++ (ofFunctions threshold more).files := by
  simp [ofFunctions]

theorem total_ofFunctions (threshold : Nat) (inputs : List (String × List ScoredFunction))
    (count : FileReport → Nat) :
    (ofFunctions threshold inputs).total count
      = (inputs.map fun x => count (.check threshold x.1 x.2)).sum := by
  rw [total_eq_sum, ofFunctions, List.map_map]
  rfl

theorem violations_ofFunctions (threshold : Nat) (inputs : List (String × List ScoredFunction)) :
    (ofFunctions threshold inputs).violations
      = inputs.flatMap fun x => (x.2.filter (·.violates threshold)).map fun v =>
          (FileReport.check threshold x.1 x.2, v) := by
  simp only [violations, ofFunctions, List.flatMap_map, FileReport.violations_check]

theorem violationCount_ofFunctions (threshold : Nat)
    (inputs : List (String × List ScoredFunction)) :
    (ofFunctions threshold inputs).violationCount
      = (ofFunctions threshold inputs).violations.length := by
  rw [violationCount, total_ofFunctions, violations_ofFunctions, List.length_flatMap]
  simp only [FileReport.violationCount_check, List.length_map, List.countP_eq_length_filter]

/-- A report counts a violation exactly if a file has one. -/
theorem hasViolations_iff (r : ScanReport) : r.hasViolations ↔ 0 < r.violationCount := by
  rw [hasViolations, violationCount, total_eq_sum, List.any_eq_true,
    List.sum_pos_iff_exists_pos_nat]
  simp only [FileReport.hasViolations_eq, decide_eq_true_eq]
  constructor
  · rintro ⟨f, hf, hpos⟩
    exact ⟨f.violationCount, List.mem_map_of_mem hf, hpos⟩
  · rintro ⟨n, hn, hpos⟩
    obtain ⟨f, hf, rfl⟩ := List.mem_map.mp hn
    exact ⟨f, hf, hpos⟩

/-- A report has violations exactly if a function of it violates the rule. -/
theorem hasViolations_iff_exists {threshold : Nat} {r : ScanReport}
    (h : ∀ f ∈ r.files, f = .check threshold f.path f.functions) :
    r.hasViolations ↔ ∃ f ∈ r.files, ∃ g ∈ f.functions, g.violates threshold := by
  rw [hasViolations, List.any_eq_true]
  refine exists_congr fun f => and_congr_right fun hf => ?_
  rw [← FileReport.hasViolations_check threshold f.path, ← h f hf]

theorem hasViolations_ofFunctions (threshold : Nat)
    (inputs : List (String × List ScoredFunction)) :
    (ofFunctions threshold inputs).hasViolations
      ↔ ∃ x ∈ inputs, ∃ f ∈ x.2, f.violates threshold := by
  rw [hasViolations, ofFunctions, List.any_map, List.any_eq_true]
  exact exists_congr fun x => and_congr_right fun _ =>
    FileReport.hasViolations_check threshold x.1 x.2

theorem documentedCount_add_violationCount_le (threshold : Nat)
    (inputs : List (String × List ScoredFunction)) :
    (ofFunctions threshold inputs).documentedCount + (ofFunctions threshold inputs).violationCount
      ≤ (ofFunctions threshold inputs).functionCount := by
  rw [documentedCount, violationCount, functionCount]
  simp only [total_ofFunctions]
  induction inputs with
  | nil => exact Nat.le_refl _
  | cons x inputs ih =>
    have hfile := FileReport.documentedCount_add_violationCount_le threshold x.1 x.2
    simp only [List.map_cons, List.sum_cons]
    omega

/-- The numbers that a report adds up over its files. -/
def counts : List (ScanReport → Nat) :=
  [fileCount, functionCount, documentedCount, violationCount]

theorem count_append (fs gs : List FileReport) {count : ScanReport → Nat} (h : count ∈ counts) :
    count ⟨fs ++ gs⟩ = count ⟨fs⟩ + count ⟨gs⟩ := by
  simp only [counts, List.mem_cons, List.not_mem_nil, or_false] at h
  rcases h with rfl | rfl | rfl | rfl
  · exact List.length_append
  · exact total_append fs gs _
  · exact total_append fs gs _
  · exact total_append fs gs _

/-- **Violations and totals.** Of files whose functions are checked against a threshold, the
violations are the functions above the threshold without documentation, in their order and with
their file, and all places that are stored are places of functions. Counting, listing and asking
for violations agree, on files and on the whole report. The totals are sums over the files; no
function counts both as documented and as a violation. The totals of two lists of files, and with
them the two numbers whose ratio is the coverage, are those of the one plus those of the other,
whichever comes first. -/
theorem violations_and_totals_of_checked (threshold : Nat)
    (inputs more : List (String × List ScoredFunction)) :
    (∀ x ∈ inputs,
      (FileReport.check threshold x.1 x.2).violations
          = x.2.filter (fun f => threshold < f.complexity && !f.documented) ∧
        ∀ i ∈ (FileReport.check threshold x.1 x.2).flagged, i < x.2.length) ∧
    (ofFunctions threshold inputs).violations
      = inputs.flatMap (fun x =>
          (x.2.filter fun f => threshold < f.complexity && !f.documented).map fun v =>
            (FileReport.check threshold x.1 x.2, v)) ∧
    (ofFunctions threshold inputs).violationCount
      = (ofFunctions threshold inputs).violations.length ∧
    ((ofFunctions threshold inputs).hasViolations
      ↔ 0 < (ofFunctions threshold inputs).violationCount) ∧
    ((ofFunctions threshold inputs).hasViolations
      ↔ ∃ x ∈ inputs, ∃ f ∈ x.2, threshold < f.complexity ∧ f.documented = false) ∧
    (ofFunctions threshold inputs).functionCount = (inputs.map fun x => x.2.length).sum ∧
    (ofFunctions threshold inputs).documentedCount
      = (inputs.map fun x => (x.2.filter (·.documented)).length).sum ∧
    (ofFunctions threshold inputs).documentedCount + (ofFunctions threshold inputs).violationCount
      ≤ (ofFunctions threshold inputs).functionCount ∧
    (∀ count ∈ counts,
      count (ofFunctions threshold (inputs ++ more))
          = count (ofFunctions threshold inputs) + count (ofFunctions threshold more) ∧
        count (ofFunctions threshold (more ++ inputs))
          = count (ofFunctions threshold inputs) + count (ofFunctions threshold more)) ∧
    (∀ both ∈ [inputs ++ more, more ++ inputs],
      (ofFunctions threshold both).coverage
        = coverageOf
            ((ofFunctions threshold inputs).documentedCount
              + (ofFunctions threshold more).documentedCount)
            ((ofFunctions threshold inputs).functionCount
              + (ofFunctions threshold more).functionCount)) := by
  have happend : ∀ as bs : List (String × List ScoredFunction), ∀ count ∈ counts,
      count (ofFunctions threshold (as ++ bs))
        = count (ofFunctions threshold as) + count (ofFunctions threshold bs) := by
    intro as bs count hcount
    have hfiles : ofFunctions threshold (as ++ bs)
        = ⟨(ofFunctions threshold as).files ++ (ofFunctions threshold bs).files⟩ := by
      rw [← files_ofFunctions_append]
    rw [hfiles]
    exact count_append _ _ hcount
  refine ⟨fun x _ => ⟨?_, ?_⟩, ?_, ?_, ?_, ?_, ?_, ?_, ?_, ?_, ?_⟩
  · exact FileReport.violations_check threshold x.1 x.2
  · intro i hi
    obtain ⟨f, hget, -⟩ := (FileReport.mem_flagged_check threshold x.1 x.2 i).mp hi
    exact (List.getElem?_eq_some_iff.mp hget).1
  · exact violations_ofFunctions threshold inputs
  · exact violationCount_ofFunctions threshold inputs
  · exact hasViolations_iff _
  · rw [hasViolations_ofFunctions]
    simp [ScoredFunction.violates]
  · exact total_ofFunctions threshold inputs _
  · rw [documentedCount, total_ofFunctions]
    simp only [← List.countP_eq_length_filter]
    rfl
  · exact documentedCount_add_violationCount_le threshold inputs
  · intro count hcount
    refine ⟨happend inputs more count hcount, ?_⟩
    rw [happend more inputs count hcount, Nat.add_comm]
  · intro both hboth
    simp only [List.mem_cons, List.not_mem_nil, or_false] at hboth
    have hdocumented : documentedCount ∈ counts := by simp [counts]
    have hfunctions : functionCount ∈ counts := by simp [counts]
    rw [coverage]
    rcases hboth with rfl | rfl
    · rw [happend _ _ _ hdocumented, happend _ _ _ hfunctions]
    · rw [happend _ _ _ hdocumented, happend _ _ _ hfunctions,
        Nat.add_comm (documentedCount _), Nat.add_comm (functionCount _)]

end ScanReport

end DocGate

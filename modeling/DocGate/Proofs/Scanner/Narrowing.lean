/-
DocGate.Proofs.Scanner.Narrowing — fewer languages and more patterns.

* `Config.Narrows` — settings may enable fewer languages than others and have more
  patterns.
* `Registry.forPath?_of_sameKeys` — a file that is in a language for the narrower ones
  is in the same language for the others. What the others ignore the narrower ones
  ignore as well.
* `scanAll_of_narrows` — so a scan of all files reports with narrower settings some of
  the files that it reports with the others, and says the same about them. Where both
  narrow each other, as they do if only the order or the number of keys and patterns
  differs, the reports are the same.

Both settings must make a scanner and have the same threshold. That two entries with one
path are the same needs a tree as it is on a disk.
-/
import DocGate.Proofs.IgnoreFilter.Patterns
import DocGate.Proofs.Scanner.Reports
import Mathlib.Data.List.Flatten

namespace DocGate

/-- Settings look at no more than others: each language key is, but for the case of its letters,
one of the others' keys, and each of the others' patterns is one of theirs. -/
structure Config.Narrows (c c' : Config) : Prop where
  languages : ∀ key ∈ c.languages, ∃ key' ∈ c'.languages, Language.sameKey key key'
  ignore : ∀ pattern ∈ c'.ignore, pattern ∈ c.ignore

/-- More keys leave the files in the languages that they are in. -/
theorem Registry.forPath?_of_sameKeys {keys keys' : List String}
    (h : ∀ key ∈ keys, ∃ key' ∈ keys', Language.sameKey key key') {p : Path} {l : Language}
    (hl : (ofKeys keys).forPath? p = some l) : (ofKeys keys').forPath? p = some l := by
  rw [forPath?_ofKeys_eq_some_iff] at hl ⊢
  obtain ⟨⟨key, hkey, hhas⟩, hsuffix⟩ := hl
  obtain ⟨key', hkey', hsame⟩ := h key hkey
  exact ⟨⟨key', hkey', Language.hasKey_of_sameKey hsame hhas⟩, hsuffix⟩

namespace ScanReport

variable {r r' : ScanReport}

theorem violations_sublist (h : r.files.Sublist r'.files) :
    r.violations.Sublist r'.violations :=
  h.flatMap _

theorem hasViolations_of_sublist (h : r.files.Sublist r'.files) (hr : r.hasViolations) :
    r'.hasViolations := by
  rw [hasViolations, List.any_eq_true] at hr ⊢
  obtain ⟨x, hx, hviolations⟩ := hr
  exact ⟨x, h.subset hx, hviolations⟩

end ScanReport

namespace Scanner

variable {s s' : Scanner} {w : Workspace} {c c' : Config}

/-- A file with functions has the same ones in a registry where it is in the same language. -/
theorem functionsOf_of_forPath? {registry registry' : Registry} {path : Path}
    (h : ∀ l, registry.forPath? path = some l → registry'.forPath? path = some l)
    (hne : functionsOf w registry path ≠ []) :
    functionsOf w registry path = functionsOf w registry' path := by
  obtain ⟨language, source, hlanguage, -, -⟩ := functionsOf_ne_nil_iff.mp hne
  exact functionsOf_congr (hlanguage.trans (h language hlanguage).symm) rfl

/-- Reports on some of the paths are some of the reports, where files with functions have the
same ones. -/
theorem scanPaths_sublist {registry registry' : Registry} {base : Path} {ps ps' : List Path}
    (hthreshold : s.threshold = s'.threshold) (hps : ps.Sublist ps')
    (h : ∀ path, functionsOf w registry path ≠ [] →
      functionsOf w registry path = functionsOf w registry' path) :
    (s.scanPaths w registry base ps).files.Sublist (s'.scanPaths w registry' base ps').files := by
  let report := fun p => s.reportOn w registry (base.join p) (p.displayFrom none)
  let report' := fun p => s'.reportOn w registry' (base.join p) (p.displayFrom none)
  let reported : FileReport → Bool := fun x => 0 < x.functionCount
  have hsame : ∀ p, reported (report p) → report p = report' p := by
    intro p hp
    have hne : functionsOf w registry (base.join p) ≠ [] := by
      rwa [decide_eq_true_iff, functionCount_reportOn, List.length_pos_iff] at hp
    simp only [report, report', reportOn, hthreshold, h _ hne]
  have hkept : (ps.filter (reported ∘ report)).Sublist (ps'.filter (reported ∘ report')) := by
    refine (List.monotone_filter_right ps fun p hp => ?_).trans (hps.filter _)
    rwa [Function.comp_apply, ← hsame p hp]
  have hfiles : (s.scanPaths w registry base ps).files
      = (ps.filter (reported ∘ report)).map report' := by
    rw [scanPaths, List.filter_map]
    exact List.map_congr_left fun p hp => hsame p (List.mem_filter.mp hp).2
  have hfiles' : (s'.scanPaths w registry' base ps').files
      = (ps'.filter (reported ∘ report')).map report' := by
    rw [scanPaths, List.filter_map]
  rw [hfiles, hfiles']
  exact hkept.map report'

/-- The files that a scan looks at, chosen among all files of the tree. -/
theorem sources_eq_filter (s : Scanner) (n : Node) :
    s.sources n = (n.files.map Location.relative).filter
      fun p => (s.registry.forPath? p).isSome && !s.ignore.ignores p := by
  have hwalk : (n.walk s.ignore).map Location.relative
      = (n.files.map Location.relative).filter fun p => !s.ignore.ignores p := by
    rw [List.filter_map, Node.walk, Node.walkFrom_eq_kept]
    rfl
  rw [sources, hwalk, List.filter_filter]

section Narrows

variable (hs : ofConfig c = .ok s) (hs' : ofConfig c' = .ok s') (h : c.Narrows c')
include hs hs' h

theorem forPath?_of_narrows {p : Path} {l : Language} (hl : s.registry.forPath? p = some l) :
    s'.registry.forPath? p = some l := by
  rw [(ofConfig_eq_ok hs).1] at hl
  rw [(ofConfig_eq_ok hs').1]
  exact Registry.forPath?_of_sameKeys h.languages hl

theorem sources_sublist (n : Node) : (s.sources n).Sublist (s'.sources n) := by
  rw [sources_eq_filter, sources_eq_filter]
  refine List.monotone_filter_right _ fun p hp => ?_
  rw [Bool.and_eq_true, Bool.not_eq_true'] at hp ⊢
  obtain ⟨hlanguage, hkept⟩ := hp
  obtain ⟨l, hl⟩ := Option.isSome_iff_exists.mp hlanguage
  refine ⟨Option.isSome_of_eq_some (forPath?_of_narrows hs hs' h hl), ?_⟩
  rw [← Bool.not_eq_true] at hkept ⊢
  exact mt (IgnoreFilter.ignores_of_subset (ofPatterns_of_ofConfig hs')
    (ofPatterns_of_ofConfig hs) h.ignore) hkept

theorem files_sublist_of_narrows (hthreshold : c.threshold = c'.threshold) {root : Path}
    {r r' : ScanReport} (hr : s.scanAll w root = .ok r) (hr' : s'.scanAll w root = .ok r') :
    r.files.Sublist r'.files := by
  obtain ⟨es, hfind⟩ := scanAll_isOk_iff.mp ⟨r, hr⟩
  rw [scanAll_of_directory hfind rfl] at hr hr'
  cases hr
  cases hr'
  refine scanPaths_sublist ?_ (sources_sublist hs hs' h _) fun path hne => ?_
  · rw [(ofConfig_eq_ok hs).2.2, (ofConfig_eq_ok hs').2.2, hthreshold]
  · exact functionsOf_of_forPath? (fun l hl => forPath?_of_narrows hs hs' h hl) hne

end Narrows

/-- In a tree with proper names, a report has no two entries of one path. -/
theorem eq_of_mem_scanAll (hw : w.root.WellFormed) {root : Path} {r : ScanReport}
    (hr : s.scanAll w root = .ok r) {x y : FileReport} (hx : x ∈ r.files) (hy : y ∈ r.files)
    (hpath : x.path = y.path) : x = y := by
  obtain ⟨es, hfind⟩ := scanAll_isOk_iff.mp ⟨r, hr⟩
  obtain ⟨l, -, hat⟩ := Workspace.find_eq_ok_iff.mp hfind
  have hn := Node.wellFormed_of_at? hw hat
  rw [scanAll_of_directory hfind rfl] at hr
  cases hr
  obtain ⟨p, hp, rfl, -⟩ := mem_scanPaths.mp hx
  obtain ⟨q, hq, rfl, -⟩ := mem_scanPaths.mp hy
  obtain ⟨a, f, ha, rfl, -⟩ := (mem_sources hn).mp hp
  obtain ⟨b, g, hb, rfl, -⟩ := (mem_sources hn).mp hq
  rw [path_reportOn, path_reportOn] at hpath
  rw [Location.displayFrom_relative_injective (Node.isFileName_of_at? hn ha)
    (Node.isFileName_of_at? hn hb) hpath]

/-- **Narrower settings report less and nothing else.** Let two settings with the same threshold
make a scanner each, and let the first enable no other languages than the second, and have all
its patterns. A scan of all files fails with both for the same reason or with neither. The files
that it reports with the first are some of those that it reports with the second, in the same
order and with the same reports; so no violation is new. If each of the two settings narrows the
other, the scans come to the same. -/
theorem scanAll_of_narrows (hs : ofConfig c = .ok s) (hs' : ofConfig c' = .ok s')
    (hthreshold : c.threshold = c'.threshold) (h : c.Narrows c') (w : Workspace) (root : Path) :
    (∀ p, s.scanAll w root = .error p ↔ s'.scanAll w root = .error p) ∧
    (∀ r r', s.scanAll w root = .ok r → s'.scanAll w root = .ok r' →
      r.files.Sublist r'.files ∧
      (w.root.WellFormed → ∀ x ∈ r.files, ∀ y ∈ r'.files, x.path = y.path → x = y) ∧
      r.violations.Sublist r'.violations ∧ (r.hasViolations → r'.hasViolations)) ∧
    (c'.Narrows c → s.scanAll w root = s'.scanAll w root) := by
  have hfails : ∀ p, s.scanAll w root = .error p ↔ s'.scanAll w root = .error p :=
    fun p => scanAll_eq_error_iff s s'
  refine ⟨hfails, ?_, ?_⟩
  · intro r r' hr hr'
    have hfiles := files_sublist_of_narrows hs hs' h hthreshold hr hr'
    refine ⟨hfiles, fun hw x hx y hy hpath => ?_, ScanReport.violations_sublist hfiles,
      ScanReport.hasViolations_of_sublist hfiles⟩
    exact eq_of_mem_scanAll hw hr' (hfiles.subset hx) hy hpath
  · intro h'
    cases hr : s.scanAll w root with
    | error p => rw [(hfails p).mp hr]
    | ok r =>
      cases hr' : s'.scanAll w root with
      | error p => rw [(hfails p).mpr hr'] at hr; cases hr
      | ok r' =>
        have hfiles := (files_sublist_of_narrows hs hs' h hthreshold hr hr').antisymm
          (files_sublist_of_narrows hs' hs h' hthreshold.symm hr' hr)
        obtain ⟨files⟩ := r
        obtain ⟨files'⟩ := r'
        cases hfiles
        rfl

/-- Ignoring a directory drops what is in it and keeps what is beside it, be the language enabled
by a key in other letters and beside others. -/
theorem scanAll_of_ignored_directory :
    ∃ s s' r r', ofConfig { languages := ["Python"], ignore := ["pkg"] } = .ok s ∧
      ofConfig { languages := ["javascript", "python"], ignore := [] } = .ok s' ∧
      s.scanAll (.halfStaged .soundSource) ⟨"."⟩ = .ok r ∧
      s'.scanAll (.halfStaged .soundSource) ⟨"."⟩ = .ok r' ∧
      r.files.Sublist r'.files ∧ r.violations.Sublist r'.violations ∧
      ¬ r.Shows "pkg/a.py" ∧ r'.Shows "pkg/a.py" := by
  have hnarrows : Config.Narrows { languages := ["Python"], ignore := ["pkg"] }
      { languages := ["javascript", "python"], ignore := [] } :=
    ⟨by decide, by simp⟩
  obtain ⟨s, hs⟩ : ∃ s, ofConfig { languages := ["Python"], ignore := ["pkg"] } = .ok s := ⟨_, rfl⟩
  obtain ⟨s', hs'⟩ : ∃ s', ofConfig { languages := ["javascript", "python"], ignore := [] }
    = .ok s' := ⟨_, rfl⟩
  have hw := Workspace.halfStaged_wellFormed .soundSource
  have hroot : (Workspace.halfStaged .soundSource).resolve ⟨"."⟩ = .ok [] :=
    (Workspace.oneStaged_here _ _).1
  have hdir := Workspace.find_eq_ok_iff.mpr ⟨[], hroot, rfl⟩
  have hfile : (Workspace.halfStaged .soundSource).root.at? ([] ++ ["pkg", "a.py"])
      = some (.file .soundSource) := rfl
  obtain ⟨r, hr⟩ := (scanAll_isOk_iff (s := s)).mpr ⟨_, hdir⟩
  obtain ⟨r', hr'⟩ := (scanAll_isOk_iff (s := s')).mpr ⟨_, hdir⟩
  obtain ⟨hfiles, -, hviolations, -⟩ :=
    (scanAll_of_narrows hs hs' rfl hnarrows (.halfStaged .soundSource) ⟨"."⟩).2.1 r r' hr hr'
  refine ⟨s, s', r, r', hs, hs', hr, hr', hfiles, hviolations, ?_, ?_⟩
  · intro hshows
    have hkept := ((shows_scanAll_iff hw (ofConfig_eq_ok hs).1 hroot hfile hr).mp hshows).1
    rw [IgnoreFilter.ignores_ofPatterns (ofPatterns_of_ofConfig hs)] at hkept
    revert hkept
    decide +kernel
  · refine (shows_scanAll_iff hw (ofConfig_eq_ok hs').1 hroot hfile hr').mpr ⟨?_, ?_⟩
    · rw [IgnoreFilter.ignores_ofPatterns (ofPatterns_of_ofConfig hs')]
      rfl
    · exact ⟨.python, by decide, ⟨"py", by decide, by decide⟩, rfl, by decide +kernel⟩

end Scanner

end DocGate

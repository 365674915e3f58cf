/-
DocGate.Proofs.Scanner.StagedAgreement — staged files among all files.

A scan of the staged files and a scan of all files find their files in different ways:
in the index of the repository, and by a walk.

* `Scanner.keepsStaged_eq_sources` — what the one keeps of the index is what the index
  has of what the other finds, because both come in the strict order of their paths.
* `Scanner.functionsOf_below` — a file has the same functions whether it is read from
  the work tree or from the directory.
* `scanStaged_agrees_with_scanAll` — the reports of the one are those of the other whose
  paths are staged.

The side conditions are that the work tree is the directory that is scanned, that staged
paths which lead to a file do so without a link (`Workspace.HasPlainFile`), that both
scans know the same languages, and that tree and repository are as on a disk.
-/
import DocGate.Proofs.Scanner.Reports

namespace DocGate

namespace Workspace

/-- A path leads from a place to a file, and no link is on the way. -/
def HasPlainFile (w : Workspace) (l : Location) (p : Path) : Prop :=
  ∃ rest f, w.root.at? (l ++ rest) = some (.file f) ∧ rest.relative = p

theorem find_of_discover {w : Workspace} {p : Path} {x : Location × Repository}
    (h : w.discover p = .ok x) : ∃ es, w.find p = .ok (.directory es) := by
  unfold discover at h
  split at h
  · rename_i es l hfind hnominal
    exact ⟨es, hfind⟩
  · cases h

end Workspace

namespace Scanner

variable {s : Scanner} {w : Workspace} {root : Path} {l : Location}

/-- The functions of a file below a directory do not depend on how the directory is named. -/
theorem functionsOf_below (registry : Registry) {base base' : Path} {rest : Location} {f : File}
    (hbase : w.resolve base = .ok l) (hbase' : w.resolve base' = .ok l) (hrest : rest ≠ [])
    (hnames : ∀ name ∈ rest, IsFileName name) (hat : w.root.at? (l ++ rest) = some (.file f)) :
    functionsOf w registry (base.join rest.relative)
      = functionsOf w registry (base'.join rest.relative) := by
  have hfind := Workspace.find_join hbase hrest hnames hat (by simp)
  have hfind' := Workspace.find_join hbase' hrest hnames hat (by simp)
  refine functionsOf_congr ?_ ?_
  · rw [Registry.forPath?_relative registry base hrest hnames,
      Registry.forPath?_relative registry base' hrest hnames]
  · rw [Workspace.readSource?, Workspace.readBytes, hfind, Workspace.readSource?,
      Workspace.readBytes, hfind']

/-- What is kept of the staged paths are the staged ones among the files that a walk finds. -/
theorem keepsStaged_eq_sources {es : List (String × Node)} {paths : List Path}
    (hw : w.root.WellFormed) (hat : w.root.at? l = some (.directory es))
    (hregistry : s.stagedRegistry = s.registry)
    (hpaths : paths.Pairwise fun p q => p.lt q)
    (hplain : ∀ p ∈ paths, w.hasFile (l.absolute.join p) → w.HasPlainFile l p) :
    paths.filter (s.keepsStaged w l.absolute)
      = (s.sources (.directory es)).filter (fun p => p ∈ paths) := by
  have hn := Node.wellFormed_of_at? hw hat
  have hbase := Workspace.resolve_absolute (Node.isFileName_of_at? hw hat) hat
  refine Path.eq_of_pairwise_lt (hpaths.filter _) ((sources_pairwise hn).filter _) fun p => ?_
  rw [List.mem_filter, List.mem_filter, mem_sources hn, decide_eq_true_iff, keepsStaged, hregistry,
    Bool.and_eq_true, Bool.and_eq_true, IgnoreFilter.includes, Bool.not_eq_true']
  constructor
  · rintro ⟨hp, ⟨hfile, hig⟩, hlanguage⟩
    obtain ⟨rest, f, hrest, rfl⟩ := hplain p hp hfile
    rw [Node.at?_below hat] at hrest
    exact ⟨⟨rest, f, hrest, rfl, hig, hlanguage⟩, hp⟩
  · rintro ⟨⟨rest, f, hrest, rfl, hig, hlanguage⟩, hp⟩
    rw [← Node.at?_below hat] at hrest
    obtain ⟨hne, hnames⟩ := Workspace.file_below hw hat hrest
    have hfind := Workspace.find_join hbase hne hnames hrest (by simp)
    exact ⟨hp, ⟨Workspace.hasFile_iff.mpr ⟨f, hfind⟩, hig⟩, hlanguage⟩

/-- **A scan of staged files agrees with a scan of all files.** Let the work tree of a repository
be the directory that is scanned, let the same languages be looked at among all files and among
staged ones, and let staged paths that lead to a file do so without a link. Then the scan of the
staged files reports some of the files that the scan of all files reports, in the same order and
with the same reports, and these are all whose paths are staged. -/
theorem scanStaged_agrees_with_scanAll {c : Config} {r : Repository}
    (hs : Scanner.ofConfig c = .ok s)
    (hlanguages : ∀ key, key ∈ c.stagedLanguages ↔ key ∈ c.languages)
    (hw : w.root.WellFormed) (hr : r.WellFormed)
    (hroot : w.resolve root = .ok l) (hrepo : w.discover root = .ok (l, r))
    (hplain : ∀ paths, r.staged = .ok paths → ∀ p ∈ paths,
      w.hasFile (l.absolute.join p) → w.HasPlainFile l p) :
    ∃ full, s.scanAll w root = .ok full ∧
      (s.scanStaged w root).files.Sublist full.files ∧
      ∀ paths, r.staged = .ok paths →
        (s.scanStaged w root).files
            = full.showing (fun name => name ∈ paths.map (Path.displayFrom none)) ∧
          ∀ x ∈ full.files, x.path ∈ paths.map (Path.displayFrom none) →
            x ∈ (s.scanStaged w root).files := by
  obtain ⟨es, hfind⟩ := Workspace.find_of_discover hrepo
  have hat := Workspace.at?_of_find hroot hfind
  obtain ⟨hkeys, hstagedKeys, -⟩ := ofConfig_eq_ok hs
  have hregistry : s.stagedRegistry = s.registry := by
    rw [hstagedKeys, hkeys, Registry.ofKeys_congr hlanguages]
  have hn := Node.wellFormed_of_at? hw hat
  have hbase := Workspace.resolve_absolute (Node.isFileName_of_at? hw hat) hat
  -- the reports on staged files, chosen among the reports on all files
  have hchosen : ∀ paths, r.staged = .ok paths → (s.scanStaged w root).files
      = (s.scanPaths w s.registry root (s.sources (.directory es))).showing
          (fun name => name ∈ paths.map (Path.displayFrom none)) := by
    intro paths hpaths
    obtain ⟨horder, hplaces⟩ := Repository.staged_order hr hpaths
    rw [scanStaged_of_staged hrepo hpaths, hregistry,
      keepsStaged_eq_sources hw hat hregistry horder (hplain paths hpaths)]
    rw [showing_scanPaths root (s.sources (.directory es))
      (fun name => name ∈ paths.map (Path.displayFrom none)) (fun p => p ∈ paths)]
    · refine congrArg ScanReport.files (scanPaths_congr fun p hp => ?_)
      obtain ⟨rest, f, hrest, rfl, -⟩ := (mem_sources hn).mp (List.mem_filter.mp hp).1
      rw [← Node.at?_below hat] at hrest
      obtain ⟨hne, hnames⟩ := Workspace.file_below hw hat hrest
      exact functionsOf_below s.registry hbase hroot hne hnames hrest
    · -- different staged paths are shown differently
      intro p hp
      obtain ⟨rest, f, hrest, rfl, -⟩ := (mem_sources hn).mp hp
      rw [decide_eq_decide, List.mem_map]
      constructor
      · rintro ⟨q, hq, hshown⟩
        obtain ⟨m, hm, rfl⟩ := hplaces q hq
        rwa [← Location.displayFrom_relative_injective hm (Node.isFileName_of_at? hn hrest) hshown]
      · intro hp
        exact ⟨_, hp, rfl⟩
  refine ⟨_, scanAll_of_directory hfind rfl, ?_, fun paths hpaths => ⟨hchosen paths hpaths, ?_⟩⟩
  · cases hstaged : r.staged with
    | ok paths =>
      rw [hchosen paths hstaged]
      exact List.filter_sublist
    | error fault =>
      have hnone : w.stagedFiles root = .error fault := by
        simp only [Workspace.stagedFiles, hrepo, hstaged, bind, Except.bind]
      rw [scanStaged_of_error hnone]
      exact List.nil_sublist _
  · intro x hx hpath
    rw [hchosen paths hpaths]
    exact List.mem_filter.mpr ⟨hx, decide_eq_true hpath⟩

theorem scanStaged_of_halfStaged :
    ∃ full, Scanner.forPython.scanAll (.halfStaged .soundSource) ⟨"."⟩ = .ok full ∧
      full.Shows "pkg/a.py" ∧ full.Shows "b.py" ∧
      (Scanner.forPython.scanStaged (.halfStaged .soundSource) ⟨"."⟩).files
        = full.showing (fun name => name ∈ ["pkg/a.py"]) := by
  have hw := Workspace.halfStaged_wellFormed .soundSource
  obtain ⟨hroot, hrepo⟩ : (Workspace.halfStaged .soundSource).resolve ⟨"."⟩ = .ok [] ∧
      (Workspace.halfStaged .soundSource).discover ⟨"."⟩
        = .ok ([], .oneStaged ["pkg", "a.py"]) := Workspace.oneStaged_here _ _
  have hstaged := Repository.staged_oneStaged ["pkg", "a.py"]
  have hplain : ∀ paths, (Repository.oneStaged ["pkg", "a.py"]).staged = .ok paths →
      ∀ p ∈ paths, (Workspace.halfStaged .soundSource).hasFile ((Location.absolute []).join p) →
        (Workspace.halfStaged .soundSource).HasPlainFile [] p := by
    intro paths hpaths p hp _
    rw [hstaged] at hpaths
    cases hpaths
    cases List.mem_singleton.mp hp
    exact ⟨["pkg", "a.py"], .soundSource, rfl, rfl⟩
  obtain ⟨full, hfull, -, hagree⟩ := scanStaged_agrees_with_scanAll ofConfig_forPython
    (fun key => Iff.rfl) hw (Repository.oneStaged_wellFormed (by decide)) hroot hrepo hplain
  refine ⟨full, hfull, ?_, ?_, (hagree _ hstaged).1⟩
  · have hfile : (Workspace.halfStaged .soundSource).root.at? ([] ++ ["pkg", "a.py"])
        = some (.file .soundSource) := rfl
    exact (shows_scanAll_iff hw rfl hroot hfile hfull).mpr (isReported_soundSource (by decide))
  · have hfile : (Workspace.halfStaged .soundSource).root.at? ([] ++ ["b.py"])
        = some (.file .soundSource) := rfl
    exact (shows_scanAll_iff hw rfl hroot hfile hfull).mpr (isReported_soundSource (by decide))

end Scanner

end DocGate

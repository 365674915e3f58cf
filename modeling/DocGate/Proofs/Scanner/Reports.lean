/-
DocGate.Proofs.Scanner.Reports — what a scan reports.

Both kinds of scan choose paths and report on each of them, leaving out the files
without functions.

* `Scanner.mem_scanPaths` — what is reported on the paths that are chosen.
* `Scanner.showing_scanPaths` — choosing among the reports by the name that is shown is
  choosing among the paths, if the names can be told apart.
* `Scanner.scanPaths_congr` — the reports are the same where the functions of the files
  are.
* `Scanner.functionsOf_ne_nil_iff` — a file has functions if it is in a registered
  language, can be read, and its text has units.
* `Scanner.scanAll_isOk_iff` — a scan of a directory fails only if there is no
  directory.
* `Scanner.shows_scanAll_iff`, `Scanner.shows_scanStaged_iff` — which files are reported
  does not depend on any other file.

The last two are about trees as they are on a disk (`Node.WellFormed`), where a location
leads to one file.
-/
import DocGate.Proofs.IgnoreFilter.Patterns
import DocGate.Proofs.Language.Registry
import DocGate.Proofs.Path.Display
import DocGate.Proofs.Report.Totals
import DocGate.Proofs.Repository.Staged
import DocGate.Proofs.Workspace.Resolution
import DocGate.Proofs.Workspace.Walk

namespace DocGate

theorem Workspace.readSource?_eq_some_iff {w : Workspace} {p : Path} {source : String} :
    w.readSource? p = some source
      ↔ ∃ f, w.find p = .ok (.file f) ∧ f.readable ∧ Utf8.decode f.content = source := by
  unfold readSource? readBytes
  cases w.find p with
  | error fault => simp
  | ok n =>
    cases n with
    | file f => cases hf : f.readable <;> simp [hf]
    | link target => simp
    | directory es => simp

namespace ScanReport

/-- The reports that are shown by certain names. -/
def showing (r : ScanReport) (shown : String → Bool) : List FileReport :=
  r.files.filter fun x => shown x.path

/-- A report shows a file by a name. -/
def Shows (r : ScanReport) (name : String) : Prop := ∃ x ∈ r.files, x.path = name

end ScanReport

namespace Scanner

variable {s : Scanner} {w w' : Workspace} {registry registry' : Registry}

theorem ofConfig_eq_ok {c : Config} (h : ofConfig c = .ok s) :
    s.registry = .ofKeys c.languages ∧ s.stagedRegistry = .ofKeys c.stagedLanguages ∧
      s.threshold = c.threshold := by
  unfold ofConfig at h
  split at h
  · cases h
    exact ⟨rfl, rfl, rfl⟩
  · cases h

theorem ofPatterns_of_ofConfig {c : Config} (h : ofConfig c = .ok s) :
    IgnoreFilter.ofPatterns c.ignore = .ok s.ignore := by
  unfold ofConfig at h
  split at h
  · rename_i ignore hignore
    cases h
    exact hignore
  · cases h

/-! ## The functions of a file -/

theorem functionsOf_ne_nil_iff {path : Path} :
    functionsOf w registry path ≠ []
      ↔ ∃ language source, registry.forPath? path = some language ∧
          w.readSource? path = some source ∧ language.units source ≠ [] := by
  unfold functionsOf
  cases registry.forPath? path with
  | none => simp
  | some language =>
    cases w.readSource? path with
    | none => simp
    | some source => simp

theorem functionsOf_congr {path path' : Path}
    (hlanguage : registry.forPath? path = registry'.forPath? path')
    (hsource : w.readSource? path = w'.readSource? path') :
    functionsOf w registry path = functionsOf w' registry' path' := by
  rw [functionsOf, hlanguage, hsource, functionsOf]

/-! ## Reports on given paths -/

theorem path_reportOn (path : Path) (shown : String) :
    (s.reportOn w registry path shown).path = shown := by
  rw [reportOn, FileReport.check]

theorem functions_reportOn (path : Path) (shown : String) :
    (s.reportOn w registry path shown).functions = functionsOf w registry path := by
  rw [reportOn, FileReport.check]

theorem functionCount_reportOn (path : Path) (shown : String) :
    (s.reportOn w registry path shown).functionCount = (functionsOf w registry path).length := by
  rw [FileReport.functionCount, functions_reportOn]

theorem mem_scanPaths {base : Path} {ps : List Path} {x : FileReport} :
    x ∈ (s.scanPaths w registry base ps).files
      ↔ ∃ p ∈ ps, s.reportOn w registry (base.join p) (p.displayFrom none) = x ∧
          functionsOf w registry (base.join p) ≠ [] := by
  rw [scanPaths, List.mem_filter, List.mem_map]
  constructor
  · rintro ⟨⟨p, hp, rfl⟩, hcount⟩
    rw [functionCount_reportOn, decide_eq_true_iff, List.length_pos_iff] at hcount
    exact ⟨p, hp, rfl, hcount⟩
  · rintro ⟨p, hp, rfl, hne⟩
    refine ⟨⟨p, hp, rfl⟩, ?_⟩
    rw [functionCount_reportOn, decide_eq_true_iff, List.length_pos_iff]
    exact hne

/-- A report keeps no file without functions, and all its files are checked against the
threshold. -/
theorem of_mem_scanPaths {base : Path} {ps : List Path} {x : FileReport}
    (h : x ∈ (s.scanPaths w registry base ps).files) :
    x.functions ≠ [] ∧ x = .check s.threshold x.path x.functions := by
  obtain ⟨p, -, rfl, hne⟩ := mem_scanPaths.mp h
  rw [functions_reportOn, path_reportOn]
  exact ⟨hne, by rw [reportOn]⟩

/-- Which reports are shown by certain names depends on which paths are. -/
theorem showing_scanPaths (base : Path) (ps : List Path) (shown : String → Bool)
    (keep : Path → Bool) (h : ∀ p ∈ ps, shown (p.displayFrom none) = keep p) :
    (s.scanPaths w registry base ps).showing shown
      = (s.scanPaths w registry base (ps.filter keep)).files := by
  have hkeep : ps.filter ((fun x => shown x.path) ∘ fun p =>
      s.reportOn w registry (base.join p) (p.displayFrom none)) = ps.filter keep := by
    refine List.filter_congr fun p hp => ?_
    rw [Function.comp_apply, path_reportOn, h p hp]
  rw [ScanReport.showing, scanPaths, scanPaths, List.filter_comm, List.filter_map, hkeep]

/-- Reports are the same where the functions of the files are. -/
theorem scanPaths_congr {base base' : Path} {ps : List Path}
    (h : ∀ p ∈ ps, functionsOf w registry (base.join p) = functionsOf w' registry' (base'.join p)) :
    s.scanPaths w registry base ps = s.scanPaths w' registry' base' ps := by
  have hmap : ps.map (fun p => s.reportOn w registry (base.join p) (p.displayFrom none))
      = ps.map (fun p => s.reportOn w' registry' (base'.join p) (p.displayFrom none)) := by
    refine List.map_congr_left fun p hp => ?_
    rw [reportOn, h p hp, reportOn]
  rw [scanPaths, hmap, scanPaths]

/-- A path has a report exactly if it is one of the given ones and its file has functions,
provided that no other path is shown by the same name. -/
theorem shows_scanPaths_iff {base : Path} {ps : List Path} {p : Path}
    (hshown : ∀ q ∈ ps, q.displayFrom none = p.displayFrom none → q = p) :
    (s.scanPaths w registry base ps).Shows (p.displayFrom none)
      ↔ p ∈ ps ∧ functionsOf w registry (base.join p) ≠ [] := by
  constructor
  · rintro ⟨x, hx, hpath⟩
    obtain ⟨q, hq, rfl, hne⟩ := mem_scanPaths.mp hx
    rw [path_reportOn] at hpath
    cases hshown q hq hpath
    exact ⟨hq, hne⟩
  · rintro ⟨hp, hne⟩
    exact ⟨_, mem_scanPaths.mpr ⟨p, hp, rfl, hne⟩, path_reportOn _ _⟩

/-! ## The files below a directory -/

/-- The files below a directory that a scan looks at. -/
def sources (s : Scanner) (n : Node) : List Path :=
  ((n.walk s.ignore).map Location.relative).filter fun p => (s.registry.forPath? p).isSome

theorem mem_sources {n : Node} (hn : n.WellFormed) {p : Path} :
    p ∈ s.sources n ↔ ∃ l f, n.at? l = some (.file f) ∧ l.relative = p ∧
      s.ignore.ignores p = false ∧ (s.registry.forPath? p).isSome := by
  rw [sources, List.mem_filter, List.mem_map]
  constructor
  · rintro ⟨⟨l, hl, rfl⟩, hlanguage⟩
    obtain ⟨⟨f, hat⟩, hinc⟩ := (Node.mem_walk hn s.ignore l).mp hl
    exact ⟨l, f, hat, rfl, by simpa [IgnoreFilter.includes] using hinc, hlanguage⟩
  · rintro ⟨l, f, hat, rfl, hig, hlanguage⟩
    refine ⟨⟨l, (Node.mem_walk hn s.ignore l).mpr ⟨⟨f, hat⟩, ?_⟩, rfl⟩, hlanguage⟩
    simp [IgnoreFilter.includes, hig]

theorem sources_pairwise {n : Node} (hn : n.WellFormed) :
    (s.sources n).Pairwise fun p q => p.lt q :=
  (Node.walk_pairwise hn s.ignore).filter _

theorem scanAll_of_directory {root : Path} {n : Node} (hfind : w.find root = .ok n)
    (hdir : n.isDirectory) :
    s.scanAll w root = .ok (s.scanPaths w s.registry root (s.sources n)) := by
  rw [scanAll, filesBelow, hfind]
  simp only [hdir, if_true]
  rfl

theorem scanAll_of_not_directory {root : Path}
    (h : ∀ es, w.find root ≠ .ok (.directory es)) :
    s.scanAll w root = match w.find root with
      | .ok _ => .error (.rootNotDirectory root)
      | .error fault => .error (.unreadable root fault) := by
  rw [scanAll, filesBelow]
  cases hfind : w.find root with
  | error fault => rfl
  | ok n =>
    cases n with
    | file f => rfl
    | link target => rfl
    | directory es => exact absurd hfind (h es)

theorem scanAll_isOk_iff {root : Path} :
    (∃ r, s.scanAll w root = .ok r) ↔ ∃ es, w.find root = .ok (.directory es) := by
  constructor
  · rintro ⟨r, hr⟩
    refine Classical.byContradiction fun hnot => ?_
    rw [scanAll_of_not_directory fun es hes => hnot ⟨es, hes⟩] at hr
    split at hr <;> cases hr
  · rintro ⟨es, hes⟩
    exact ⟨_, scanAll_of_directory hes rfl⟩

/-- Why a scan of a directory fails does not depend on the settings. -/
theorem scanAll_eq_error_iff (s s' : Scanner) {root : Path} {p : Problem} :
    s.scanAll w root = .error p ↔ s'.scanAll w root = .error p := by
  by_cases hdir : ∃ es, w.find root = .ok (.directory es)
  · obtain ⟨r, hr⟩ := (scanAll_isOk_iff (s := s)).mpr hdir
    obtain ⟨r', hr'⟩ := (scanAll_isOk_iff (s := s')).mpr hdir
    simp [hr, hr']
  · rw [scanAll_of_not_directory fun es hes => hdir ⟨es, hes⟩,
      scanAll_of_not_directory fun es hes => hdir ⟨es, hes⟩]

/-! ## The staged files -/

theorem scanStaged_of_staged {root : Path} {l : Location} {r : Repository} {paths : List Path}
    (hrepo : w.discover root = .ok (l, r)) (hpaths : r.staged = .ok paths) :
    s.scanStaged w root
      = s.scanPaths w s.stagedRegistry l.absolute (paths.filter (s.keepsStaged w l.absolute)) := by
  have hfiles : w.stagedFiles root = .ok (l, paths) := by
    simp only [Workspace.stagedFiles, hrepo, hpaths, bind, Except.bind, pure, Except.pure]
  rw [scanStaged, hfiles]

theorem scanStaged_of_error {root : Path} {fault : RepositoryFault}
    (h : w.stagedFiles root = .error fault) : s.scanStaged w root = {} := by
  rw [scanStaged, h]

/-- Files of a report on staged files are like those of any other report. -/
theorem of_mem_scanStaged {root : Path} {x : FileReport} (h : x ∈ (s.scanStaged w root).files) :
    x.functions ≠ [] ∧ x = .check s.threshold x.path x.functions := by
  unfold scanStaged at h
  split at h
  · cases h
  · exact of_mem_scanPaths h

theorem of_mem_scanAll {root : Path} {r : ScanReport} (hr : s.scanAll w root = .ok r)
    {x : FileReport} (h : x ∈ r.files) :
    x.functions ≠ [] ∧ x = .check s.threshold x.path x.functions := by
  unfold scanAll at hr
  split at hr
  · cases hr
  · cases hr
    exact of_mem_scanPaths h

/-! ## Which files are reported -/

/-- A file is one to report if it is not ignored, has the suffix of a language that a key
enables, can be read, and its text has units. -/
def IsReported (keys : List String) (ignore : IgnoreFilter) (p : Path) (f : File) : Prop :=
  ignore.ignores p = false ∧ ∃ language : Language,
    (∃ key ∈ keys, language.hasKey key) ∧
    (∃ e, p.extension? = some e ∧ "." ++ e ∈ language.suffixes) ∧
    f.readable ∧ language.units (Utf8.decode f.content) ≠ []

variable {l rest : Location} {f : File} {keys : List String}

/-- When the file that a path leads to has functions. -/
theorem functionsOf_ofKeys_ne_nil_iff {p : Path} (hfind : w.find p = .ok (.file f)) :
    functionsOf w (.ofKeys keys) p ≠ []
      ↔ ∃ language : Language, (∃ key ∈ keys, language.hasKey key) ∧
          (∃ e, p.extension? = some e ∧ "." ++ e ∈ language.suffixes) ∧
          f.readable ∧ language.units (Utf8.decode f.content) ≠ [] := by
  rw [functionsOf_ne_nil_iff]
  refine exists_congr fun language => ?_
  simp only [Registry.forPath?_ofKeys_eq_some_iff, Workspace.readSource?_eq_some_iff, hfind]
  constructor
  · rintro ⟨source, ⟨hkey, hsuffix⟩, ⟨g, hg, hreadable, rfl⟩, hunits⟩
    cases hg
    exact ⟨hkey, hsuffix, hreadable, hunits⟩
  · rintro ⟨hkey, hsuffix, hreadable, hunits⟩
    exact ⟨_, ⟨hkey, hsuffix⟩, ⟨f, rfl, hreadable, rfl⟩, hunits⟩

/-- When a file that is seen from a directory has functions. -/
theorem functionsOf_join_ne_nil_iff {base : Path} (hrest : rest ≠ [])
    (hnames : ∀ name ∈ rest, IsFileName name)
    (hfind : w.find (base.join rest.relative) = .ok (.file f)) :
    functionsOf w (.ofKeys keys) (base.join rest.relative) ≠ []
      ↔ ∃ language : Language, (∃ key ∈ keys, language.hasKey key) ∧
          (∃ e, rest.relative.extension? = some e ∧ "." ++ e ∈ language.suffixes) ∧
          f.readable ∧ language.units (Utf8.decode f.content) ≠ [] := by
  rw [functionsOf_ofKeys_ne_nil_iff hfind, Location.extension?_join_relative base hrest hnames]

/-- A file that is one to report is in some language. -/
theorem IsReported.isSome_forPath? {ignore : IgnoreFilter} {p : Path}
    (h : IsReported keys ignore p f) : ((Registry.ofKeys keys).forPath? p).isSome := by
  obtain ⟨-, language, hkey, hsuffix, -⟩ := h
  have hlanguage := (Registry.forPath?_ofKeys_eq_some_iff keys p language).mpr ⟨hkey, hsuffix⟩
  exact Option.isSome_of_eq_some hlanguage

/-- A scan of a directory reports the files below it that are to be reported. -/
theorem shows_scanAll_iff {root : Path} {r : ScanReport} (hw : w.root.WellFormed)
    (hregistry : s.registry = .ofKeys keys) (hroot : w.resolve root = .ok l)
    (hfile : w.root.at? (l ++ rest) = some (.file f)) (hr : s.scanAll w root = .ok r) :
    r.Shows (rest.relative.displayFrom none) ↔ IsReported keys s.ignore rest.relative f := by
  obtain ⟨es, hdir⟩ := scanAll_isOk_iff.mp ⟨r, hr⟩
  have hat := Workspace.at?_of_find hroot hdir
  obtain ⟨hrest, hnames⟩ := Workspace.file_below hw hat hfile
  have hn := Node.wellFormed_of_at? hw hat
  have hfind := Workspace.find_join hroot hrest hnames hfile (by simp)
  rw [scanAll_of_directory hdir rfl] at hr
  cases hr
  rw [hregistry, shows_scanPaths_iff, mem_sources hn, hregistry,
    functionsOf_join_ne_nil_iff hrest hnames hfind]
  · constructor
    · rintro ⟨⟨-, -, -, -, hig, -⟩, hfunctions⟩
      exact ⟨hig, hfunctions⟩
    · intro h
      rw [Node.at?_below hat] at hfile
      exact ⟨⟨rest, f, hfile, rfl, h.1, h.isSome_forPath?⟩, h.2⟩
  · intro q hq hshown
    obtain ⟨m, g, hm, rfl, -⟩ := (mem_sources hn).mp hq
    rw [Location.displayFrom_relative_injective (Node.isFileName_of_at? hn hm) hnames hshown]

section Staged

variable {root : Path} {repo : Repository} {paths : List Path}

/-- A staged path is reported if it is looked at and its file has functions. -/
theorem shows_scanStaged_path_iff (hrepo : repo.WellFormed)
    (hfound : w.discover root = .ok (l, repo)) (hpaths : repo.staged = .ok paths)
    (hnames : ∀ name ∈ rest, IsFileName name) :
    (s.scanStaged w root).Shows (rest.relative.displayFrom none)
      ↔ (rest.relative ∈ paths ∧ s.keepsStaged w l.absolute rest.relative) ∧
          functionsOf w s.stagedRegistry (l.absolute.join rest.relative) ≠ [] := by
  have hshown : ∀ q ∈ paths.filter (s.keepsStaged w l.absolute),
      q.displayFrom none = rest.relative.displayFrom none → q = rest.relative := by
    intro q hq hshown
    obtain ⟨m, hm, rfl⟩ := (Repository.staged_order hrepo hpaths).2 q (List.mem_filter.mp hq).1
    rw [Location.displayFrom_relative_injective hm hnames hshown]
  rw [scanStaged_of_staged hfound hpaths, shows_scanPaths_iff hshown, List.mem_filter]

/-- A staged path that leads to a file is reported if the file is one to report. -/
theorem shows_scanStaged_of_find (hrepo : repo.WellFormed)
    (hregistry : s.stagedRegistry = .ofKeys keys) (hfound : w.discover root = .ok (l, repo))
    (hpaths : repo.staged = .ok paths) (hrest : rest ≠ [])
    (hnames : ∀ name ∈ rest, IsFileName name)
    (hfind : w.find (l.absolute.join rest.relative) = .ok (.file f)) :
    (s.scanStaged w root).Shows (rest.relative.displayFrom none)
      ↔ rest.relative ∈ paths ∧ IsReported keys s.ignore rest.relative f := by
  rw [shows_scanStaged_path_iff hrepo hfound hpaths hnames, keepsStaged, hregistry,
    functionsOf_join_ne_nil_iff hrest hnames hfind, Bool.and_eq_true, Bool.and_eq_true,
    IgnoreFilter.includes, Bool.not_eq_true']
  constructor
  · rintro ⟨⟨hp, ⟨-, hig⟩, -⟩, hfunctions⟩
    exact ⟨hp, hig, hfunctions⟩
  · rintro ⟨hp, h⟩
    exact ⟨⟨hp, ⟨Workspace.hasFile_iff.mpr ⟨f, hfind⟩, h.1⟩, h.isSome_forPath?⟩, h.2⟩

/-- A scan of staged files reports the staged ones among the files that are to be reported. -/
theorem shows_scanStaged_iff (hw : w.root.WellFormed) (hrepo : repo.WellFormed)
    (hregistry : s.stagedRegistry = .ofKeys keys) (hfound : w.discover root = .ok (l, repo))
    (hpaths : repo.staged = .ok paths) (hfile : w.root.at? (l ++ rest) = some (.file f)) :
    (s.scanStaged w root).Shows (rest.relative.displayFrom none)
      ↔ rest.relative ∈ paths ∧ IsReported keys s.ignore rest.relative f := by
  have hnames : ∀ name ∈ rest, IsFileName name := fun name hname =>
    Node.isFileName_of_at? hw hfile name (List.mem_append_right l hname)
  by_cases hrest : rest = []
  · -- a path without names has no suffix, so that it has no language
    subst hrest
    have hnone : (Registry.ofKeys keys).forPath? (Location.relative []) = none := by
      rw [Registry.forPath?]
      rfl
    rw [shows_scanStaged_path_iff hrepo hfound hpaths hnames, keepsStaged, hregistry, hnone]
    refine iff_of_false (by simp) ?_
    rintro ⟨-, h⟩
    have hlanguage := h.isSome_forPath?
    rw [hnone] at hlanguage
    cases hlanguage
  · have hplace := hfile
    rw [Node.at?_append, Option.bind_eq_some_iff] at hplace
    obtain ⟨n, hat, hbelow⟩ := hplace
    obtain ⟨a, rest, rfl⟩ := List.exists_cons_of_ne_nil hrest
    obtain ⟨es, -, rfl, -⟩ := Node.directory_of_at?_cons hbelow
    have hbase := Workspace.resolve_absolute (Node.isFileName_of_at? hw hat) hat
    exact shows_scanStaged_of_find hrepo hregistry hfound hpaths hrest hnames
      (Workspace.find_join hbase hrest hnames hfile (by simp))

end Staged

end Scanner

/-! ## Workspaces with one staged file -/

/-- Settings that look at one language and ignore nothing. -/
def Config.forPython : Config where
  languages := ["python"]
  ignore := []

/-- The scanner with these settings. -/
def Scanner.forPython : Scanner where
  registry := .ofKeys ["python"]
  stagedRegistry := .ofKeys ["python"]
  ignore := {}
  threshold := 10

/-- A source with one function. -/
def File.soundSource : File where
  content := Utf8.encode "def f():\n    return 0\n"

/-- A source with an error. -/
def File.brokenSource : File where
  content := Utf8.encode "def f(:\n"

/-- A repository without a commit and with one entry in its index. -/
def Repository.oneStaged (l : Location) : Repository where
  index := some [{ location := l, id := ⟨[]⟩ }]

/-- A workspace with such a repository at its root, where commands work. -/
def Workspace.oneStaged (l : Location) (es : List (String × Node)) : Workspace where
  root := .directory es
  repositories := [([], .oneStaged l)]

theorem Scanner.ofConfig_forPython : Scanner.ofConfig .forPython = .ok .forPython := rfl

theorem Repository.oneStaged_wellFormed {l : Location} (h : ∀ name ∈ l, IsFileName name) :
    (oneStaged l).WellFormed where
  head := by simp [oneStaged]
  index := by simpa [oneStaged, entries] using h

theorem Repository.staged_oneStaged (l : Location) : (oneStaged l).staged = .ok [l.relative] := by
  have hchanged : ([{ location := l, id := ⟨[]⟩ }] : List IndexEntry).filter (isChanged [])
      = [{ location := l, id := ⟨[]⟩ }] := rfl
  simp only [staged, oneStaged, headFiles, hchanged, List.map_singleton, sorted,
    List.mergeSort_singleton, dropRepeated, dropRepeatedFrom, IndexEntry.path]

theorem Workspace.oneStaged_here (l : Location) (es : List (String × Node)) :
    (oneStaged l es).resolve ⟨"."⟩ = .ok [] ∧
      (oneStaged l es).discover ⟨"."⟩ = .ok ([], .oneStaged l) :=
  discover_here rfl rfl rfl rfl

/-- A workspace with a staged file in a directory, and one beside the directory that is not
staged. -/
def Workspace.halfStaged (f : File) : Workspace :=
  .oneStaged ["pkg", "a.py"]
    [("pkg", .directory [("a.py", .file f)]), ("b.py", .file .soundSource)]

theorem Workspace.halfStaged_wellFormed (f : File) : (halfStaged f).root.WellFormed := by
  have hfile : IsFileName "a.py" := by decide
  have hnames : IsFileName "pkg" ∧ IsFileName "b.py" := by decide
  have hdirectory : (Node.directory [("a.py", .file f)]).WellFormed :=
    .directory _ (by simpa using hfile) (by simp) (by simpa using .file f)
  exact .directory _ (by simpa using hnames) (by simp) (by simpa using ⟨hdirectory, .file _⟩)

theorem Scanner.ignores_forPython (p : Path) : Scanner.forPython.ignore.ignores p = false :=
  IgnoreFilter.ignores_empty p

theorem Scanner.isReported_soundSource {p : Path} (h : p.extension? = some "py") :
    IsReported ["python"] Scanner.forPython.ignore p .soundSource :=
  ⟨ignores_forPython p, .python, by decide, ⟨"py", h, by decide⟩, rfl, by decide +kernel⟩

theorem Scanner.not_isReported_brokenSource {p : Path} :
    ¬ IsReported ["python"] Scanner.forPython.ignore p .brokenSource := by
  rintro ⟨-, language, hkey, -, -, hunits⟩
  have hpython : language = .python := by
    revert hkey
    cases language <;> decide
  subst hpython
  exact hunits (List.isEmpty_iff.mp (by decide +kernel))

end DocGate

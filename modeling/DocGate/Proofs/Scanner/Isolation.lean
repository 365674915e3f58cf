/-
DocGate.Proofs.Scanner.Isolation — what one file does to the reports on others.

* `Node.DifferAt` — two trees that differ in what one file holds, or in whether it can
  be read.
* `Node.DifferAt.sameShape` — they have the same shape: paths lead to the same places, a
  walk finds the same files and the same files are staged.
* `Scanner.functionsOf_of_differAt` — a path that leads elsewhere has the same functions
  in both.
* `reports_of_differing_file` — so a scan of all files reports the same on all others,
  and so does a scan of staged files as far as their paths do not lead to the file.
  Whether the file itself is reported is decided by the file.
* `scanStaged_changes_with_link_target` — a staged link leads to another file, and its
  report changes when that file does.

The side conditions are that both trees are as on a disk (`Node.WellFormed`), that the
settings make a scanner, and for staged files that the repository is well formed.
-/
import DocGate.Proofs.Scanner.Reports

namespace DocGate

namespace Node

/-- What is to be seen of a node at its own place: a file, a link, or that there is a
directory. -/
def face : Node → Node
  | directory _ => empty
  | n => n

/-- Two trees differ only in the file at a place, which is `f` in one and `g` in the other. -/
structure DifferAt (place : Location) (f g : File) (n m : Node) : Prop where
  left : n.at? place = some (.file f)
  right : m.at? place = some (.file g)
  elsewhere : ∀ l, l ≠ place → (n.at? l).map face = (m.at? l).map face

/-- What has the same face is the same, or else two directories. -/
theorem eq_or_directories_of_face {a b : Option Node} (h : a.map face = b.map face) :
    a = b ∨ ∃ es ds, a = some (.directory es) ∧ b = some (.directory ds) := by
  cases a with
  | none =>
    cases b with
    | none => exact Or.inl rfl
    | some d => simp at h
  | some c =>
    cases b with
    | none => simp at h
    | some d => cases c <;> cases d <;> simp_all [face, empty]

namespace DifferAt

variable {place : Location} {f g : File} {n m : Node}

theorem sameShape (h : DifferAt place f g n m) : n.SameShape m := by
  intro l
  by_cases hl : l = place
  · rw [hl, h.left, h.right]
    rfl
  · rcases eq_or_directories_of_face (h.elsewhere l hl) with heq | ⟨es, ds, hn, hm⟩
    · rw [heq]
    · rw [hn, hm]
      rfl

end DifferAt

theorem lookup_setEntry (name : String) (node : Node) (es : List (String × Node)) (a : String) :
    (setEntry name node es).lookup a = if a = name then some node else es.lookup a := by
  have hcons : ∀ (b : String) (n : Node) (es : List (String × Node)),
      ((b, n) :: es).lookup a = if a = b then some n else es.lookup a := by
    intro b n es
    rw [List.lookup_cons]
    split <;> simp_all
  induction es with
  | nil => exact hcons name node []
  | cons e es ih =>
    obtain ⟨b, n⟩ := e
    rw [setEntry, hcons]
    by_cases hb : b = name
    · subst hb
      rw [if_pos (by simp), hcons]
      split <;> rfl
    · rw [if_neg (by simpa using hb), hcons, ih]
      by_cases ha : a = name
      · subst ha
        rw [if_neg (Ne.symm hb), if_pos rfl, if_pos rfl]
      · rw [if_neg ha, if_neg ha]

/-- A tree in which another file was put where a file is differs only there. -/
theorem differAt_put {n : Node} {place : Location} {f : File} (h : n.at? place = some (.file f))
    (g : File) : DifferAt place f g n (n.put place (.file g)) := by
  induction place generalizing n with
  | nil =>
    cases h
    refine ⟨rfl, rfl, fun l hl => ?_⟩
    obtain ⟨a, l, rfl⟩ := List.exists_cons_of_ne_nil hl
    rfl
  | cons name place ih =>
    obtain ⟨es, c, rfl, hlook, hat⟩ := directory_of_at?_cons h
    have hbelow := ih hat
    have hput : (directory es).put (name :: place) (.file g)
        = .directory (setEntry name (c.put place (.file g)) es) := by
      rw [put, child?, entries, hlook, Option.getD_some]
    have hstep : ∀ a l, (directory (setEntry name (c.put place (.file g)) es)).at? (a :: l)
        = if a = name then (c.put place (.file g)).at? l else (directory es).at? (a :: l) := by
      intro a l
      rw [at?, child?, entries, lookup_setEntry]
      split
      · rfl
      · rfl
    rw [hput]
    refine ⟨h, ?_, fun l hl => ?_⟩
    · rw [hstep, if_pos rfl, hbelow.right]
    · cases l with
      | nil => rfl
      | cons a l =>
        rw [hstep]
        split
        · rename_i ha
          subst ha
          have hl : l ≠ place := fun heq => hl (by rw [heq])
          rw [← hbelow.elsewhere l hl, at?, child?, entries, hlook, Option.bind_some]
        · rfl

/-- Below the same place of two trees of the same shape are trees of the same shape. -/
theorem SameShape.below {n m c d : Node} (h : n.SameShape m) {l : Location}
    (hn : n.at? l = some c) (hm : m.at? l = some d) : c.SameShape d := by
  intro rest
  have hrest := h (l ++ rest)
  rwa [at?_below hn, at?_below hm] at hrest

end Node

namespace Workspace

/-- Whether a path leads to a place. -/
def leadsTo (w : Workspace) (p : Path) (l : Location) : Bool :=
  match w.resolve p with
  | .ok m => m == l
  | .error _ => false

end Workspace

namespace Scanner

open Node (DifferAt)

variable {s : Scanner} {w : Workspace} {m : Node} {place : Location} {f g : File}

/-- A path that leads elsewhere has the same functions. -/
theorem functionsOf_of_differAt (h : DifferAt place f g w.root m) (registry : Registry) {p : Path}
    (hp : w.leadsTo p place = false) :
    functionsOf { w with root := m } registry p = functionsOf w registry p := by
  refine functionsOf_congr rfl ?_
  have hresolve := Workspace.resolve_congr h.sameShape p
  rw [Workspace.readSource?, Workspace.readBytes, Workspace.find, hresolve, Workspace.readSource?,
    Workspace.readBytes, Workspace.find]
  cases hl : w.resolve p with
  | error fault => rfl
  | ok l =>
    have hne : l ≠ place := by
      rintro rfl
      simp [Workspace.leadsTo, hl] at hp
    rcases Node.eq_or_directories_of_face (h.elsewhere l hne) with heq | ⟨es, ds, hn, hm⟩
    · simp only [heq]
    · simp only [hn, hm]

/-! ## Scans of all files -/

/-- A walk finds the same files in trees of the same shape. -/
theorem sources_congr {n n' : Node} (h : n.SameShape n') (hn : n.WellFormed)
    (hn' : n'.WellFormed) : s.sources n = s.sources n' := by
  refine Path.eq_of_pairwise_lt (sources_pairwise hn) (sources_pairwise hn') fun p => ?_
  rw [mem_sources hn, mem_sources hn']
  refine exists_congr fun l => ?_
  rw [exists_and_right, exists_and_right, h.file_iff l]

/-- A scan of all files fails for the same reason in trees of the same shape. -/
theorem scanAll_eq_error_congr (h : w.root.SameShape m) (root : Path) (p : Problem) :
    s.scanAll { w with root := m } root = .error p ↔ s.scanAll w root = .error p := by
  by_cases hdir : ∃ es, w.find root = .ok (.directory es)
  · obtain ⟨r, hr⟩ := (scanAll_isOk_iff (s := s)).mpr hdir
    obtain ⟨r', hr'⟩ :=
      (scanAll_isOk_iff (s := s)).mpr ((Workspace.find_directory_congr h root).mpr hdir)
    simp [hr, hr']
  · have hdir' := mt (Workspace.find_directory_congr h root).mp hdir
    rw [scanAll_of_not_directory fun es hes => hdir ⟨es, hes⟩,
      scanAll_of_not_directory fun es hes => hdir' ⟨es, hes⟩]
    have hresolve := Workspace.resolve_congr h root
    rw [Workspace.find, hresolve, Workspace.find]
    cases hl : w.resolve root with
    | error fault => rfl
    | ok l =>
      rcases Node.cases_of_shape (h l) with
        ⟨hn, hm⟩ | ⟨f, g, hn, hm⟩ | ⟨t, hn, hm⟩ | ⟨es, ds, hn, hm⟩
      · simp only [hn, hm]
      · simp only [hn, hm]
      · simp only [hn, hm]
      · exact absurd ⟨es, Workspace.find_eq_ok_iff.mpr ⟨l, hl, hn⟩⟩ hdir

/-- Reports that are shown by names of paths that lead elsewhere are the same. -/
theorem showing_scanPaths_of_differAt (h : DifferAt place f g w.root m) (registry : Registry)
    (base : Path) (ps : List Path) (shown : String → Bool) (keep : Path → Bool)
    (hshown : ∀ p ∈ ps, shown (p.displayFrom none) = keep p)
    (hkeep : ∀ p ∈ ps, keep p → w.leadsTo (base.join p) place = false) :
    (s.scanPaths w registry base ps).showing shown
      = (s.scanPaths { w with root := m } registry base ps).showing shown := by
  rw [showing_scanPaths base ps shown keep hshown, showing_scanPaths base ps shown keep hshown]
  refine congrArg ScanReport.files (scanPaths_congr fun p hp => ?_)
  obtain ⟨hp, hkept⟩ := List.mem_filter.mp hp
  exact (functionsOf_of_differAt h registry (hkeep p hp hkept)).symm

/-- What a file does to a scan of all files below a directory. -/
theorem scanAll_of_differAt {root : Path} {d : Location} {r r' : ScanReport}
    (hw : w.root.WellFormed) (hm : m.WellFormed) (h : DifferAt place f g w.root m)
    (hroot : w.resolve root = .ok d) (hr : s.scanAll w root = .ok r)
    (hr' : s.scanAll { w with root := m } root = .ok r') :
    ((∀ rest, place ≠ d ++ rest) → r = r') ∧
      ∀ rest, place = d ++ rest →
        r.showing (· != rest.relative.displayFrom none)
          = r'.showing (· != rest.relative.displayFrom none) := by
  obtain ⟨es, hfind⟩ := scanAll_isOk_iff.mp ⟨r, hr⟩
  obtain ⟨ds, hfind'⟩ := scanAll_isOk_iff.mp ⟨r', hr'⟩
  have hat := Workspace.at?_of_find hroot hfind
  have hat' : m.at? d = some (.directory ds) :=
    Workspace.at?_of_find ((Workspace.resolve_congr h.sameShape root).trans hroot) hfind'
  have hn := Node.wellFormed_of_at? hw hat
  have hsources : s.sources (.directory es) = s.sources (.directory ds) :=
    sources_congr (h.sameShape.below hat hat') hn (Node.wellFormed_of_at? hm hat')
  rw [scanAll_of_directory hfind rfl] at hr
  rw [scanAll_of_directory hfind' rfl, ← hsources] at hr'
  cases hr
  cases hr'
  -- where the paths that a walk finds lead to
  have hlead : ∀ p ∈ s.sources (.directory es), ∃ rest, rest.relative = p ∧
      (∀ name ∈ rest, IsFileName name) ∧ w.resolve (root.join p) = .ok (d ++ rest) := by
    intro p hp
    obtain ⟨rest, k, hrest, rfl, -⟩ := (mem_sources hn).mp hp
    rw [← Node.at?_below hat] at hrest
    obtain ⟨hne, hnames⟩ := Workspace.file_below hw hat hrest
    exact ⟨rest, rfl, hnames, Workspace.resolve_join hroot hne hnames hrest (by simp)⟩
  constructor
  · intro hplace
    refine scanPaths_congr fun p hp => ?_
    obtain ⟨rest, -, -, hresolve⟩ := hlead p hp
    refine (functionsOf_of_differAt h _ ?_).symm
    rw [Workspace.leadsTo, hresolve]
    simpa using (hplace rest).symm
  · rintro rest rfl
    have hnames : ∀ name ∈ rest, IsFileName name := fun name hname =>
      Node.isFileName_of_at? hw h.left name (List.mem_append_right d hname)
    refine showing_scanPaths_of_differAt h s.registry root _ _ (· != rest.relative) ?_ ?_
    · intro p hp
      obtain ⟨rest', rfl, hnames', -⟩ := hlead p hp
      rw [Bool.eq_iff_iff, bne_iff_ne, bne_iff_ne]
      refine not_congr ⟨fun hshown => ?_, fun heq => by rw [heq]⟩
      rw [Location.displayFrom_relative_injective hnames' hnames hshown]
    · intro p hp hne
      obtain ⟨rest', rfl, -, hresolve⟩ := hlead p hp
      rw [Workspace.leadsTo, hresolve]
      have hrest : rest' ≠ rest := by
        rintro rfl
        simp at hne
      simpa using hrest

/-! ## Scans of staged files -/

theorem keepsStaged_congr (h : w.root.SameShape m) (base p : Path) :
    s.keepsStaged { w with root := m } base p = s.keepsStaged w base p := by
  rw [keepsStaged, Workspace.hasFile_congr h, keepsStaged]

/-- The names by which staged paths are shown that do not lead to a place. -/
def namesElsewhere (w : Workspace) (l : Location) (paths : List Path) (place : Location) :
    List String :=
  (paths.filter fun p => !w.leadsTo (l.absolute.join p) place).map (Path.displayFrom none)

/-- What a file does to a scan of staged files. -/
theorem scanStaged_of_differAt {root : Path} {l : Location} {r : Repository} {paths : List Path}
    (h : DifferAt place f g w.root m) (hr : r.WellFormed) (hrepo : w.discover root = .ok (l, r))
    (hpaths : r.staged = .ok paths) :
    (s.scanStaged w root).showing (· ∈ namesElsewhere w l paths place)
      = (s.scanStaged { w with root := m } root).showing (· ∈ namesElsewhere w l paths place) := by
  have hrepo' : Workspace.discover { w with root := m } root = .ok (l, r) := by
    rw [Workspace.discover_congr h.sameShape, hrepo]
  have hkept : s.keepsStaged { w with root := m } l.absolute = s.keepsStaged w l.absolute := by
    funext p
    exact keepsStaged_congr h.sameShape l.absolute p
  rw [scanStaged_of_staged hrepo hpaths, scanStaged_of_staged hrepo' hpaths, hkept]
  refine showing_scanPaths_of_differAt h s.stagedRegistry l.absolute _ _
    (fun p => !w.leadsTo (l.absolute.join p) place) ?_ ?_
  · intro p hp
    have hmem := (List.mem_filter.mp hp).1
    obtain ⟨a, ha, rfl⟩ := (Repository.staged_order hr hpaths).2 p hmem
    rw [Bool.eq_iff_iff, decide_eq_true_iff, namesElsewhere, List.mem_map]
    constructor
    · rintro ⟨q, hq, hshown⟩
      obtain ⟨hq, helsewhere⟩ := List.mem_filter.mp hq
      obtain ⟨b, hb, rfl⟩ := (Repository.staged_order hr hpaths).2 q hq
      rwa [← Location.displayFrom_relative_injective hb ha hshown]
    · intro helsewhere
      exact ⟨_, List.mem_filter.mpr ⟨hmem, helsewhere⟩, rfl⟩
  · intro p _ helsewhere
    simpa using helsewhere

/-- **One file changes no other report.** Let two workspaces differ only in what one file holds,
or in whether it can be read. A scan of all files fails for both or for neither. If it does not,
its reports on all other files are the same, in the same order, and the file itself is reported
exactly if it is one to report. A scan of staged files gives the same reports for the paths that
do not lead to the file; the file itself is reported exactly if it is staged and one to report.
No scan reports a file without functions. -/
theorem reports_of_differing_file {c : Config} (hs : Scanner.ofConfig c = .ok s)
    (hw : w.root.WellFormed) (hm : m.WellFormed) (h : DifferAt place f g w.root m) (root : Path) :
    (∀ p, s.scanAll { w with root := m } root = .error p ↔ s.scanAll w root = .error p) ∧
    (∀ d r r', w.resolve root = .ok d → s.scanAll w root = .ok r →
      s.scanAll { w with root := m } root = .ok r' →
      ((∀ rest, place ≠ d ++ rest) → r = r') ∧
      (∀ rest, place = d ++ rest →
        r.showing (· != rest.relative.displayFrom none)
            = r'.showing (· != rest.relative.displayFrom none) ∧
          (r.Shows (rest.relative.displayFrom none)
            ↔ IsReported c.languages s.ignore rest.relative f) ∧
          (r'.Shows (rest.relative.displayFrom none)
            ↔ IsReported c.languages s.ignore rest.relative g)) ∧
      ∀ x ∈ r.files, x.functions ≠ []) ∧
    Workspace.stagedFiles { w with root := m } root = w.stagedFiles root ∧
    (∀ fault, w.stagedFiles root = .error fault →
      s.scanStaged w root = {} ∧ s.scanStaged { w with root := m } root = {}) ∧
    (∀ l repo paths, w.discover root = .ok (l, repo) → repo.WellFormed →
      repo.staged = .ok paths →
      (s.scanStaged w root).showing (· ∈ namesElsewhere w l paths place)
          = (s.scanStaged { w with root := m } root).showing
              (· ∈ namesElsewhere w l paths place) ∧
        ∀ rest, place = l ++ rest →
          ((s.scanStaged w root).Shows (rest.relative.displayFrom none)
            ↔ rest.relative ∈ paths ∧
              IsReported c.stagedLanguages s.ignore rest.relative f) ∧
          ((s.scanStaged { w with root := m } root).Shows (rest.relative.displayFrom none)
            ↔ rest.relative ∈ paths ∧
              IsReported c.stagedLanguages s.ignore rest.relative g)) ∧
    ∀ x ∈ (s.scanStaged w root).files, x.functions ≠ [] := by
  obtain ⟨hkeys, hstagedKeys, -⟩ := ofConfig_eq_ok hs
  have hstaged := Workspace.stagedFiles_congr h.sameShape root
  refine ⟨scanAll_eq_error_congr h.sameShape root, ?_, hstaged, ?_, ?_, ?_⟩
  · intro d r r' hroot hr hr'
    obtain ⟨hsame, hothers⟩ := scanAll_of_differAt hw hm h hroot hr hr'
    refine ⟨hsame, fun rest hplace => ⟨hothers rest hplace, ?_, ?_⟩, fun x hx =>
      (of_mem_scanAll hr hx).1⟩
    · exact shows_scanAll_iff hw hkeys hroot (hplace ▸ h.left) hr
    · have hroot' := (Workspace.resolve_congr h.sameShape root).trans hroot
      exact shows_scanAll_iff hm hkeys hroot' (hplace ▸ h.right) hr'
  · intro fault hfault
    exact ⟨scanStaged_of_error hfault, scanStaged_of_error (hstaged.trans hfault)⟩
  · intro l repo paths hrepo hr hpaths
    refine ⟨scanStaged_of_differAt h hr hrepo hpaths, fun rest hplace => ⟨?_, ?_⟩⟩
    · exact shows_scanStaged_iff hw hr hstagedKeys hrepo hpaths (hplace ▸ h.left)
    · have hrepo' : Workspace.discover { w with root := m } root = .ok (l, repo) := by
        rw [Workspace.discover_congr h.sameShape, hrepo]
      exact shows_scanStaged_iff hm hr hstagedKeys hrepo' hpaths (hplace ▸ h.right)
  · intro x hx
    exact (of_mem_scanStaged hx).1

theorem reports_of_broken_file :
    ∃ r r', Scanner.forPython.scanAll (.halfStaged .soundSource) ⟨"."⟩ = .ok r ∧
      Scanner.forPython.scanAll (.halfStaged .brokenSource) ⟨"."⟩ = .ok r' ∧
      r.showing (· != "pkg/a.py") = r'.showing (· != "pkg/a.py") ∧
      r.Shows "pkg/a.py" ∧ ¬ r'.Shows "pkg/a.py" ∧
      (Scanner.forPython.scanStaged (.halfStaged .soundSource) ⟨"."⟩).Shows "pkg/a.py" ∧
      ¬ (Scanner.forPython.scanStaged (.halfStaged .brokenSource) ⟨"."⟩).Shows "pkg/a.py" := by
  obtain ⟨hroot, hrepo⟩ : (Workspace.halfStaged .soundSource).resolve ⟨"."⟩ = .ok [] ∧
      (Workspace.halfStaged .soundSource).discover ⟨"."⟩
        = .ok ([], .oneStaged ["pkg", "a.py"]) := Workspace.oneStaged_here _ _
  have hroot' : (Workspace.halfStaged .brokenSource).resolve ⟨"."⟩ = .ok [] :=
    (Workspace.oneStaged_here _ _).1
  have hstaged := Repository.staged_oneStaged ["pkg", "a.py"]
  have hdiffer : DifferAt ["pkg", "a.py"] .soundSource .brokenSource
      (Workspace.halfStaged .soundSource).root (Workspace.halfStaged .brokenSource).root :=
    Node.differAt_put rfl .brokenSource
  obtain ⟨-, hall, -, -, hindex, -⟩ := reports_of_differing_file ofConfig_forPython
    (Workspace.halfStaged_wellFormed _) (Workspace.halfStaged_wellFormed _) hdiffer ⟨"."⟩
  have hr := scanAll_of_directory (s := forPython)
    (Workspace.find_eq_ok_iff.mpr ⟨[], hroot, rfl⟩) rfl
  have hr' := scanAll_of_directory (s := forPython)
    (Workspace.find_eq_ok_iff.mpr ⟨[], hroot', rfl⟩) rfl
  obtain ⟨-, hfile, -⟩ := hall _ _ _ hroot hr hr'
  obtain ⟨hothers, hshown, hshown'⟩ := hfile ["pkg", "a.py"] rfl
  obtain ⟨hstagedShown, hstagedShown'⟩ :=
    (hindex _ _ _ hrepo (Repository.oneStaged_wellFormed (by decide)) hstaged).2 ["pkg", "a.py"] rfl
  have hsound : IsReported ["python"] forPython.ignore (Location.relative ["pkg", "a.py"])
    .soundSource := isReported_soundSource (by decide)
  exact ⟨_, _, hr, hr', hothers, hshown.mpr hsound,
    fun h => not_isReported_brokenSource (hshown'.mp h),
    hstagedShown.mpr ⟨List.mem_singleton_self _, hsound⟩,
    fun h => not_isReported_brokenSource (hstagedShown'.mp h).2⟩

/-- A workspace with a file and a staged link to it. -/
def linkedTo (f : File) : Workspace :=
  .oneStaged ["link.py"] [("real.py", .file f), ("link.py", .link ⟨"real.py"⟩)]

theorem find_linkedTo (f : File) :
    (linkedTo f).find ((Location.absolute []).join (Location.relative ["link.py"]))
      = .ok (.file f) := by
  have hnames : ((Location.absolute []).join (Location.relative ["link.py"])).names
      = ["", "link.py"] := by decide
  have hempty : (linkedTo f).root.step 40 [] "" = .ok (40, [], []) := rfl
  have hlink : (linkedTo f).root.step 40 [] "link.py" = .ok (39, [], ["real.py"]) := rfl
  refine Workspace.find_eq_ok_iff.mpr ⟨["real.py"], ?_, rfl⟩
  calc (linkedTo f).resolve ((Location.absolute []).join (Location.relative ["link.py"]))
      = (linkedTo f).root.follow 40 [] ["", "link.py"] := by
        rw [Workspace.resolve_eq_follow (by decide), hnames]
        rfl
    _ = (linkedTo f).root.follow 40 [] ["link.py"] := by rw [Node.follow_cons, hempty]; rfl
    _ = (linkedTo f).root.follow 39 [] ["real.py"] := by rw [Node.follow_cons, hlink]; rfl
    _ = .ok ["real.py"] := Node.follow_of_at? 39 (by decide) rfl (by simp)

/-- The staged link is reported exactly if the file it leads to is one to report. -/
theorem shows_scanStaged_linkedTo_iff (f : File) :
    (Scanner.forPython.scanStaged (linkedTo f) ⟨"."⟩).Shows "link.py"
      ↔ IsReported ["python"] forPython.ignore (Location.relative ["link.py"]) f := by
  have hshows := shows_scanStaged_of_find (s := forPython)
    (Repository.oneStaged_wellFormed (l := ["link.py"]) (by decide)) rfl
    (Workspace.oneStaged_here _ _).2 (Repository.staged_oneStaged _) (by simp) (by decide)
    (find_linkedTo f)
  exact hshows.trans (and_iff_right (List.mem_singleton_self _))

/-- A staged link is reported with what it leads to: the report on it changes with another file,
although the index and the last commit stay as they are. -/
theorem scanStaged_changes_with_link_target :
    DifferAt ["real.py"] .soundSource .brokenSource
        (linkedTo .soundSource).root (linkedTo .brokenSource).root ∧
      (linkedTo .soundSource).repositories = (linkedTo .brokenSource).repositories ∧
      (Scanner.forPython.scanStaged (linkedTo .soundSource) ⟨"."⟩).showing (· != "real.py")
        ≠ (Scanner.forPython.scanStaged (linkedTo .brokenSource) ⟨"."⟩).showing
            (· != "real.py") := by
  refine ⟨Node.differAt_put rfl .brokenSource, rfl, fun heq => ?_⟩
  obtain ⟨x, hx, hpath⟩ := (shows_scanStaged_linkedTo_iff .soundSource).mpr
    (isReported_soundSource (by decide))
  have hkept : x ∈ (Scanner.forPython.scanStaged (linkedTo .soundSource) ⟨"."⟩).showing
      (· != "real.py") := List.mem_filter.mpr ⟨hx, by rw [hpath]; decide⟩
  rw [heq] at hkept
  exact not_isReported_brokenSource
    ((shows_scanStaged_linkedTo_iff .brokenSource).mp ⟨x, (List.mem_filter.mp hkept).1, hpath⟩)

end Scanner

end DocGate

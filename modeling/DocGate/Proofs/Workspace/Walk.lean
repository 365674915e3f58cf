/-
DocGate.Proofs.Workspace.Walk — a walk finds every file that is kept.

A walk skips a directory as soon as one of its components is ignored. Because the
components of a directory are components of everything below it, nothing is lost.

* `Node.walkFrom_eq_kept` — a walk finds the files of the tree that are not ignored, for
  every tree.
* `filesBelow_eq_kept_files` — below a directory that a path leads to, these are the
  files of the tree, each once and in the strict order of their paths.

For the second result the tree must be as it is on a disk (`Node.WellFormed`).
-/
import DocGate.Proofs.Workspace.Tree
import DocGate.Scanner
import Mathlib.Data.List.Basic

namespace DocGate

namespace IgnoreFilter

/-- Whether one of the names is an ignored component. -/
def ignoresName (f : IgnoreFilter) (name : String) : Bool :=
  name != ".." && anyMatch f.components name

/-- Only the names that a path leads through can be ignored components. -/
theorem hasIgnoredComponent_eq_any (f : IgnoreFilter) (p : Path) :
    f.hasIgnoredComponent p = p.locate.any f.ignoresName := by
  rw [hasIgnoredComponent, Path.components, List.any_append, List.any_map]
  refine (congrArg₂ or ?_ ?_).trans (Bool.false_or _)
  · -- what stands in front of the names is none of them
    split
    · rfl
    · split <;> rfl
  · congr 1
    funext name
    by_cases h : name = ".." <;> simp [Path.Component.ofName, ignoresName, h]

/-- A place has the ignored components of the places that it is below. -/
theorem hasIgnoredComponent_of_prefix (f : IgnoreFilter) {l m : Location} (h : l <+: m)
    (hl : f.hasIgnoredComponent l.relative) : f.hasIgnoredComponent m.relative := by
  obtain ⟨rest, rfl⟩ := h
  rw [hasIgnoredComponent_eq_any, Location.locate_relative] at hl ⊢
  rw [List.flatMap_append, List.any_append, hl, Bool.true_or]

theorem includes_of_prefix_of_not_descends (f : IgnoreFilter) {l m : Location} (h : l <+: m)
    (hl : f.descends l.relative = false) : f.includes m.relative = false := by
  have hm := f.hasIgnoredComponent_of_prefix h (by simpa [descends] using hl)
  simp [includes, ignores, hm]

end IgnoreFilter

namespace Node

theorem entryWalks_eq_map (f : IgnoreFilter) (here : Location) (es : List (String × Node)) :
    entryWalks f here es = es.map fun e => (e.1, walkFrom f (here ++ [e.1]) e.2) := by
  induction es with
  | nil => rfl
  | cons e es ih =>
    obtain ⟨name, n⟩ := e
    rw [entryWalks, List.map_cons, ih, pairWalk]

theorem walkFrom_directory (f : IgnoreFilter) (here : Location) (es : List (String × Node)) :
    walkFrom f here (.directory es)
      = if f.descends here.relative then
          (byName es).flatMap fun e => walkFrom f (here ++ [e.1]) e.2
        else [] := by
  rw [walkFrom, entryWalks_eq_map, byName_map, List.flatMap_map]

/-- The places of the files among leaves that are not ignored. -/
def keptFiles (f : IgnoreFilter) (leaves : List (Location × Node)) : List Location :=
  ((leaves.filter fun l => l.2.isFile).map (·.1)).filter fun l => f.includes l.relative

theorem keptFiles_flatMap {α : Type} (f : IgnoreFilter) (g : α → List (Location × Node))
    (xs : List α) : keptFiles f (xs.flatMap g) = xs.flatMap fun x => keptFiles f (g x) := by
  simp only [keptFiles, List.filter_flatMap, List.map_flatMap]

/-- A walk finds the files that are kept, though it does not look everywhere. -/
theorem walkFrom_eq_kept (f : IgnoreFilter) (n : Node) (here : Location) :
    walkFrom f here n = keptFiles f (leavesFrom here n) := by
  induction n using inductionOn generalizing here with
  | file file =>
    rw [walkFrom, leavesFrom_of_not_directory here rfl]
    cases hf : f.includes here.relative <;> simp [keptFiles, isFile, hf]
  | link target =>
    rw [walkFrom, leavesFrom_of_not_directory here rfl]
    simp [keptFiles, isFile]
  | directory es ih =>
    rw [walkFrom_directory]
    cases hd : f.descends here.relative with
    | true =>
      rw [leavesFrom_directory, keptFiles_flatMap, if_pos rfl]
      exact List.flatMap_congr fun e he => ih e (mem_byName.mp he) (here ++ [e.1])
    | false =>
      rw [if_neg Bool.false_ne_true, eq_comm, keptFiles, List.filter_eq_nil_iff]
      intro l hl
      obtain ⟨leaf, hleaf, rfl⟩ := List.mem_map.mp hl
      have hbelow := prefix_of_mem_leavesFrom (List.mem_filter.mp hleaf).1
      simp [f.includes_of_prefix_of_not_descends hbelow hd]

/-- What a walk finds, place by place. -/
theorem mem_walk {n : Node} (hn : n.WellFormed) (f : IgnoreFilter) (l : Location) :
    l ∈ n.walk f ↔ (∃ file, n.at? l = some (.file file)) ∧ f.includes l.relative := by
  rw [walk, walkFrom_eq_kept, keptFiles, List.mem_filter, List.mem_map]
  refine and_congr_left fun _ => ?_
  constructor
  · rintro ⟨⟨l, m⟩, hleaf, rfl⟩
    obtain ⟨hmem, hfile⟩ := List.mem_filter.mp hleaf
    obtain ⟨rest, rfl, hat, -⟩ := (mem_leavesFrom hn [] l m).mp hmem
    cases m with
    | file file => exact ⟨file, hat⟩
    | link target => cases hfile
    | directory es => cases hfile
  · rintro ⟨file, hat⟩
    have hmem := (mem_leavesFrom hn [] l (.file file)).mpr ⟨l, rfl, hat, rfl⟩
    exact ⟨(l, .file file), List.mem_filter.mpr ⟨hmem, rfl⟩, rfl⟩

/-- A walk goes along in the strict order of paths. -/
theorem walk_pairwise {n : Node} (hn : n.WellFormed) (f : IgnoreFilter) :
    ((n.walk f).map Location.relative).Pairwise fun p q => p.lt q := by
  have hnone : ∀ name ∈ ([] : Location), IsFileName name := by simp
  have hleaves := leavesFrom_pairwise hn hnone
  rw [walk, walkFrom_eq_kept, keptFiles, List.pairwise_map]
  exact (List.pairwise_map.mpr (hleaves.filter _)).filter _

end Node

/-- **Nothing is lost by skipping directories.** Where a path leads to a directory, the files
below it that are not ignored are found: all of those that a walk without skipping lists, which
are all that locations lead to without following a link. They come in the strict order of their
paths, so that none comes twice. -/
theorem filesBelow_eq_kept_files (w : Workspace) (f : IgnoreFilter) (root : Path) (n : Node)
    (hfind : w.find root = .ok n) (hdir : n.isDirectory) (hn : n.WellFormed) :
    ∃ paths, Scanner.filesBelow w f root = .ok paths ∧
      paths = (n.files.map Location.relative).filter (fun p => !f.ignores p) ∧
      (∀ p, p ∈ paths ↔
        ∃ l file, n.at? l = some (.file file) ∧ l.relative = p ∧ f.ignores p = false) ∧
      paths.Pairwise (fun p q => p.lt q) ∧ paths.Nodup := by
  refine ⟨(n.walk f).map Location.relative, ?_, ?_, ?_, ?_, ?_⟩
  · rw [Scanner.filesBelow, hfind]
    simp [hdir]
  · rw [List.filter_map, Node.walk, Node.walkFrom_eq_kept]
    rfl
  · intro p
    constructor
    · intro hp
      obtain ⟨l, hl, rfl⟩ := List.mem_map.mp hp
      obtain ⟨⟨file, hat⟩, hinc⟩ := (Node.mem_walk hn f l).mp hl
      exact ⟨l, file, hat, rfl, by simpa [IgnoreFilter.includes] using hinc⟩
    · rintro ⟨l, file, hat, rfl, hig⟩
      refine List.mem_map_of_mem ((Node.mem_walk hn f l).mpr ⟨⟨file, hat⟩, ?_⟩)
      simp [IgnoreFilter.includes, hig]
  · exact Node.walk_pairwise hn f
  · exact (Node.walk_pairwise hn f).imp Path.ne_of_lt

/-- A directory `a` beside a file `a.py` and a directory `m`, in no order. -/
def Node.sampleTree : Node :=
  .directory
    [("a.py", .file { content := [] }),
      ("m", .directory [("x.py", .file { content := [] })]),
      ("a", .directory [("b.py", .file { content := [] }), ("l.py", .link ⟨"b.py"⟩)])]

theorem Node.sampleTree_wellFormed : sampleTree.WellFormed := by
  refine .directory _ (by decide) (by decide) ?_
  simp only [List.forall_mem_cons, List.not_mem_nil, false_imp_iff, implies_true, and_true]
  refine ⟨.file _, .directory _ (by decide) (by decide) ?_, .directory _ (by decide) (by decide) ?_⟩
  · simpa using WellFormed.file _
  · simpa using ⟨WellFormed.file _, WellFormed.link _⟩

/-- Ignoring `m` keeps what is in `a`, be it in front of `a.py` or not, and drops what is in
`m`. -/
theorem filesBelow_of_sampleTree :
    IgnoreFilter.ofPatterns ["m"]
        = .ok { paths := [[.literal 'm']], components := [[.literal 'm']] } ∧
      ∃ paths, Scanner.filesBelow { root := Node.sampleTree }
          { paths := [[.literal 'm']], components := [[.literal 'm']] } ⟨"."⟩ = .ok paths ∧
        (⟨"a/b.py"⟩ : Path) ∈ paths ∧ (⟨"m/x.py"⟩ : Path) ∉ paths ∧ paths.Nodup := by
  have hfind : Workspace.find { root := Node.sampleTree } ⟨"."⟩ = .ok Node.sampleTree := by
    have hnames : (⟨"."⟩ : Path).names = ["."] := by decide
    simp [Workspace.find, Workspace.resolve, Workspace.start, Path.isAbsolute, hnames,
      Node.follow, Node.at?, Node.sampleTree]
  obtain ⟨paths, hok, -, hmem, -, hnodup⟩ :=
    filesBelow_eq_kept_files { root := Node.sampleTree }
      { paths := [[.literal 'm']], components := [[.literal 'm']] } ⟨"."⟩ Node.sampleTree
      hfind rfl Node.sampleTree_wellFormed
  refine ⟨rfl, paths, hok, ?_, ?_, hnodup⟩
  · exact (hmem ⟨"a/b.py"⟩).mpr ⟨["a", "b.py"], _, rfl, by decide, by decide +kernel⟩
  · intro hx
    obtain ⟨-, -, -, -, hig⟩ := (hmem ⟨"m/x.py"⟩).mp hx
    revert hig
    decide +kernel

end DocGate

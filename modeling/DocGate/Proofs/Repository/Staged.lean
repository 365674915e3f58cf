/-
DocGate.Proofs.Repository.Staged — the staged files of a repository.

A path is staged if the index has an entry for it with an object that the last commit
does not hold there as a file.

* `Repository.Holds`, `Repository.HoldsFile` — the last commit holds an object at a
  location in some form, and as a file.
* `staged_iff` — the staged files are these paths, in strict order and without
  repetition. Last, it says when they are those whose object the last commit does not
  hold in any form.
* `staged_unchanged_link` — the last commit may well hold the object as a link or as
  another repository: such a path is staged although nothing about it has changed.

The side conditions are that there is an index, and that names in it and in the last
commit are names of files (`Repository.WellFormed`).
-/
import DocGate.Proofs.Repository.Snapshot

namespace DocGate

namespace Repository

/-! ## Order and repetition -/

/-- Of paths in order, those that are kept behind `p` are behind it, in strict order. -/
theorem dropRepeatedFrom_pairwise (p : Path) (qs : List Path)
    (h : (p :: qs).Pairwise fun a b => b.lt a = false) :
    (p :: dropRepeatedFrom p qs).Pairwise fun a b => a.lt b := by
  induction qs generalizing p with
  | nil => exact List.pairwise_singleton _ _
  | cons q qs ih =>
    obtain ⟨hp, hqs⟩ := List.pairwise_cons.mp h
    rw [dropRepeatedFrom]
    split
    · exact ih p (h.sublist (by simp))
    · rename_i hsame
      have hpq : p.lt q := by
        rcases Path.lt_or_lt_of_not_same (Bool.eq_false_iff.mpr hsame) with hlt | hgt
        · exact hlt
        · rw [hp q List.mem_cons_self] at hgt
          cases hgt
      have hrest := ih q hqs
      refine List.pairwise_cons.mpr ⟨fun x hx => ?_, hrest⟩
      rcases List.mem_cons.mp hx with rfl | hx
      · exact hpq
      · exact Path.componentsLt_strictOrder.trans hpq ((List.pairwise_cons.mp hrest).1 x hx)

theorem sorted_pairwise (ps : List Path) : (sorted ps).Pairwise fun p q => p.lt q := by
  have hsorted := Path.componentsLt_strictOrder.pairwise_mergeSort Path.components ps
  unfold sorted
  cases hps : ps.mergeSort fun p q => !q.lt p with
  | nil => exact .nil
  | cons p qs => exact dropRepeatedFrom_pairwise p qs (hps ▸ hsorted)

theorem dropRepeatedFrom_subset (p : Path) (qs : List Path) : dropRepeatedFrom p qs ⊆ qs := by
  induction qs generalizing p with
  | nil => exact List.Subset.refl _
  | cons q qs ih =>
    rw [dropRepeatedFrom]
    split
    · exact List.subset_cons_of_subset q (ih p)
    · exact List.cons_subset_cons q (ih q)

/-- What is dropped is the same as something that is kept. -/
theorem exists_same_of_mem (p : Path) {qs : List Path} {x : Path} (hx : x ∈ qs) :
    ∃ y ∈ p :: dropRepeatedFrom p qs, y.same x := by
  induction qs generalizing p with
  | nil => cases hx
  | cons q qs ih =>
    rw [dropRepeatedFrom]
    split
    · rename_i hsame
      rcases List.mem_cons.mp hx with rfl | hx
      · exact ⟨p, List.mem_cons_self, hsame⟩
      · exact ih p hx
    · rcases List.mem_cons.mp hx with rfl | hx
      · exact ⟨x, by simp, by simp [Path.same]⟩
      · obtain ⟨y, hy, hyx⟩ := ih q hx
        exact ⟨y, List.mem_cons_of_mem p hy, hyx⟩

theorem mem_of_mem_sorted {ps : List Path} {x : Path} (hx : x ∈ sorted ps) : x ∈ ps := by
  have hperm := List.mergeSort_perm ps fun p q => !q.lt p
  refine hperm.mem_iff.mp ?_
  unfold sorted at hx
  cases hps : ps.mergeSort fun p q => !q.lt p with
  | nil => simp [hps, dropRepeated] at hx
  | cons p qs =>
    rw [hps, dropRepeated] at hx
    rcases List.mem_cons.mp hx with rfl | hx
    · exact List.mem_cons_self
    · exact List.mem_cons_of_mem p (dropRepeatedFrom_subset p qs hx)

theorem exists_same_mem_sorted {ps : List Path} {x : Path} (hx : x ∈ ps) :
    ∃ y ∈ sorted ps, y.same x := by
  have hperm := List.mergeSort_perm ps fun p q => !q.lt p
  have hx := hperm.mem_iff.mpr hx
  unfold sorted
  cases hps : ps.mergeSort fun p q => !q.lt p with
  | nil => simp [hps] at hx
  | cons p qs =>
    rw [hps] at hx
    rw [dropRepeated]
    rcases List.mem_cons.mp hx with rfl | hx
    · exact ⟨x, List.mem_cons_self, by simp [Path.same]⟩
    · exact exists_same_of_mem p hx

/-! ## What the last commit holds -/

/-- The last commit holds an object at a location: as a file, a link or another repository. -/
def Holds (r : Repository) (l : Location) (id : ObjectId) : Prop :=
  ∃ s t, r.head = some s ∧ s.at? l = some t ∧ t.id? = some id

/-- The last commit holds an object at a location as a file. -/
def HoldsFile (r : Repository) (l : Location) (id : ObjectId) : Prop :=
  ∃ s executable, r.head = some s ∧ s.at? l = some (.file id executable)

/-- Names are names of files, and differ in each directory of the last commit. -/
structure WellFormed (r : Repository) : Prop where
  head : ∀ s, r.head = some s → s.WellFormed
  index : ∀ e ∈ r.entries, ∀ name ∈ e.location, IsFileName name

theorem HoldsFile.holds {r : Repository} {l : Location} {id : ObjectId} (h : r.HoldsFile l id) :
    r.Holds l id := by
  obtain ⟨s, executable, hs, hat⟩ := h
  exact ⟨s, _, hs, hat, rfl⟩

theorem mem_headFiles {r : Repository} (hr : r.WellFormed) (l : Location) (id : ObjectId) :
    (l, id) ∈ r.headFiles ↔ r.HoldsFile l id := by
  unfold headFiles HoldsFile
  cases hhead : r.head with
  | none => simp
  | some s =>
    rw [Snapshot.mem_files (hr.head s hhead)]
    simp

/-- A location has one file. -/
theorem HoldsFile.unique {r : Repository} {l : Location} {id id' : ObjectId}
    (h : r.HoldsFile l id) (h' : r.HoldsFile l id') : id = id' := by
  obtain ⟨s, executable, hs, hat⟩ := h
  obtain ⟨s', executable', hs', hat'⟩ := h'
  rw [hs] at hs'
  cases hs'
  rw [hat] at hat'
  cases hat'
  rfl

theorem isFileName_of_holdsFile {r : Repository} (hr : r.WellFormed) {l : Location}
    {id : ObjectId} (h : r.HoldsFile l id) : ∀ name ∈ l, IsFileName name := by
  obtain ⟨s, executable, hs, hat⟩ := h
  exact Snapshot.isFileName_of_at? (hr.head s hs) hat

/-- An entry counts as changed unless the last commit holds its object as a file. -/
theorem isChanged_iff {r : Repository} (hr : r.WellFormed) {e : IndexEntry}
    (he : e ∈ r.entries) : isChanged r.headFiles e ↔ ¬ r.HoldsFile e.location e.id := by
  have hname := hr.index e he
  unfold isChanged
  cases hfind : r.headFiles.find? fun k => k.1.relative.same e.path with
  | none =>
    simp only [true_iff]
    intro hholds
    have hmem := (mem_headFiles hr e.location e.id).mpr hholds
    have hnot := List.find?_eq_none.mp hfind _ hmem
    exact hnot (by simp [IndexEntry.path, Path.same])
  | some k =>
    obtain ⟨l, id⟩ := k
    have hholds := (mem_headFiles hr l id).mp (List.mem_of_find?_eq_some hfind)
    have hsame := List.find?_some hfind
    rw [IndexEntry.path, Location.same_relative (isFileName_of_holdsFile hr hholds) hname,
      beq_iff_eq] at hsame
    subst hsame
    simp only [bne_iff_ne, ne_eq]
    constructor
    · intro hne hsame
      exact hne (hholds.unique hsame)
    · rintro hnot rfl
      exact hnot hholds

/-- The staged paths are those of the entries that count as changed. -/
theorem mem_sorted_changed {r : Repository} (hr : r.WellFormed) (p : Path) :
    p ∈ sorted ((r.entries.filter (isChanged r.headFiles)).map IndexEntry.path)
      ↔ ∃ e ∈ r.entries, e.path = p ∧ ¬ r.HoldsFile e.location e.id := by
  constructor
  · intro hp
    obtain ⟨e, he, rfl⟩ := List.mem_map.mp (mem_of_mem_sorted hp)
    obtain ⟨hmem, hchanged⟩ := List.mem_filter.mp he
    exact ⟨e, hmem, rfl, (isChanged_iff hr hmem).mp hchanged⟩
  · rintro ⟨e, he, rfl, hnot⟩
    have hchanged := List.mem_filter.mpr ⟨he, (isChanged_iff hr he).mpr hnot⟩
    obtain ⟨y, hy, hsame⟩ :=
      exists_same_mem_sorted (List.mem_map_of_mem (f := IndexEntry.path) hchanged)
    obtain ⟨e', he', rfl⟩ := List.mem_map.mp (mem_of_mem_sorted hy)
    -- paths of the index that are the same are equal
    have hname' := hr.index e' (List.mem_filter.mp he').1
    rw [IndexEntry.path, IndexEntry.path, Location.same_relative hname' (hr.index e he),
      beq_iff_eq] at hsame
    have hpath : e.path = e'.path := by rw [IndexEntry.path, ← hsame, IndexEntry.path]
    rw [hpath]
    exact hy

/-- Staged paths come in strict order, and each is that of a place. -/
theorem staged_order {r : Repository} (hr : r.WellFormed) {paths : List Path}
    (h : r.staged = .ok paths) :
    paths.Pairwise (fun p q => p.lt q) ∧
      ∀ p ∈ paths, ∃ l : Location, (∀ name ∈ l, IsFileName name) ∧ l.relative = p := by
  unfold staged at h
  split at h
  · cases h
  · rename_i es hindex
    cases h
    refine ⟨sorted_pairwise _, fun p hp => ?_⟩
    obtain ⟨e, he, rfl⟩ := List.mem_map.mp (mem_of_mem_sorted hp)
    have hmem : e ∈ r.entries := by
      rw [entries, hindex]
      exact (List.mem_filter.mp he).1
    exact ⟨e.location, hr.index e hmem, rfl⟩

/-- **What is staged.** With an index, the staged paths are those of its entries whose object
the last commit does not hold as a file there, which are all of them without a commit and none
if all entries are files of the commit. They come in strict order. They are the paths of the
entries whose object the last commit does not hold at all, unless an entry is held as a link or
as another repository and the index has no changed entry for its path. -/
theorem staged_iff (r : Repository) (es : List IndexEntry) (hindex : r.index = some es)
    (hr : r.WellFormed) :
    ∃ paths, r.staged = .ok paths ∧
      paths.Pairwise (fun p q => p.lt q) ∧ paths.Nodup ∧
      (∀ p, p ∈ paths ↔ ∃ e ∈ es, e.path = p ∧ ¬ r.HoldsFile e.location e.id) ∧
      (r.head = none → ∀ p, p ∈ paths ↔ ∃ e ∈ es, e.path = p) ∧
      (paths = [] ↔ ∀ e ∈ es, r.HoldsFile e.location e.id) ∧
      ((∀ p, p ∈ paths ↔ ∃ e ∈ es, e.path = p ∧ ¬ r.Holds e.location e.id) ↔
        ∀ e ∈ es, r.Holds e.location e.id → ¬ r.HoldsFile e.location e.id →
          ∃ e' ∈ es, e'.path = e.path ∧ ¬ r.Holds e'.location e'.id) := by
  have hentries : r.entries = es := by simp [entries, hindex]
  have hmem := mem_sorted_changed hr
  have hpairwise := sorted_pairwise ((es.filter (isChanged r.headFiles)).map IndexEntry.path)
  rw [hentries] at hmem
  refine ⟨_, by rw [staged, hindex], hpairwise, hpairwise.imp Path.ne_of_lt, hmem, ?_, ?_, ?_⟩
  · intro hhead p
    have hnone : ∀ l id, ¬ r.HoldsFile l id := by
      rintro l id ⟨s, executable, hs, -⟩
      rw [hhead] at hs
      cases hs
    rw [hmem]
    simp [hnone]
  · rw [List.eq_nil_iff_forall_not_mem]
    constructor
    · intro hempty e he
      refine Classical.byContradiction fun hnot => ?_
      exact hempty e.path ((hmem e.path).mpr ⟨e, he, rfl, hnot⟩)
    · intro hall p hp
      obtain ⟨e, he, -, hnot⟩ := (hmem p).mp hp
      exact hnot (hall e he)
  · constructor
    · intro hall e he _ hnot
      exact (hall e.path).mp ((hmem e.path).mpr ⟨e, he, rfl, hnot⟩)
    · intro hall p
      rw [hmem]
      constructor
      · rintro ⟨e, he, rfl, hnot⟩
        by_cases hholds : r.Holds e.location e.id
        · exact hall e he hholds hnot
        · exact ⟨e, he, rfl, hholds⟩
      · rintro ⟨e, he, rfl, hnot⟩
        exact ⟨e, he, rfl, fun hfile => hnot hfile.holds⟩

/-- A commit of a file in a directory and one beside it that a merge has left with two versions. -/
def halfMerged : Repository where
  head := some (.directory [("b.py", .file ⟨[2]⟩ false),
    ("pkg", .directory [("a.py", .file ⟨[1]⟩ true)])])
  index := some [
    { location := ["b.py"], stage := 2, id := ⟨[2]⟩ },
    { location := ["b.py"], stage := 3, id := ⟨[3]⟩ },
    { location := ["pkg", "a.py"], kind := .executable, id := ⟨[1]⟩ }]

theorem halfMerged_wellFormed : halfMerged.WellFormed where
  head := by
    rintro s ⟨rfl⟩
    refine .directory _ (by decide) (by decide) ?_
    simp only [List.forall_mem_cons, List.not_mem_nil, false_implies, implies_true, and_true]
    exact ⟨.file _ _, .directory _ (by decide) (by decide) (by simpa using .file _ _)⟩
  index := by decide

theorem staged_of_halfMerged :
    ∃ paths, halfMerged.staged = .ok paths ∧ ⟨"b.py"⟩ ∈ paths ∧ ⟨"pkg/a.py"⟩ ∉ paths := by
  obtain ⟨paths, hok, -, -, hmem, -⟩ := staged_iff halfMerged _ rfl halfMerged_wellFormed
  refine ⟨paths, hok, ?_, ?_⟩
  · refine (hmem _).mpr ⟨_, List.mem_cons_of_mem _ List.mem_cons_self, by decide, ?_⟩
    rintro ⟨s, executable, ⟨rfl⟩, hat⟩
    cases hat
  · intro hpath
    obtain ⟨e, he, hp, hnot⟩ := (hmem _).mp hpath
    simp only [List.mem_cons, List.not_mem_nil, or_false] at he
    rcases he with rfl | rfl | rfl
    · revert hp; decide
    · revert hp; decide
    · exact hnot ⟨_, _, rfl, rfl⟩

/-- A commit of a link, with an index that has not changed since. -/
def committedLink : Repository where
  head := some (.directory [("link.py", .link ⟨[1]⟩)])
  index := some [{ location := ["link.py"], kind := .link, id := ⟨[1]⟩ }]

/-- A link is staged although the last commit holds it as it is in the index. -/
theorem staged_unchanged_link :
    committedLink.staged = .ok [⟨"link.py"⟩] ∧
      ∀ e ∈ committedLink.entries, committedLink.Holds e.location e.id := by
  constructor
  · exact congrArg Except.ok (by decide +kernel)
  · intro e he
    simp only [entries, committedLink, Option.getD_some, List.mem_singleton] at he
    subst he
    exact ⟨_, _, rfl, rfl, rfl⟩

end Repository

end DocGate

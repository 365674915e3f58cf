/-
DocGate.Proofs.Workspace.Tree — trees of files as they are on a disk.

* `Node.WellFormed` — on a disk the entries of a directory have different names, and
  these are names of files.
* `Node.mem_leavesFrom` — then the leaves of a tree are exactly what locations lead to
  that is no directory.
* `Node.byName_map` — putting entries in order looks at nothing but names.
* `Node.byName_pairwise` — it puts them in strict order if they differ.

Names that are no text are not on any disk of this library.
-/
import DocGate.Proofs.Path.Location
import DocGate.Workspace.Node

namespace DocGate.Node

open DocGate.Path

mutual

/-- What holds of files and links, and of a directory whenever it holds of all its entries, holds
of every node. -/
@[elab_as_elim]
theorem inductionOn {motive : Node → Prop} (file : ∀ f, motive (.file f))
    (link : ∀ target, motive (.link target))
    (directory : ∀ es : List (String × Node), (∀ e ∈ es, motive e.2) → motive (.directory es)) :
    ∀ n : Node, motive n
  | .file f => file f
  | .link target => link target
  | .directory es => directory es (inductionOnEntries file link directory es)

theorem inductionOnEntries {motive : Node → Prop} (file : ∀ f, motive (.file f))
    (link : ∀ target, motive (.link target))
    (directory : ∀ es : List (String × Node), (∀ e ∈ es, motive e.2) → motive (.directory es)) :
    ∀ es : List (String × Node), ∀ e ∈ es, motive e.2
  | [], e, he => by simp at he
  | d :: ds, e, he =>
    (List.mem_cons.mp he).elim (fun h => h ▸ inductionOnPair file link directory d)
      (fun h => inductionOnEntries file link directory ds e h)

theorem inductionOnPair {motive : Node → Prop} (file : ∀ f, motive (.file f))
    (link : ∀ target, motive (.link target))
    (directory : ∀ es : List (String × Node), (∀ e ∈ es, motive e.2) → motive (.directory es)) :
    ∀ e : String × Node, motive e.2
  | (_, n) => inductionOn file link directory n

end

/-- Entries have names of files, and different ones in each directory. -/
inductive WellFormed : Node → Prop where
  | file (f : File) : WellFormed (.file f)
  | link (target : Path) : WellFormed (.link target)
  | directory (es : List (String × Node)) (names : ∀ e ∈ es, IsFileName e.1)
      (distinct : (es.map Prod.fst).Nodup) (below : ∀ e ∈ es, WellFormed e.2) :
      WellFormed (.directory es)

/-! ## Entries by name -/

/-- Where entries go depends on nothing but their names. -/
theorem byName_map {α β : Type} (g : String × α → β) (es : List (String × α)) :
    byName (es.map fun e => (e.1, g e)) = (byName es).map fun e => (e.1, g e) := by
  unfold byName
  rw [List.map_mergeSort]
  intro a _ b _
  rfl

theorem byName_perm {α : Type} (es : List (String × α)) : (byName es).Perm es :=
  List.mergeSort_perm es _

theorem mem_byName {α : Type} {es : List (String × α)} {e : String × α} :
    e ∈ byName es ↔ e ∈ es :=
  (byName_perm es).mem_iff

/-- Entries with different names are in strict order. -/
theorem byName_pairwise {α : Type} (es : List (String × α)) (h : (es.map Prod.fst).Nodup) :
    (byName es).Pairwise fun a b => Component.nameLt a.1 b.1 := by
  have hsorted := Component.nameLt_strictOrder.pairwise_mergeSort Prod.fst es
  have hdistinct : (byName es).Pairwise fun a b => a.1 ≠ b.1 :=
    List.pairwise_map.mp (((byName_perm es).map Prod.fst).nodup_iff.mpr h)
  refine (hsorted.and hdistinct).imp ?_
  rintro a b ⟨hba, hne⟩
  rcases Component.nameLt_strictOrder.connex a.1 b.1 with hlt | heq | hgt
  · exact hlt
  · exact absurd heq hne
  · rw [hba] at hgt
    cases hgt

/-- Where names differ, looking up a name finds its entry and no other. -/
theorem lookup_eq_some_iff {α : Type} {es : List (String × α)} (h : (es.map Prod.fst).Nodup)
    {name : String} {x : α} : es.lookup name = some x ↔ (name, x) ∈ es := by
  induction es with
  | nil => simp
  | cons e es ih =>
    obtain ⟨a, y⟩ := e
    rw [List.map_cons, List.nodup_cons] at h
    by_cases ha : name = a
    · subst ha
      have hnot : (name, x) ∉ es := fun hmem => h.1 (List.mem_map.mpr ⟨_, hmem, rfl⟩)
      simp [hnot, eq_comm]
    · have hbeq : (name == a) = false := by simpa using ha
      rw [List.lookup_cons, hbeq, List.mem_cons]
      simp [ih h.2, ha]

/-! ## Leaves -/

theorem entryLeaves_eq_map (here : Location) (es : List (String × Node)) :
    entryLeaves here es = es.map fun e => (e.1, leavesFrom (here ++ [e.1]) e.2) := by
  induction es with
  | nil => rfl
  | cons e es ih =>
    obtain ⟨name, n⟩ := e
    rw [entryLeaves, List.map_cons, ih, pairLeaves]

theorem leavesFrom_directory (here : Location) (es : List (String × Node)) :
    leavesFrom here (.directory es)
      = (byName es).flatMap fun e => leavesFrom (here ++ [e.1]) e.2 := by
  rw [leavesFrom, entryLeaves_eq_map, byName_map, List.flatMap_map]

theorem leavesFrom_of_not_directory (here : Location) {n : Node} (h : n.isDirectory = false) :
    leavesFrom here n = [(here, n)] := by
  cases n with
  | file f => rfl
  | link target => rfl
  | directory es => cases h

theorem at?_of_not_directory {n m : Node} (h : n.isDirectory = false) (rest : Location) :
    n.at? rest = some m ↔ rest = [] ∧ n = m := by
  cases rest with
  | nil => simp [at?]
  | cons name rest =>
    have hnone : n.child? name = none := by
      cases n with
      | file f => rfl
      | link target => rfl
      | directory es => cases h
    simp [at?, hnone]

theorem mem_leavesFrom_of_not_directory {n : Node} (h : n.isDirectory = false)
    (here l : Location) (m : Node) : (l, m) ∈ leavesFrom here n
      ↔ ∃ rest, l = here ++ rest ∧ n.at? rest = some m ∧ m.isDirectory = false := by
  rw [leavesFrom_of_not_directory here h, List.mem_singleton, Prod.mk.injEq]
  constructor
  · rintro ⟨rfl, rfl⟩
    exact ⟨[], by simp, rfl, h⟩
  · rintro ⟨rest, rfl, hat, -⟩
    obtain ⟨rfl, rfl⟩ := (at?_of_not_directory h rest).mp hat
    simp

/-- The leaves of a tree are what locations lead to that is no directory. -/
theorem mem_leavesFrom {n : Node} (hn : n.WellFormed) (here l : Location) (m : Node) :
    (l, m) ∈ leavesFrom here n
      ↔ ∃ rest, l = here ++ rest ∧ n.at? rest = some m ∧ m.isDirectory = false := by
  induction hn generalizing here with
  | file f => exact mem_leavesFrom_of_not_directory rfl here l m
  | link target => exact mem_leavesFrom_of_not_directory rfl here l m
  | directory es hnames hdistinct hbelow ih =>
    rw [leavesFrom_directory, List.mem_flatMap]
    constructor
    · rintro ⟨⟨name, c⟩, he, hmem⟩
      have hes := mem_byName.mp he
      obtain ⟨rest, rfl, hat, hleaf⟩ := (ih _ hes (here ++ [name])).mp hmem
      refine ⟨name :: rest, by simp, ?_, hleaf⟩
      rw [at?, child?, entries, (lookup_eq_some_iff hdistinct).mpr hes]
      exact hat
    · rintro ⟨rest, rfl, hat, hleaf⟩
      cases rest with
      | nil =>
        -- the directory itself is no leaf
        cases hat
        cases hleaf
      | cons name rest =>
        rw [at?, child?, entries, Option.bind_eq_some_iff] at hat
        obtain ⟨c, hlook, hat⟩ := hat
        have hes := (lookup_eq_some_iff hdistinct).mp hlook
        refine ⟨(name, c), mem_byName.mpr hes, ?_⟩
        exact (ih _ hes (here ++ [name])).mpr ⟨rest, by simp, hat, hleaf⟩

/-- The leaves below a place are below it. -/
theorem prefix_of_mem_leavesFrom {n : Node} {here : Location} {leaf : Location × Node}
    (h : leaf ∈ leavesFrom here n) : here <+: leaf.1 := by
  induction n using inductionOn generalizing here with
  | file f =>
    rw [leavesFrom_of_not_directory here rfl, List.mem_singleton] at h
    subst h
    exact List.prefix_rfl
  | link target =>
    rw [leavesFrom_of_not_directory here rfl, List.mem_singleton] at h
    subst h
    exact List.prefix_rfl
  | directory es ih =>
    rw [leavesFrom_directory, List.mem_flatMap] at h
    obtain ⟨e, he, hmem⟩ := h
    exact (List.prefix_append here [e.1]).trans (ih e (mem_byName.mp he) hmem)

theorem isFileName_of_at? {n m : Node} (hn : n.WellFormed) {l : Location}
    (h : n.at? l = some m) : ∀ name ∈ l, IsFileName name := by
  induction l generalizing n with
  | nil => simp
  | cons a l ih =>
    rw [at?, Option.bind_eq_some_iff] at h
    obtain ⟨c, hc, hat⟩ := h
    cases hn with
    | file f => cases hc
    | link target => cases hc
    | directory es hnames hdistinct hbelow =>
      have hes := (lookup_eq_some_iff hdistinct).mp hc
      intro name hname
      rcases List.mem_cons.mp hname with rfl | hname
      · exact hnames _ hes
      · exact ih (hbelow _ hes) hat name hname

theorem isFileName_of_mem_leavesFrom {n : Node} (hn : n.WellFormed) {here : Location}
    (hhere : ∀ name ∈ here, IsFileName name) {leaf : Location × Node}
    (h : leaf ∈ leavesFrom here n) : ∀ name ∈ leaf.1, IsFileName name := by
  obtain ⟨rest, hrest, hat, -⟩ := (mem_leavesFrom hn here leaf.1 leaf.2).mp h
  rw [hrest]
  intro name hname
  rcases List.mem_append.mp hname with hname | hname
  · exact hhere name hname
  · exact isFileName_of_at? hn hat name hname

/-- Leaves are in the strict order of their paths. -/
theorem leavesFrom_pairwise {n : Node} (hn : n.WellFormed) {here : Location}
    (hhere : ∀ name ∈ here, IsFileName name) :
    (leavesFrom here n).Pairwise fun a b => a.1.relative.lt b.1.relative := by
  induction hn generalizing here with
  | file f => exact List.pairwise_singleton _ _
  | link target => exact List.pairwise_singleton _ _
  | directory es hnames hdistinct hbelow ih =>
    have hdeeper : ∀ e ∈ es, ∀ name ∈ here ++ [e.1], IsFileName name := by
      intro e he name hname
      rcases List.mem_append.mp hname with hname | hname
      · exact hhere name hname
      · rw [List.mem_singleton.mp hname]
        exact hnames e he
    rw [leavesFrom_directory, List.pairwise_flatMap]
    refine ⟨fun e he => ?_, ?_⟩
    · have hes := mem_byName.mp he
      exact ih e hes (hdeeper e hes)
    · -- leaves of different entries differ first in the names of the entries
      refine (byName_pairwise es hdistinct).imp_of_mem ?_
      intro a b ha hb hlt x hx y hy
      have hx' := isFileName_of_mem_leavesFrom (hbelow a (mem_byName.mp ha))
        (hdeeper a (mem_byName.mp ha)) hx
      have hy' := isFileName_of_mem_leavesFrom (hbelow b (mem_byName.mp hb))
        (hdeeper b (mem_byName.mp hb)) hy
      obtain ⟨l, hl⟩ := prefix_of_mem_leavesFrom hx
      obtain ⟨m, hm⟩ := prefix_of_mem_leavesFrom hy
      rw [List.append_assoc, List.singleton_append] at hl hm
      rw [← hl] at hx' ⊢
      rw [← hm] at hy' ⊢
      exact Location.relative_lt_of_name_lt hx' hy' hlt

end DocGate.Node

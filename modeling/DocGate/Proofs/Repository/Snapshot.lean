/-
DocGate.Proofs.Repository.Snapshot — what a snapshot holds.

* `Snapshot.at?`, `Snapshot.id?` — what a location leads to in a snapshot, and the
  object of it, be it a file, a link or another repository.
* `Snapshot.WellFormed` — the side condition: the entries of a directory have different
  names, and these are names of files.
* `Snapshot.mem_files` — the files that are listed are exactly the files that locations
  lead to.
-/
import DocGate.Proofs.Workspace.Tree
import DocGate.Repository

namespace DocGate.Snapshot

/-- What a location leads to. -/
def at? : Snapshot → Location → Option Snapshot
  | s, [] => some s
  | s, name :: rest => (s.entries.lookup name).bind fun c => c.at? rest

/-- The object of what is no directory. -/
def id? : Snapshot → Option ObjectId
  | .file id _ => some id
  | .link id => some id
  | .submodule id => some id
  | .directory _ => none

/-- Entries have names of files, and different ones in each directory. -/
inductive WellFormed : Snapshot → Prop where
  | file (id : ObjectId) (executable : Bool) : WellFormed (.file id executable)
  | link (id : ObjectId) : WellFormed (.link id)
  | submodule (id : ObjectId) : WellFormed (.submodule id)
  | directory (es : List (String × Snapshot)) (names : ∀ e ∈ es, IsFileName e.1)
      (distinct : (es.map Prod.fst).Nodup) (below : ∀ e ∈ es, WellFormed e.2) :
      WellFormed (.directory es)

/-- What has no entries leads nowhere. -/
theorem at?_of_entries_nil {s t : Snapshot} (h : s.entries = []) (rest : Location) :
    s.at? rest = some t ↔ rest = [] ∧ s = t := by
  cases rest with
  | nil => simp [at?]
  | cons name rest => simp [at?, h]

theorem isFileName_of_at? {s t : Snapshot} (hs : s.WellFormed) {l : Location}
    (h : s.at? l = some t) : ∀ name ∈ l, IsFileName name := by
  induction l generalizing s with
  | nil => simp
  | cons a l ih =>
    rw [at?, Option.bind_eq_some_iff] at h
    obtain ⟨c, hc, hat⟩ := h
    cases hs with
    | file id executable => cases hc
    | link id => cases hc
    | submodule id => cases hc
    | directory es hnames hdistinct hbelow =>
      have hes := (Node.lookup_eq_some_iff hdistinct).mp hc
      intro name hname
      rcases List.mem_cons.mp hname with rfl | hname
      · exact hnames _ hes
      · exact ih (hbelow _ hes) hat name hname

/-! ## Files -/

theorem entryFiles_eq_flatMap (here : Location) (es : List (String × Snapshot)) :
    entryFiles here es = es.flatMap fun e => filesFrom (here ++ [e.1]) e.2 := by
  induction es with
  | nil => rfl
  | cons e es ih =>
    obtain ⟨name, s⟩ := e
    rw [entryFiles, List.flatMap_cons, ih, pairFiles]

/-- The files below a place are what locations lead to from there. -/
theorem mem_filesFrom {s : Snapshot} (hs : s.WellFormed) (here l : Location) (id : ObjectId) :
    (l, id) ∈ filesFrom here s
      ↔ ∃ rest executable, l = here ++ rest ∧ s.at? rest = some (.file id executable) := by
  induction hs generalizing here with
  | file id' executable' =>
    rw [filesFrom, List.mem_singleton, Prod.mk.injEq]
    constructor
    · rintro ⟨rfl, rfl⟩
      exact ⟨[], executable', by simp, rfl⟩
    · rintro ⟨rest, executable, rfl, hat⟩
      obtain ⟨rfl, heq⟩ := (at?_of_entries_nil rfl rest).mp hat
      cases heq
      simp
  | link id' =>
    simp only [filesFrom, List.not_mem_nil, false_iff]
    rintro ⟨rest, executable, -, hat⟩
    cases ((at?_of_entries_nil rfl rest).mp hat).2
  | submodule id' =>
    simp only [filesFrom, List.not_mem_nil, false_iff]
    rintro ⟨rest, executable, -, hat⟩
    cases ((at?_of_entries_nil rfl rest).mp hat).2
  | directory es hnames hdistinct hbelow ih =>
    rw [filesFrom, entryFiles_eq_flatMap, List.mem_flatMap]
    constructor
    · rintro ⟨⟨name, c⟩, hes, hmem⟩
      obtain ⟨rest, executable, rfl, hat⟩ := (ih _ hes (here ++ [name])).mp hmem
      refine ⟨name :: rest, executable, by simp, ?_⟩
      rw [at?, entries, (Node.lookup_eq_some_iff hdistinct).mpr hes]
      exact hat
    · rintro ⟨rest, executable, rfl, hat⟩
      cases rest with
      | nil => cases hat
      | cons name rest =>
        rw [at?, entries, Option.bind_eq_some_iff] at hat
        obtain ⟨c, hlook, hat⟩ := hat
        have hes := (Node.lookup_eq_some_iff hdistinct).mp hlook
        refine ⟨(name, c), hes, ?_⟩
        exact (ih _ hes (here ++ [name])).mpr ⟨rest, executable, by simp, hat⟩

theorem mem_files {s : Snapshot} (hs : s.WellFormed) (l : Location) (id : ObjectId) :
    (l, id) ∈ s.files ↔ ∃ executable, s.at? l = some (.file id executable) := by
  rw [files, mem_filesFrom hs]
  constructor
  · rintro ⟨rest, executable, rfl, hat⟩
    exact ⟨executable, hat⟩
  · rintro ⟨executable, hat⟩
    exact ⟨l, executable, rfl, hat⟩

end DocGate.Snapshot

/-
DocGate.Proofs.Language.Ownership — owners of suffixes.

A registry keeps a list of languages and, apart from it, the place of an owner for each
suffix. However often and in which order languages are registered, both stay in step
(`Registry.Lawful`).

* `Lawful.owner_first` — every place is one in the list, of the first language that
  claims the suffix.
* `Lawful.forSuffix?_foldl_register` — languages that are registered later do not change
  an owner. A suffix that nobody has claimed may of course find one.
* `owner_of_suffix` — all of this for the registry of any list of languages, in which a
  language may occur several times.
-/
import DocGate.Proofs.Language.Registry

namespace DocGate.Registry

variable {r : Registry}

theorem Lawful.mem_owners_iff (h : r.Lawful) (s : String) :
    s ∈ r.owners ↔ ∃ l ∈ r.languages.toList, s ∈ l.suffixes := by
  rw [Std.HashMap.mem_iff_isSome_getElem?, h s, List.findIdx?_isSome, List.any_eq_true]
  simp only [Language.claims_iff]

/-- The place of an owner is the first one at which a language claims the suffix. -/
theorem Lawful.owner_first (h : r.Lawful) {s : String} {i : Nat} (hs : r.owners[s]? = some i) :
    ∃ hi : i < r.languages.size, s ∈ r.languages[i].suffixes ∧
      ∀ j < i, ∀ l, r.languages[j]? = some l → s ∉ l.suffixes := by
  rw [h s, List.findIdx?_eq_some_iff_getElem] at hs
  obtain ⟨hi, hclaims, hfirst⟩ := hs
  refine ⟨by simpa using hi, ?_, ?_⟩
  · simpa [Language.claims_iff] using hclaims
  · intro j hj l hl hmem
    obtain ⟨_, rfl⟩ := Array.getElem?_eq_some_iff.mp hl
    exact hfirst j hj ((Language.claims_iff _ s).mpr hmem)

theorem Lawful.forSuffix?_of_owner (h : r.Lawful) {s : String} {i : Nat} (hs : r.owners[s]? = some i) :
    ∃ hi : i < r.languages.size, r.forSuffix? s = some r.languages[i] := by
  obtain ⟨hi, -⟩ := h.owner_first hs
  refine ⟨hi, ?_⟩
  rw [forSuffix?, hs, Option.bind_some, Array.getElem?_eq_getElem hi]

/-- Registering more languages leaves the suffixes alone that have an owner. -/
theorem Lawful.forSuffix?_foldl_register (h : r.Lawful) (more : List Language) {s : String}
    (hs : ∃ l ∈ r.languages.toList, s ∈ l.suffixes) :
    (more.foldl Registry.register r).forSuffix? s = r.forSuffix? s := by
  obtain ⟨hlawful, hlist⟩ := foldl_register h more
  obtain ⟨l, hl, hmem⟩ := hs
  rw [hlawful.forSuffix?_eq_find?, hlist, List.find?_append, h.forSuffix?_eq_find?]
  have hfound : (r.languages.toList.find? (·.claims s)).isSome :=
    List.find?_isSome.mpr ⟨l, hl, (l.claims_iff s).mpr hmem⟩
  obtain ⟨owner, howner⟩ := Option.isSome_iff_exists.mp hfound
  rw [howner, Option.some_or]

/-- **A suffix belongs to the language that claimed it first.** Whichever languages are
registered, repeatedly and in any order, the registry lists them in this order. It stores a place
for exactly the suffixes that they claim, and the place stored for a suffix is the first one in
the list whose language claims it. So a suffix is looked up in the list at the place of its owner,
which is the first language that claims it, and it has no owner if none does. Languages that are
registered later change nothing about a suffix that is claimed. -/
theorem owner_of_suffix (ls : List Language) :
    (ofList ls).languages.toList = ls ∧
    (∀ s : String, s ∈ (ofList ls).owners ↔ ∃ l ∈ ls, s ∈ l.suffixes) ∧
    (∀ (s : String) (i : Nat), (ofList ls).owners[s]? = some i →
      ∃ hi : i < (ofList ls).languages.size,
        (ofList ls).forSuffix? s = some (ofList ls).languages[i] ∧
        s ∈ (ofList ls).languages[i].suffixes ∧
        ∀ j < i, ∀ l, (ofList ls).languages[j]? = some l → s ∉ l.suffixes) ∧
    (∀ s : String, (ofList ls).forSuffix? s = ls.find? fun l => s ∈ l.suffixes) ∧
    ∀ (s : String) (more : List Language), (∃ l ∈ ls, s ∈ l.suffixes) →
      (more.foldl register (ofList ls)).forSuffix? s = (ofList ls).forSuffix? s := by
  obtain ⟨hlawful, hlist⟩ := foldl_register empty_lawful ls
  have hlawful : (ofList ls).Lawful := hlawful
  have hlist : (ofList ls).languages.toList = ls := hlist
  refine ⟨hlist, fun s => ?_, fun s i hs => ?_, fun s => ?_, fun s more hs => ?_⟩
  · rw [hlawful.mem_owners_iff, hlist]
  · obtain ⟨hi, hclaims, hfirst⟩ := hlawful.owner_first hs
    obtain ⟨_, hfound⟩ := hlawful.forSuffix?_of_owner hs
    exact ⟨hi, hfound, hclaims, hfirst⟩
  · rw [forSuffix?_ofList]
    congr 1
    funext l
    rw [Bool.eq_iff_iff, l.claims_iff, decide_eq_true_iff]
  · rw [← hlist] at hs
    exact hlawful.forSuffix?_foldl_register more hs

/-- A language that is registered twice, and one that is registered again later. -/
theorem owner_of_repeated_suffix :
    (ofList [.tsx, .python, .tsx]).owners[".tsx"]? = some 0 ∧
    0 < (ofList [.tsx, .python, .tsx]).languages.size ∧
    (∃ l ∈ [Language.tsx, .python, .tsx], ".pyi" ∈ l.suffixes) ∧
    ([Language.javaScript, .python].foldl register (ofList [.tsx, .python, .tsx])).forSuffix? ".pyi"
      = some .python := by
  have howner : (ofList [.tsx, .python, .tsx]).owners[".tsx"]? = some 0 := by
    rw [ofList, (foldl_register empty_lawful _).1, (foldl_register empty_lawful _).2]
    decide
  have hclaimed : ∃ l ∈ [Language.tsx, .python, .tsx], ".pyi" ∈ l.suffixes := by decide
  obtain ⟨-, -, hplace, hfind, hlater⟩ := owner_of_suffix [.tsx, .python, .tsx]
  obtain ⟨hsize, -⟩ := hplace _ _ howner
  refine ⟨howner, hsize, hclaimed, ?_⟩
  rw [hlater _ _ hclaimed, hfind]
  decide

end DocGate.Registry

/-
DocGate.Proofs.Language.Registry — which language a file is in.

* `Registry.Lawful`, `Lawful.register` — a registry stores for each suffix the place of
  its owner, which is the first language that claims the suffix; registering a language
  keeps it so.
* `forSuffix?_ofList` — so the languages are found as in a list.
* `forPath?_ofKeys_eq_some_iff` — the language of a file does not depend on the order of
  the keys that enable it, since no two languages share a suffix.
* `forPath?_join` — and not on where the file is seen from, as long as the path has a
  file name.
-/
import DocGate.Language.Registry
import DocGate.Proofs.Path.Join

namespace DocGate

namespace Language

/-- Whether the files of a language may have a suffix. -/
def claims (l : Language) (suffix : String) : Bool := l.suffixes.contains suffix

theorem claims_iff (l : Language) (suffix : String) : l.claims suffix ↔ suffix ∈ l.suffixes :=
  List.contains_iff_mem

/-- A suffix belongs to one language at most. -/
theorem eq_of_claims {a b : Language} {suffix : String} (ha : a.claims suffix)
    (hb : b.claims suffix) : a = b := by
  have hall : ∀ a b : Language, ∀ s ∈ a.suffixes, s ∈ b.suffixes → a = b := by
    intro a b
    cases a <;> cases b <;> decide
  exact hall a b suffix ((claims_iff a suffix).mp ha) ((claims_iff b suffix).mp hb)

theorem mem_all (l : Language) : l ∈ all := by
  cases l <;> decide

theorem hasKey_of_sameKey {l : Language} {key key' : String} (h : sameKey key key')
    (hl : l.hasKey key) : l.hasKey key' := by
  rw [sameKey, beq_iff_eq] at h
  rw [hasKey, sameKey, beq_iff_eq] at hl ⊢
  rw [hl, h]

end Language

namespace Registry

/-- Suffixes that have no owner get one, the others keep theirs. -/
theorem getElem?_foldl_insertIfNew (suffixes : List String) (m : Std.HashMap String Nat)
    (place : Nat) (s : String) :
    (suffixes.foldl (fun m s => m.insertIfNew s place) m)[s]?
      = m[s]?.or (if suffixes.contains s then some place else none) := by
  induction suffixes generalizing m with
  | nil => simp
  | cons k suffixes ih =>
    rw [List.foldl_cons, ih, Std.HashMap.getElem?_insertIfNew]
    by_cases hk : k = s
    · subst hk
      by_cases hm : k ∈ m
      · simp [hm]
      · simp [hm]
    · simp [hk, Ne.symm hk]

/-- Of a suffix is stored which language claims it first. -/
def Lawful (r : Registry) : Prop :=
  ∀ s : String, r.owners[s]? = r.languages.toList.findIdx? (·.claims s)

theorem empty_lawful : empty.Lawful := by
  intro s
  simp [empty]

theorem Lawful.register {r : Registry} (h : r.Lawful) (l : Language) : (r.register l).Lawful := by
  intro s
  have hclaims : l.suffixes.contains s = l.claims s := rfl
  simp only [Registry.register, getElem?_foldl_insertIfNew, Array.toList_push,
    List.findIdx?_append, h s, hclaims, List.findIdx?_singleton]
  cases l.claims s <;> simp

/-- What registering some languages makes of a registry. -/
theorem foldl_register {r : Registry} (h : r.Lawful) (ls : List Language) :
    (ls.foldl register r).Lawful ∧
      (ls.foldl register r).languages.toList = r.languages.toList ++ ls := by
  induction ls generalizing r with
  | nil => simp [h]
  | cons l ls ih =>
    obtain ⟨hlawful, hlist⟩ := ih (h.register l)
    refine ⟨hlawful, ?_⟩
    rw [List.foldl_cons, hlist, register, Array.toList_push, List.append_assoc]
    rfl

/-- The language of a suffix is the first one that claims it. -/
theorem Lawful.forSuffix?_eq_find? {r : Registry} (h : r.Lawful) (suffix : String) :
    r.forSuffix? suffix = r.languages.toList.find? (·.claims suffix) := by
  rw [forSuffix?, h suffix, List.find?_eq_bind_findIdx?_getElem?]
  congr 1
  funext i
  rw [Array.getElem?_toList]

theorem forSuffix?_ofList (ls : List Language) (suffix : String) :
    (ofList ls).forSuffix? suffix = ls.find? (·.claims suffix) := by
  obtain ⟨hlawful, hlist⟩ := foldl_register empty_lawful ls
  have hlist : (ofList ls).languages.toList = ls := hlist
  rw [ofList, hlawful.forSuffix?_eq_find?, ← ofList, hlist]

/-- A file is in a language if a key enables the language and the file has one of its
suffixes. -/
theorem forPath?_ofKeys_eq_some_iff (keys : List String) (p : Path) (l : Language) :
    (ofKeys keys).forPath? p = some l
      ↔ (∃ key ∈ keys, l.hasKey key) ∧ ∃ e, p.extension? = some e ∧ "." ++ e ∈ l.suffixes := by
  rw [forPath?, Option.bind_eq_some_iff]
  simp only [ofKeys, forSuffix?_ofList]
  constructor
  · rintro ⟨e, he, hfind⟩
    have hmem := List.mem_of_find?_eq_some hfind
    have hclaims := List.find?_some hfind
    rw [List.mem_filter, List.any_eq_true] at hmem
    exact ⟨hmem.2, e, he, (l.claims_iff _).mp hclaims⟩
  · rintro ⟨hkey, e, he, hsuffix⟩
    have hclaims := (l.claims_iff ("." ++ e)).mpr hsuffix
    refine ⟨e, he, ?_⟩
    have hmem : l ∈ Language.all.filter fun l => keys.any l.hasKey :=
      List.mem_filter.mpr ⟨l.mem_all, List.any_eq_true.mpr hkey⟩
    cases hfind : (Language.all.filter fun l => keys.any l.hasKey).find?
        (·.claims ("." ++ e)) with
    | none => exact absurd hclaims (List.find?_eq_none.mp hfind l hmem)
    | some k =>
      have hk := List.find?_some hfind
      rw [Language.eq_of_claims hk hclaims]

theorem ofKeys_eq_of_enabled {keys keys' : List String}
    (h : ∀ l : Language, keys.any l.hasKey ↔ keys'.any l.hasKey) : ofKeys keys = ofKeys keys' := by
  have hany (l : Language) : keys.any l.hasKey = keys'.any l.hasKey := Bool.eq_iff_iff.mpr (h l)
  simp only [ofKeys, hany]

/-- Which languages are registered depends on which keys there are, not on their order. -/
theorem ofKeys_congr {keys keys' : List String} (h : ∀ key, key ∈ keys ↔ key ∈ keys') :
    ofKeys keys = ofKeys keys' := by
  refine ofKeys_eq_of_enabled fun l => ?_
  rw [List.any_eq_true, List.any_eq_true]
  exact exists_congr fun key => and_congr_left fun _ => h key

/-- A file is in the same language from wherever it is seen. -/
theorem forPath?_join (r : Registry) (base : Path) {p : Path} (h : p.fileName? ≠ none) :
    r.forPath? (base.join p) = r.forPath? p := by
  rw [forPath?, Path.extension?_join base h, forPath?]

/-- The path of a place is seen in the same language from any directory. -/
theorem forPath?_relative (r : Registry) (base : Path) {l : Location} (hne : l ≠ [])
    (hl : ∀ name ∈ l, IsFileName name) :
    r.forPath? (base.join l.relative) = r.forPath? l.relative :=
  forPath?_join r base (Location.fileName?_relative_ne_none hne hl)

end Registry

end DocGate

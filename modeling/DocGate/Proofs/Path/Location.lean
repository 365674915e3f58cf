/-
DocGate.Proofs.Path.Location — locations as paths.

The names that lead to a place, joined by slashes, are a path.

* `Location.locate_relative` — whatever the names are, what the path leads through is
  what the names lead through one after the other.
* `IsFileName` — the side condition of the rest: a text that is not empty, has no slash
  in it, and is neither one dot nor two.
* `Location.components_relative` — such names are the components of the path.
* `Location.same_relative` — so different places have different paths;
  `Location.relative_lt_of_name_lt` — and the order of paths is the order of the names.
-/
import DocGate.Proofs.Path.Order
import DocGate.Workspace.Node

namespace DocGate

/-- A name that an entry of a directory may have. -/
def IsFileName (name : String) : Prop :=
  name ≠ "" ∧ name ≠ "." ∧ name ≠ ".." ∧ '/' ∉ name.toList

instance (name : String) : Decidable (IsFileName name) :=
  inferInstanceAs (Decidable (_ ∧ _ ∧ _ ∧ _))

namespace Path

/-- A slash ends a name. -/
theorem splitOnto_append_slash (name cs ds : List Char) :
    splitOnto name (cs ++ '/' :: ds) = splitOnto name cs ++ splitOnto [] ds := by
  induction cs generalizing name with
  | nil => simp [splitOnto]
  | cons c cs ih =>
    by_cases hc : c = '/'
    · subst hc
      simp [splitOnto, ih]
    · simp [splitOnto, ih]

/-- A text without a slash is one name. -/
theorem splitOnto_of_not_mem (name cs : List Char) (h : '/' ∉ cs) :
    splitOnto name cs = [String.ofList (name.reverse ++ cs)] := by
  induction cs generalizing name with
  | nil => simp [splitOnto]
  | cons c cs ih =>
    have hc : c ≠ '/' := fun hc => h (hc ▸ List.mem_cons_self)
    have hcs : '/' ∉ cs := fun hcs => h (List.mem_cons_of_mem c hcs)
    rw [splitOnto, ih (c :: name) hcs]
    · simp
    · exact hc

theorem splitOnto_ne_nil (name cs : List Char) : splitOnto name cs ≠ [] := by
  fun_induction splitOnto name cs with
  | case1 => simp
  | case2 => simp
  | case3 _ _ _ _ ih => exact ih

theorem names_ne_nil (p : Path) : p.names ≠ [] := splitOnto_ne_nil [] p.text.toList

theorem slash_not_mem_splitOnto {name cs : List Char} (hname : '/' ∉ name) :
    ∀ n ∈ splitOnto name cs, '/' ∉ n.toList := by
  fun_induction splitOnto name cs with
  | case1 name => simpa using hname
  | case2 name cs ih =>
    intro n hn
    rcases List.mem_cons.mp hn with rfl | hn
    · simpa using hname
    · exact ih List.not_mem_nil n hn
  | case3 name c cs hc ih =>
    refine ih ?_
    rw [List.mem_cons, not_or]
    exact ⟨fun heq => hc heq.symm, hname⟩

/-- The names in a path hold no slash. -/
theorem slash_not_mem_of_mem_names {p : Path} {name : String} (h : name ∈ p.names) :
    '/' ∉ name.toList :=
  slash_not_mem_splitOnto List.not_mem_nil name h

theorem names_of_mem_names {p : Path} {name : String} (h : name ∈ p.names) :
    (⟨name⟩ : Path).names = [name] := by
  rw [names, splitOnto_of_not_mem _ _ (slash_not_mem_of_mem_names h)]
  simp

/-- What a path leads through, it leads through alone as well. -/
theorem locate_of_mem_locate {p : Path} {name : String} (h : name ∈ p.locate) :
    (⟨name⟩ : Path).locate = [name] := by
  obtain ⟨hmem, hkept⟩ := List.mem_filter.mp h
  rw [locate, names_of_mem_names hmem, List.filter_eq_self]
  intro n hn
  rwa [List.mem_singleton.mp hn]

theorem names_of_isFileName {name : String} (h : IsFileName name) :
    (⟨name⟩ : Path).names = [name] := by
  rw [names, splitOnto_of_not_mem _ _ h.2.2.2]
  simp

theorem locate_of_isFileName {name : String} (h : IsFileName name) :
    (⟨name⟩ : Path).locate = [name] := by
  rw [locate, names_of_isFileName h]
  simp [h.1, h.2.1]

theorem mem_locate_of_normal_mem {p : Path} {name : String}
    (h : Component.normal name ∈ p.components) : name ∈ p.locate := by
  rw [components, List.mem_append] at h
  rcases h with h | h
  · split at h
    · simp at h
    · split at h <;> simp at h
  · obtain ⟨name', hmem, heq⟩ := List.mem_map.mp h
    rw [Component.ofName] at heq
    split at heq
    · cases heq
    · cases heq
      exact hmem

/-- A file name is a component of a path if the path leads through it. -/
theorem normal_mem_components {p : Path} {name : String} (h : IsFileName name) :
    Component.normal name ∈ p.components ↔ name ∈ p.names := by
  obtain ⟨hempty, hcurrent, hparent, -⟩ := h
  constructor
  · intro hmem
    exact (List.mem_filter.mp (mem_locate_of_normal_mem hmem)).1
  · intro hmem
    have hlocate : name ∈ p.locate := List.mem_filter.mpr ⟨hmem, by simp [hempty, hcurrent]⟩
    have hname : Component.ofName name = .normal name := by simp [Component.ofName, hparent]
    rw [components, ← hname]
    exact List.mem_append_right _ (List.mem_map_of_mem hlocate)

theorem names_of_normal_mem {p : Path} {name : String} (h : Component.normal name ∈ p.components) :
    (⟨name⟩ : Path).names = [name] :=
  names_of_mem_names (List.mem_filter.mp (mem_locate_of_normal_mem h)).1

theorem fileName?_mem_components {p : Path} {name : String} (h : p.fileName? = some name) :
    Component.normal name ∈ p.components := by
  rw [fileName?] at h
  split at h
  · rename_i last hlast
    cases h
    exact List.mem_of_getLast? hlast
  · cases h

end Path

namespace Location

open DocGate.Path

theorem relative_cons_cons (a b : String) (l : Location) :
    (relative (a :: b :: l)).text = a ++ "/" ++ (relative (b :: l)).text :=
  String.intercalate_cons_cons

theorem relative_singleton (a : String) : relative [a] = ⟨a⟩ := by
  simp [relative]

theorem names_relative_cons_cons (a b : String) (l : Location) :
    (relative (a :: b :: l)).names = (⟨a⟩ : Path).names ++ (relative (b :: l)).names := by
  simp only [names, relative_cons_cons, String.toList_append]
  rw [List.append_assoc]
  exact splitOnto_append_slash [] a.toList _

/-- A path that is put together from names leads through each of them in turn. -/
theorem locate_relative (l : Location) :
    (relative l).locate = l.flatMap fun name => (⟨name⟩ : Path).locate := by
  induction l with
  | nil => rfl
  | cons a l ih =>
    cases l with
    | nil => simp [relative_singleton]
    | cons b l =>
      rw [List.flatMap_cons, ← ih, locate, names_relative_cons_cons, List.filter_append]
      rfl

/-- The names that a path leads through make up a path through the same names. -/
theorem locate_relative_locate (p : Path) : (relative p.locate).locate = p.locate := by
  have hself : p.locate.map (fun name => (⟨name⟩ : Path).locate)
      = p.locate.map fun name => [name] :=
    List.map_congr_left fun name hname => locate_of_mem_locate hname
  rw [locate_relative, List.flatMap_def, hself, ← List.flatMap_def, List.flatMap_singleton']

theorem locate_relative_of_isFileName {l : Location} (h : ∀ name ∈ l, IsFileName name) :
    (relative l).locate = l := by
  rw [locate_relative]
  induction l with
  | nil => rfl
  | cons a l ih =>
    rw [List.flatMap_cons, locate_of_isFileName (h a List.mem_cons_self),
      ih fun name hname => h name (List.mem_cons_of_mem a hname)]
    rfl

/-- The first name of a file is how its path starts, so that it starts neither at the root nor
at the current directory. -/
theorem names_head?_relative {a : String} {l : Location} (h : IsFileName a) :
    (relative (a :: l)).names.head? = some a := by
  cases l with
  | nil => simp [relative_singleton, names_of_isFileName h]
  | cons b l => simp [names_relative_cons_cons, names_of_isFileName h]

theorem isAbsolute_relative_cons {a : String} (hne : a ≠ "") (hslash : '/' ∉ a.toList)
    (l : Location) : (relative (a :: l)).isAbsolute = false := by
  obtain ⟨c, cs, hcs⟩ : ∃ c cs, a.toList = c :: cs := by
    cases ha : a.toList with
    | nil => exact absurd (String.toList_eq_nil_iff.mp ha) hne
    | cons c cs => exact ⟨c, cs, rfl⟩
  have hc : c ≠ '/' := fun hc => hslash (hcs ▸ hc ▸ List.mem_cons_self)
  cases l with
  | nil => simp [isAbsolute, relative_singleton, hcs, hc]
  | cons b l => simp [isAbsolute, relative_cons_cons, hcs, hc]

theorem isAbsolute_relative {a : String} {l : Location} (h : IsFileName a) :
    (relative (a :: l)).isAbsolute = false :=
  isAbsolute_relative_cons h.1 h.2.2.2 l

/-- Names of files are the components of their path. -/
theorem components_relative {l : Location} (h : ∀ name ∈ l, IsFileName name) :
    (relative l).components = l.map Component.normal := by
  have hnormal : l.map Component.ofName = l.map Component.normal := by
    refine List.map_congr_left fun name hname => ?_
    rw [Component.ofName, if_neg (h name hname).2.2.1]
  cases l with
  | nil => rfl
  | cons a l =>
    have ha : IsFileName a := h a List.mem_cons_self
    rw [components, isAbsolute_relative ha, names_head?_relative ha,
      locate_relative_of_isFileName h, hnormal]
    simp [ha.2.1]

theorem same_relative {l m : Location} (hl : ∀ name ∈ l, IsFileName name)
    (hm : ∀ name ∈ m, IsFileName name) : (relative l).same (relative m) = (l == m) := by
  rw [Path.same, components_relative hl, components_relative hm]
  rw [Bool.eq_iff_iff, beq_iff_eq, beq_iff_eq]
  exact List.map_inj_right fun _ _ heq => Component.normal.inj heq

/-- Paths of places are in the order of the first names that differ. -/
theorem relative_lt_of_name_lt {here l m : Location} {a b : String}
    (hl : ∀ name ∈ here ++ a :: l, IsFileName name)
    (hm : ∀ name ∈ here ++ b :: m, IsFileName name) (hab : Component.nameLt a b) :
    (relative (here ++ a :: l)).lt (relative (here ++ b :: m)) := by
  have hlt : (Component.normal a).lt (.normal b) := hab
  rw [Path.lt, components_relative hl, components_relative hm, componentsLt_eq_lex,
    List.map_append, List.map_append, List.map_cons, List.map_cons]
  exact lex_append_cons hlt _ _ _

end Location

end DocGate

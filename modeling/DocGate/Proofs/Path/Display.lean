/-
DocGate.Proofs.Path.Display — paths in reports.

What a report shows of a path depends on where the path starts and on the names that it
leads through, and on nothing else.

* `Path.displayFrom_none` — it is the path that these names make up.
* `Path.route_displayFrom` — read as a path again it starts at the same place and leads
  through the same names.
* `displayFrom_is_normal_form` — so it is a normal form, in which two paths agree
  exactly if their components do, but for the current directory. It is never empty, and
  it does not show the directory that is scanned.
* `Location.displayFrom_relative_injective` — different places are shown differently, as
  long as their names are names of files.

The third of these is about all texts. Only for a path below the directory that is
scanned must the path be a relative one.
-/
import DocGate.Proofs.Path.Join

namespace DocGate

namespace Path

namespace Component

theorem ofName_ne_current (name : String) : ofName name ≠ .current := by
  rw [ofName]
  split <;> simp

theorem ofName_ne_root (name : String) : ofName name ≠ .root := by
  rw [ofName]
  split <;> simp

end Component

/-- What shows components by their names gives back the names they are made of. -/
theorem map_map_ofName {shown : Component → String} (hparent : shown .parent = "..")
    (hnormal : ∀ name, shown (.normal name) = name) (names : List String) :
    (names.map Component.ofName).map shown = names := by
  rw [List.map_map]
  refine (List.map_congr_left fun name _ => ?_).trans (List.map_id _)
  rw [Function.comp_apply, Component.ofName]
  split
  · rename_i hname
    rw [hparent, hname, id]
  · rw [hnormal, id]

/-! ## Where a path leads -/

/-- The components of a path but for the current directory. -/
def route (p : Path) : List Component := p.components.filter (· != .current)

theorem filter_map_ofName {c : Component} (hc : ∀ name, Component.ofName name ≠ c)
    (names : List String) :
    (names.map Component.ofName).filter (· != c) = names.map Component.ofName := by
  refine List.filter_eq_self.mpr fun d hd => ?_
  obtain ⟨name, -, rfl⟩ := List.mem_map.mp hd
  simpa using hc name

theorem route_eq (p : Path) :
    p.route = (if p.isAbsolute then [.root] else []) ++ p.locate.map Component.ofName := by
  rw [route, components, List.filter_append, filter_map_ofName Component.ofName_ne_current]
  congr 1
  by_cases habsolute : p.isAbsolute
  · simp [habsolute]
  · by_cases hcurrent : p.names.head? = some "." <;> simp [habsolute, hcurrent]

theorem isAbsolute_iff_root_mem_route (p : Path) : p.isAbsolute ↔ Component.root ∈ p.route := by
  have hnames : Component.root ∉ p.locate.map Component.ofName := by
    intro hmem
    obtain ⟨name, -, heq⟩ := List.mem_map.mp hmem
    exact Component.ofName_ne_root name heq
  by_cases habsolute : p.isAbsolute <;> simp [route_eq, habsolute, hnames]

theorem locate_eq_of_route (p : Path) :
    p.locate = (p.route.filter (· != .root)).map Component.text := by
  have hroot : (if p.isAbsolute then [Component.root] else []).filter (· != .root) = [] := by
    by_cases habsolute : p.isAbsolute <;> simp [habsolute]
  rw [route_eq, List.filter_append, hroot, List.nil_append,
    filter_map_ofName Component.ofName_ne_root, map_map_ofName rfl fun _ => rfl]

/-- The route of a path says, and only says, where the path starts and which names it leads through. -/
theorem route_eq_iff {p q : Path} :
    p.route = q.route ↔ p.isAbsolute = q.isAbsolute ∧ p.locate = q.locate := by
  constructor
  · intro h
    -- both are read off the route: no name that a path leads through stands for the root
    rw [Bool.eq_iff_iff, isAbsolute_iff_root_mem_route, isAbsolute_iff_root_mem_route,
      locate_eq_of_route, locate_eq_of_route q, h]
    exact ⟨Iff.rfl, rfl⟩
  · rintro ⟨habsolute, hlocate⟩
    rw [route_eq, route_eq, habsolute, hlocate]

/-! ## What a report shows -/

theorem text_relative_ne_empty {a : String} (ha : a ≠ "") (l : Location) :
    (Location.relative (a :: l)).text ≠ "" := by
  cases l with
  | nil => simpa [Location.relative_singleton] using ha
  | cons b l =>
    intro hempty
    have hchars := congrArg String.toList (Location.relative_cons_cons a b l ▸ hempty)
    simp at hchars

theorem display_relative {cs : List Component} {names : List String}
    (hroute : cs.filter (· != .current) = names.map Component.ofName)
    (hstart : cs.head? ≠ some .root) (hnames : ∀ name ∈ names, name ≠ "") :
    display cs = if names = [] then "." else (Location.relative names).text := by
  simp only [display, hroute]
  rw [map_map_ofName rfl fun _ => rfl]
  cases names with
  | nil => simp [hstart]
  | cons a l =>
    have htext := text_relative_ne_empty (hnames a List.mem_cons_self) l
    rw [if_neg (by simpa [Location.relative] using htext)]
    rfl

theorem display_absolute {cs : List Component} {names : List String}
    (hroute : cs.filter (· != .current) = .root :: names.map Component.ofName)
    (hstart : cs.head? = some .root) : display cs = (Location.absolute names).text := by
  simp only [display, hroute, List.map_cons]
  rw [map_map_ofName rfl fun _ => rfl]
  cases names with
  | nil => simp [hstart, Location.absolute]
  | cons a l => simp [Location.absolute, String.intercalate_cons_cons]

theorem display_ne_empty (cs : List Component) : display cs ≠ "" := by
  rw [display]
  split
  · split <;> simp
  · rename_i htext
    simpa using htext

theorem name_ne_empty_of_mem_locate {p : Path} {name : String} (h : name ∈ p.locate) :
    name ≠ "" := by
  have hkept := (List.mem_filter.mp h).2
  rw [Bool.and_eq_true, bne_iff_ne] at hkept
  exact hkept.1

theorem head?_map_ofName (names : List String) :
    (names.map Component.ofName).head? ≠ some .root := by
  cases names with
  | nil => simp
  | cons a l => simpa using Component.ofName_ne_root a

theorem head?_components (p : Path) : p.components.head? = some .root ↔ p.isAbsolute := by
  rw [components]
  by_cases habsolute : p.isAbsolute
  · simp [habsolute]
  · by_cases hcurrent : p.names.head? = some "."
    · simp [habsolute, hcurrent]
    · simpa [habsolute, hcurrent] using head?_map_ofName p.locate

theorem isAbsolute_relative_locate (p : Path) :
    (Location.relative p.locate).isAbsolute = false := by
  cases hlocate : p.locate with
  | nil => rfl
  | cons a l =>
    have ha : a ∈ p.locate := hlocate ▸ List.mem_cons_self
    exact Location.isAbsolute_relative_cons (name_ne_empty_of_mem_locate ha)
      (slash_not_mem_of_mem_names (List.mem_filter.mp ha).1) l

/-- A report shows the path that the names of a path make up. -/
theorem displayFrom_none (p : Path) :
    p.displayFrom none =
      if p.isAbsolute then (Location.absolute p.locate).text
      else if p.locate = [] then "." else (Location.relative p.locate).text := by
  have hroute := route_eq p
  rw [displayFrom, Option.bind_none, Option.getD_none]
  by_cases habsolute : p.isAbsolute
  · rw [if_pos habsolute] at hroute ⊢
    exact display_absolute hroute ((head?_components p).mpr habsolute)
  · rw [if_neg habsolute] at hroute ⊢
    exact display_relative hroute (mt (head?_components p).mp habsolute)
      fun _ => name_ne_empty_of_mem_locate

/-- What a report shows of a path is a path with the same route. -/
theorem route_displayFrom (p : Path) : (⟨p.displayFrom none⟩ : Path).route = p.route := by
  rw [route_eq_iff, displayFrom_none]
  by_cases habsolute : p.isAbsolute
  · rw [if_pos habsolute, habsolute]
    exact ⟨Location.isAbsolute_absolute _, (Location.locate_absolute _).trans (Location.locate_relative_locate p)⟩
  · rw [if_neg habsolute]
    have hrelative := Bool.eq_false_iff.mpr habsolute
    by_cases hnames : p.locate = []
    · rw [if_pos hnames, hnames, hrelative]
      decide
    · rw [if_neg hnames, hrelative]
      exact ⟨isAbsolute_relative_locate p, Location.locate_relative_locate p⟩

/-- A path that is joined to a directory is shown from there as it would be alone. -/
theorem displayFrom_join (root : Path) {p : Path} (hp : p.isAbsolute = false) :
    (root.join p).displayFrom (some root) = p.displayFrom none := by
  by_cases hroot : root.text = ""
  · have hjoin : root.join p = p := by simp [join, hp, hroot]
    have hnone : root.components = [] := by
      rw [components, isAbsolute, locate, names, hroot]
      decide
    rw [hjoin, displayFrom, displayFrom, Option.bind_some, below?, hnone]
    rfl
  · have hbelow : below? root (root.join p) = some (p.locate.map Component.ofName) := by
      simp [below?, components_join hroot hp]
    rw [displayFrom, Option.bind_some, hbelow, Option.getD_some, displayFrom_none, hp,
      display_relative (filter_map_ofName Component.ofName_ne_current _) (head?_map_ofName _)
        fun _ => name_ne_empty_of_mem_locate]
    rfl

/-- **What a report shows of a path is its normal form.** It is shown as itself, it has the
components of the path but for the current directory, and two paths are shown alike exactly if
these components are the same. A path that is not taken from the root is shown from any directory
it is joined to as it would be alone. Nothing is shown as an empty text. -/
theorem displayFrom_is_normal_form :
    (∀ p : Path, (⟨p.displayFrom none⟩ : Path).displayFrom none = p.displayFrom none) ∧
    (∀ p : Path, (⟨p.displayFrom none⟩ : Path).route = p.route) ∧
    (∀ p q : Path, p.displayFrom none = q.displayFrom none ↔ p.route = q.route) ∧
    (∀ root p : Path, p.isAbsolute = false →
      (root.join p).displayFrom (some root) = p.displayFrom none) ∧
    ∀ (root : Option Path) (p : Path), p.displayFrom root ≠ "" := by
  have hiff (p q : Path) : p.displayFrom none = q.displayFrom none ↔ p.route = q.route := by
    constructor
    · intro h
      rw [← route_displayFrom p, h, route_displayFrom]
    · intro h
      obtain ⟨habsolute, hlocate⟩ := route_eq_iff.mp h
      rw [displayFrom_none, displayFrom_none, habsolute, hlocate]
  refine ⟨fun p => (hiff _ p).mpr (route_displayFrom p), route_displayFrom, hiff,
    fun root p => displayFrom_join root, ?_⟩
  intro root p
  exact display_ne_empty _

/-- A path with doubled slashes and names of directories that every directory has, joined to such
a path. -/
theorem displayFrom_of_crooked_paths :
    (⟨"./b//./../größe.py/."⟩ : Path).isAbsolute = false ∧
    ((⟨".//a/../"⟩ : Path).join ⟨"./b//./../größe.py/."⟩).displayFrom (some ⟨".//a/../"⟩)
      = "b/../größe.py" := by
  have hrelative : (⟨"./b//./../größe.py/."⟩ : Path).isAbsolute = false := by decide
  have hshown := displayFrom_is_normal_form.2.2.2.1 ⟨".//a/../"⟩ _ hrelative
  exact ⟨hrelative, hshown.trans (by decide +kernel)⟩

end Path

/-! ## Places in reports -/

namespace Location

open DocGate.Path

/-- What a report shows of a place leads to the place. -/
theorem locate_displayFrom_relative {l : Location} (h : ∀ name ∈ l, IsFileName name) :
    (⟨(relative l).displayFrom none⟩ : Path).locate = l := by
  rw [(route_eq_iff.mp (route_displayFrom (relative l))).2, locate_relative_of_isFileName h]

theorem displayFrom_relative_injective {l m : Location} (hl : ∀ name ∈ l, IsFileName name)
    (hm : ∀ name ∈ m, IsFileName name)
    (h : (relative l).displayFrom none = (relative m).displayFrom none) : l = m := by
  rw [← locate_displayFrom_relative hl, h, locate_displayFrom_relative hm]

end Location

end DocGate

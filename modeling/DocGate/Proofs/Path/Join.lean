/-
DocGate.Proofs.Path.Join — paths below paths.

* `Path.locate_join` — a path that is joined to a directory leads through the names of
  the directory and then through its own.
* `Path.components_join` — its components come behind those of the directory, which must
  not be the empty text.
* `Path.fileName?_join`, `Path.extension?_join` — so it keeps its file name and its
  extension, unless it leads through no names.

All of them are about relative paths: an absolute one that is joined to a directory
stays what it is.
-/
import DocGate.Proofs.Path.Location

namespace DocGate

namespace Path

/-- What is joined to a directory comes behind its names; a slash at the end of the directory is
not repeated. -/
theorem names_join {base p : Path} (hbase : base.text ≠ "") (hp : p.isAbsolute = false) :
    (base.join p).names = base.names ++ p.names ∨
      ∃ front, front ≠ [] ∧ base.names = front ++ [""] ∧
        (base.join p).names = front ++ p.names := by
  have hnonempty : base.text.isEmpty = false := by simpa using hbase
  rw [join, hp, hnonempty]
  by_cases hslash : base.text.toList.getLast? = some '/'
  · right
    obtain ⟨cs, hcs⟩ := List.getLast?_eq_some_iff.mp hslash
    refine ⟨splitOnto [] cs, splitOnto_ne_nil [] cs, ?_, ?_⟩
    · rw [names, hcs, splitOnto_append_slash]
      rfl
    · simp [names, hcs, splitOnto_append_slash]
  · left
    simp [hslash, names, splitOnto_append_slash]

theorem text_join {base p : Path} (hbase : base.text ≠ "") (hp : p.isAbsolute = false) :
    ∃ rest, (base.join p).text = base.text ++ rest := by
  have hnonempty : base.text.isEmpty = false := by simpa using hbase
  rw [join, hp, hnonempty]
  by_cases hslash : base.text.toList.getLast? = some '/'
  · exact ⟨p.text, by simp [hslash]⟩
  · exact ⟨"/" ++ p.text, by simp [hslash, String.append_assoc]⟩

/-- A path that is joined to a directory starts where that starts. -/
theorem isAbsolute_join {base p : Path} (hbase : base.text ≠ "") (hp : p.isAbsolute = false) :
    (base.join p).text ≠ "" ∧ (base.join p).isAbsolute = base.isAbsolute := by
  obtain ⟨rest, hrest⟩ := text_join hbase hp
  obtain ⟨c, cs, hcs⟩ : ∃ c cs, base.text.toList = c :: cs :=
    List.exists_cons_of_ne_nil (by simpa using hbase)
  refine ⟨?_, ?_⟩
  · intro hempty
    have htext := congrArg String.toList (hrest.symm.trans hempty)
    simp [hcs] at htext
  · simp [isAbsolute, hrest, hcs]

theorem locate_join {base p : Path} (hp : p.isAbsolute = false) :
    (base.join p).locate = base.locate ++ p.locate := by
  by_cases hbase : base.text = ""
  · have hlocate : base.locate = [] := by
      rw [locate, names, hbase]
      decide
    rw [hlocate, join, hp, hbase]
    simp
  · rcases names_join hbase hp with hnames | ⟨front, -, hfront, hnames⟩
    · rw [locate, hnames, List.filter_append]
      rfl
    · rw [locate, hnames, locate, hfront]
      simp [locate]

/-- What is joined to a directory comes behind its components; a current directory in front of it
is lost. -/
theorem components_join {base p : Path} (hbase : base.text ≠ "") (hp : p.isAbsolute = false) :
    (base.join p).components = base.components ++ p.locate.map Component.ofName := by
  have hhead : (base.join p).names.head? = base.names.head? := by
    rcases names_join hbase hp with hnames | ⟨front, hne, hfront, hnames⟩
    · obtain ⟨n, ns, hbase⟩ := List.exists_cons_of_ne_nil (names_ne_nil base)
      rw [hnames, hbase, List.cons_append, List.head?_cons, List.head?_cons]
    · obtain ⟨n, ns, rfl⟩ := List.exists_cons_of_ne_nil hne
      rw [hnames, hfront, List.cons_append, List.cons_append, List.head?_cons, List.head?_cons]
  rw [components, components, (isAbsolute_join hbase hp).2, hhead, locate_join hp,
    List.map_append, List.append_assoc]

theorem getLast?_components {p : Path} (h : p.locate ≠ []) :
    p.components.getLast? = p.locate.getLast?.map Component.ofName := by
  rw [components, List.getLast?_append, List.getLast?_map]
  obtain ⟨name, hname⟩ := Option.isSome_iff_exists.mp (List.getLast?_isSome.mpr h)
  simp [hname]

/-- A file keeps its name when it is seen from elsewhere. -/
theorem fileName?_join (base : Path) {p : Path} (hp : p.isAbsolute = false)
    (h : p.locate ≠ []) : (base.join p).fileName? = p.fileName? := by
  have hjoin : (base.join p).locate ≠ [] := by
    rw [locate_join hp]
    exact List.append_ne_nil_of_right_ne_nil _ h
  have hlast : (base.join p).components.getLast? = p.components.getLast? := by
    rw [getLast?_components hjoin, getLast?_components h, locate_join hp, List.getLast?_append]
    obtain ⟨name, hname⟩ := Option.isSome_iff_exists.mp (List.getLast?_isSome.mpr h)
    simp [hname]
  rw [fileName?, hlast, fileName?]

/-- A path with a file name has the same extension wherever it is seen from. -/
theorem extension?_join (base : Path) {p : Path} (h : p.fileName? ≠ none) :
    (base.join p).extension? = p.extension? := by
  by_cases habsolute : p.isAbsolute
  · rw [join, if_pos habsolute]
  · obtain ⟨name, hname⟩ := Option.ne_none_iff_exists'.mp h
    have hmem := mem_locate_of_normal_mem (fileName?_mem_components hname)
    rw [extension?, fileName?_join base (Bool.eq_false_iff.mpr habsolute)
      (List.ne_nil_of_mem hmem), extension?]

end Path

namespace Location

open DocGate.Path

theorem names_relative {a : String} {l : Location} (h : ∀ name ∈ a :: l, IsFileName name) :
    (relative (a :: l)).names = a :: l := by
  induction l generalizing a with
  | nil => rw [relative_singleton, names_of_isFileName (h a List.mem_cons_self)]
  | cons b l ih =>
    rw [names_relative_cons_cons, names_of_isFileName (h a List.mem_cons_self),
      ih fun name hname => h name (List.mem_cons_of_mem a hname)]
    rfl

/-- The path from the root has an empty name in front of its slash. -/
theorem names_absolute (l : Location) : (absolute l).names = "" :: (relative l).names := by
  simp [names, absolute, relative, splitOnto]

theorem locate_absolute (l : Location) : (absolute l).locate = (relative l).locate := by
  rw [locate, names_absolute, List.filter_cons_of_neg (by decide), ← locate]

theorem fileName?_relative_ne_none {l : Location} (hne : l ≠ [])
    (hl : ∀ name ∈ l, IsFileName name) : (relative l).fileName? ≠ none := by
  obtain ⟨name, hname⟩ := Option.isSome_iff_exists.mp (List.getLast?_isSome.mpr hne)
  simp [fileName?, components_relative hl, hname]

/-- The path of a place keeps its extension when it is seen from a directory. -/
theorem extension?_join_relative (base : Path) {l : Location} (hne : l ≠ [])
    (hl : ∀ name ∈ l, IsFileName name) :
    (base.join l.relative).extension? = l.relative.extension? :=
  extension?_join base (fileName?_relative_ne_none hne hl)

theorem isAbsolute_absolute (l : Location) : (absolute l).isAbsolute := by
  simp [isAbsolute, absolute]

end Location

end DocGate

/-
DocGate.Proofs.Language.Selection — selecting the language of a file.

Which language a file is in can be read off its name and the keys: a key enables the
language, and the name ends with one of its suffixes without being one.

* `extensionOf_iff_ends` — a suffix with a dot in front and no other one is the ending
  of a name exactly if it is its extension.
* `forPath?_iff_ends` — the language of a file by its name and the keys. It does not
  matter in which order or how often the keys are given, nor in which case their letters
  are, nor from where the file is seen.
* `language_of_file` — the same for all lists of keys and all paths; and a scan, which
  chooses files by one path and looks for their language by another, finds a language
  for each file that it chose.

A path without a file name is in no language, and joining it to another one is outside
the third part.
-/
import DocGate.Proofs.Scanner.Reports
import Mathlib.Data.List.TakeWhile

namespace DocGate

namespace Path

theorem bne_dot_of_mem_reverse {cs : List Char} (h : '.' ∉ cs) :
    ∀ c ∈ cs.reverse, (c != '.') = true := by
  intro c hc
  rw [bne_iff_ne]
  rintro rfl
  exact h (List.mem_reverse.mp hc)

/-- What stands behind the last dot is the extension, if something is in front of it. -/
theorem extensionOf_eq {name : String} {stem e : List Char} (hname : name.toList = stem ++ '.' :: e)
    (he : '.' ∉ e) : extensionOf name = if stem = [] then none else some (String.ofList e) := by
  have hbehind : (e.reverse ++ '.' :: stem.reverse).takeWhile (· != '.') = e.reverse := by
    rw [List.takeWhile_append_of_pos (bne_dot_of_mem_reverse he),
      List.takeWhile_cons_of_neg (by decide), List.append_nil]
  rw [extensionOf, hname, List.reverse_append, List.reverse_cons, List.append_assoc,
    List.singleton_append, hbehind]
  simp

theorem extensionOf_of_not_mem {name : String} (h : '.' ∉ name.toList) :
    extensionOf name = none := by
  have hbehind : name.toList.reverse.takeWhile (· != '.') = name.toList.reverse :=
    List.takeWhile_eq_self_iff.mpr (bne_dot_of_mem_reverse h)
  rw [extensionOf, hbehind]
  simp

theorem extensionOf_eq_some_iff {name e : String} :
    extensionOf name = some e ↔
      ∃ stem, stem ≠ [] ∧ name.toList = stem ++ '.' :: e.toList ∧ '.' ∉ e.toList := by
  constructor
  · intro h
    by_cases hdot : '.' ∈ name.toList
    · obtain ⟨behind, before, hsplit, hbehind⟩ :=
        List.eq_append_cons_of_mem (List.mem_reverse.mpr hdot)
      have hname : name.toList = before.reverse ++ '.' :: behind.reverse := by
        rw [← List.reverse_reverse name.toList, hsplit]
        simp
      have hclean : '.' ∉ behind.reverse := mt List.mem_reverse.mp hbehind
      rw [extensionOf_eq hname hclean] at h
      split at h
      · cases h
      · rename_i hstem
        cases h
        rw [String.toList_ofList]
        exact ⟨_, hstem, hname, hclean⟩
    · rw [extensionOf_of_not_mem hdot] at h
      cases h
  · rintro ⟨stem, hstem, hname, hdot⟩
    rw [extensionOf_eq hname hdot, if_neg hstem, String.ofList_toList]

/-- A name has the extension of a suffix if it ends with the suffix and is longer. -/
theorem extensionOf_iff_ends {name suffix : String} {cs : List Char}
    (hsuffix : suffix.toList = '.' :: cs) (hcs : '.' ∉ cs) :
    (∃ e, extensionOf name = some e ∧ "." ++ e = suffix) ↔
      suffix.toList <:+ name.toList ∧ suffix.length < name.length := by
  have hlength : suffix.length < name.length ↔ suffix.toList.length < name.toList.length := by
    rw [String.length_toList, String.length_toList]
  rw [hlength]
  constructor
  · rintro ⟨e, he, rfl⟩
    obtain ⟨stem, hstem, hname, -⟩ := extensionOf_eq_some_iff.mp he
    have hpos := List.length_pos_iff.mpr hstem
    have hdot : ("." ++ e).toList = '.' :: e.toList := by simp
    rw [hname, hdot, List.length_append]
    exact ⟨List.suffix_append stem _, by omega⟩
  · rintro ⟨⟨stem, hname⟩, hlonger⟩
    have hstem : stem ≠ [] := by
      rintro rfl
      rw [← hname, List.nil_append] at hlonger
      exact Nat.lt_irrefl _ hlonger
    refine ⟨String.ofList cs, extensionOf_eq_some_iff.mpr ⟨stem, hstem, ?_, ?_⟩, ?_⟩
    · rw [String.toList_ofList, ← hsuffix, hname]
    · rwa [String.toList_ofList]
    · apply String.toList_injective
      simp [hsuffix]

end Path

namespace Language

/-- The only dot of a suffix is in front. -/
theorem exists_eq_dot_cons {l : Language} {suffix : String} (h : suffix ∈ l.suffixes) :
    ∃ cs, suffix.toList = '.' :: cs ∧ '.' ∉ cs := by
  have hall : ∀ l : Language, ∀ s ∈ l.suffixes,
      s.toList = '.' :: s.toList.tail ∧ '.' ∉ s.toList.tail := by
    intro l
    cases l <;> decide
  exact ⟨_, hall l suffix h⟩

end Language

namespace Registry

theorem forPath?_iff_ends (keys : List String) (p : Path) (l : Language) :
    (ofKeys keys).forPath? p = some l ↔
      (∃ key ∈ keys, Language.sameKey key l.key) ∧
        ∃ name, p.fileName? = some name ∧ ∃ suffix ∈ l.suffixes,
          suffix.toList <:+ name.toList ∧ suffix.length < name.length := by
  have hkey (key : String) : l.hasKey key ↔ Language.sameKey key l.key := by
    rw [Language.hasKey, Language.sameKey, Language.sameKey, beq_iff_eq, beq_iff_eq]
    exact eq_comm
  rw [forPath?_ofKeys_eq_some_iff]
  simp only [hkey, Path.extension?, Option.bind_eq_some_iff]
  refine and_congr_right fun _ => ?_
  constructor
  · rintro ⟨e, ⟨name, hname, he⟩, hsuffix⟩
    obtain ⟨cs, hcs, hdot⟩ := Language.exists_eq_dot_cons hsuffix
    exact ⟨name, hname, _, hsuffix, (Path.extensionOf_iff_ends hcs hdot).mp ⟨e, he, rfl⟩⟩
  · rintro ⟨name, hname, suffix, hsuffix, hends⟩
    obtain ⟨cs, hcs, hdot⟩ := Language.exists_eq_dot_cons hsuffix
    obtain ⟨e, he, rfl⟩ := (Path.extensionOf_iff_ends hcs hdot).mpr hends
    exact ⟨e, ⟨name, hname, he⟩, hsuffix⟩

/-- Keys that enable nothing and repeated keys mean nothing, nor do the order of the keys and the
case of their letters. -/
theorem ofKeys_eq_of_sameKeys {keys keys' : List String}
    (h : ∀ key ∈ keys, Language.isKnownKey key → ∃ key' ∈ keys', Language.sameKey key key')
    (h' : ∀ key ∈ keys', Language.isKnownKey key → ∃ key' ∈ keys, Language.sameKey key key') :
    ofKeys keys = ofKeys keys' := by
  have henabled {keys keys' : List String} {l : Language}
      (h : ∀ key ∈ keys, Language.isKnownKey key → ∃ key' ∈ keys', Language.sameKey key key')
      (hl : keys.any l.hasKey) : keys'.any l.hasKey := by
    obtain ⟨key, hkey, hhas⟩ := List.any_eq_true.mp hl
    obtain ⟨key', hkey', hsame⟩ := h key hkey (List.any_eq_true.mpr ⟨l, l.mem_all, hhas⟩)
    exact List.any_eq_true.mpr ⟨key', hkey', Language.hasKey_of_sameKey hsame hhas⟩
  exact ofKeys_eq_of_enabled fun l => ⟨henabled h, henabled h'⟩

/-- A file that is in a language is in it from wherever it is seen. -/
theorem forPath?_join_of_isSome {r : Registry} {p : Path} (h : (r.forPath? p).isSome)
    (base : Path) : (r.forPath? (base.join p)).isSome := by
  have hname : p.fileName? ≠ none := by
    intro hnone
    rw [forPath?, Path.extension?, hnone] at h
    cases h
  rwa [forPath?_join r base hname]

end Registry

namespace Scanner

/-- A report is the one on certain paths, each of which has a language where its file is looked
for. -/
structure Knows (s : Scanner) (w : Workspace) (registry : Registry) (base : Path)
    (paths : List Path) (r : ScanReport) : Prop where
  report_eq : r = s.scanPaths w registry base paths
  known : ∀ p ∈ paths, ∃ l, registry.forPath? (base.join p) = some l

theorem knows_scanPaths (s : Scanner) (w : Workspace) (registry : Registry) (base : Path)
    {paths : List Path} (h : ∀ p ∈ paths, (registry.forPath? p).isSome) :
    s.Knows w registry base paths (s.scanPaths w registry base paths) where
  report_eq := rfl
  known p hp := Option.isSome_iff_exists.mp (Registry.forPath?_join_of_isSome (h p hp) base)

theorem knows_scanAll {s : Scanner} {w : Workspace} {root : Path} {found : List Path}
    (h : filesBelow w s.ignore root = .ok found) :
    ∃ r, s.scanAll w root = .ok r ∧
      s.Knows w s.registry root (found.filter fun p => (s.registry.forPath? p).isSome) r := by
  refine ⟨_, by rw [scanAll, h], knows_scanPaths s w s.registry root fun p hp => ?_⟩
  exact (List.mem_filter.mp hp).2

theorem knows_scanStaged {s : Scanner} {w : Workspace} {root : Path} {l : Location}
    {staged : List Path} (h : w.stagedFiles root = .ok (l, staged)) :
    s.Knows w s.stagedRegistry l.absolute (staged.filter (s.keepsStaged w l.absolute))
      (s.scanStaged w root) := by
  rw [scanStaged, h]
  refine knows_scanPaths s w s.stagedRegistry l.absolute fun p hp => ?_
  have hkept := (List.mem_filter.mp hp).2
  rw [keepsStaged, Bool.and_eq_true] at hkept
  exact hkept.2

end Scanner

/-- **Which language a file is in.** It is in a language exactly if one of the keys is the key of
the language, but for the case of letters, and the path has a file name that ends with a suffix of
the language and is longer than that. So keys can be given in any order, repeatedly, in any case,
and beside unknown ones. A path with a file name is in the same language from whichever directory
it is seen. So both kinds of scan, which choose files by the paths that are found or staged and
look for them from the directory of the scan, find a language for each file that they chose. -/
theorem language_of_file :
    (∀ (keys : List String) (p : Path) (l : Language),
      (Registry.ofKeys keys).forPath? p = some l ↔
        (∃ key ∈ keys, Language.sameKey key l.key) ∧
          ∃ name, p.fileName? = some name ∧ ∃ suffix ∈ l.suffixes,
            suffix.toList <:+ name.toList ∧ suffix.length < name.length) ∧
    (∀ keys keys' : List String,
      (∀ key ∈ keys, Language.isKnownKey key → ∃ key' ∈ keys', Language.sameKey key key') →
      (∀ key ∈ keys', Language.isKnownKey key → ∃ key' ∈ keys, Language.sameKey key key') →
      Registry.ofKeys keys = Registry.ofKeys keys') ∧
    (∀ (r : Registry) (base p : Path), p.fileName? ≠ none →
      r.forPath? (base.join p) = r.forPath? p) ∧
    ∀ (s : Scanner) (w : Workspace) (root : Path),
      (∀ found, Scanner.filesBelow w s.ignore root = .ok found →
        ∃ r, s.scanAll w root = .ok r ∧
          s.Knows w s.registry root (found.filter fun p => (s.registry.forPath? p).isSome) r) ∧
      ∀ l staged, w.stagedFiles root = .ok (l, staged) →
        s.Knows w s.stagedRegistry l.absolute (staged.filter (s.keepsStaged w l.absolute))
          (s.scanStaged w root) := by
  refine ⟨Registry.forPath?_iff_ends, fun _ _ => Registry.ofKeys_eq_of_sameKeys,
    fun r base _ => Registry.forPath?_join r base, fun s w root => ⟨?_, ?_⟩⟩
  · exact fun _ => Scanner.knows_scanAll
  · exact fun _ _ => Scanner.knows_scanStaged

/-- Keys in another case and unknown ones; a hidden file with a suffix, seen through a directory
above; a scan of a directory and one of a staged file. -/
theorem language_of_hidden_file :
    Registry.ofKeys ["TypeScript", "cobol", "PYTHON", "python"]
      = Registry.ofKeys ["python", "typescript"] ∧
    (Registry.ofKeys ["TypeScript", "cobol", "PYTHON", "python"]).forPath?
      ((⟨"src/.."⟩ : Path).join ⟨"./..py/."⟩) = some .python ∧
    ∃ found r, Scanner.filesBelow (.halfStaged .soundSource) {} ⟨"."⟩ = .ok found ∧
      Scanner.forPython.scanAll (.halfStaged .soundSource) ⟨"."⟩ = .ok r ∧
      Scanner.forPython.Knows (.halfStaged .soundSource) (.ofKeys ["python"]) ⟨"."⟩
        (found.filter fun p => ((Registry.ofKeys ["python"]).forPath? p).isSome) r ∧
      Scanner.forPython.Knows (.halfStaged .soundSource) (.ofKeys ["python"]) ⟨"/"⟩
        ([⟨"pkg/a.py"⟩].filter (Scanner.forPython.keepsStaged (.halfStaged .soundSource) ⟨"/"⟩))
        (Scanner.forPython.scanStaged (.halfStaged .soundSource) ⟨"."⟩) := by
  obtain ⟨hiff, hkeys, hjoin, hscans⟩ := language_of_file
  obtain ⟨hresolve, hdiscover⟩ := Workspace.oneStaged_here ["pkg", "a.py"]
    [("pkg", .directory [("a.py", .file .soundSource)]), ("b.py", .file .soundSource)]
  have hsame := hkeys ["TypeScript", "cobol", "PYTHON", "python"] ["python", "typescript"]
    (by decide) (by decide)
  have hpath : (⟨"./..py/."⟩ : Path).fileName? ≠ none := by decide
  have hlanguage : (Registry.ofKeys ["python", "typescript"]).forPath? ⟨"./..py/."⟩
      = some .python :=
    (hiff _ _ _).mpr ⟨by decide, "..py", by decide, ".py", by decide, by decide, by decide⟩
  have hfind : (Workspace.halfStaged .soundSource).find ⟨"."⟩
      = .ok (Workspace.halfStaged .soundSource).root :=
    Workspace.find_eq_ok_iff.mpr ⟨[], hresolve, rfl⟩
  have hfound : Scanner.filesBelow (.halfStaged .soundSource) {} ⟨"."⟩
      = .ok (((Workspace.halfStaged .soundSource).root.walk {}).map Location.relative) := by
    rw [Scanner.filesBelow, hfind]
    rfl
  have hstaged : (Workspace.halfStaged .soundSource).stagedFiles ⟨"."⟩
      = .ok ([], [⟨"pkg/a.py"⟩]) := by
    simp only [Workspace.stagedFiles, Workspace.halfStaged, hdiscover,
      Repository.staged_oneStaged, bind, Except.bind, pure, Except.pure]
    rfl
  obtain ⟨r, hr, hknows⟩ := (hscans .forPython (.halfStaged .soundSource) ⟨"."⟩).1 _ hfound
  have hknowsStaged := (hscans .forPython (.halfStaged .soundSource) ⟨"."⟩).2 _ _ hstaged
  exact ⟨hsame, by rw [hsame, hjoin _ _ _ hpath, hlanguage], _, r, hfound, hr, hknows,
    hknowsStaged⟩

end DocGate

/-
DocGate.Proofs.IgnoreFilter.LiteralNames — ignoring a name.

A name without marks can be written as an ignore pattern in four ways: alone, behind
`**/`, in front of `/**`, and between both. Each way fills the three lists of a filter
differently, but in all of them the name itself ends up as the glob for components.

* `IsLiteralName` — the side condition: the name of a file, without any character that
  means something to a glob.
* `IgnoreFilter.ofPatterns_spelled` — the filter for each of the four patterns.
* `mem_names_of_isMatch` — where a spelled name matches, its bytes stand between
  slashes; and since no other character has the byte of a slash, the name is one of
  those that the path leads through.
* `ignores_iff_component` — in each of the four ways, the paths that are ignored are
  those with this component, and so are the directories that are not looked into.
-/
import DocGate.IgnoreFilter
import DocGate.Proofs.Glob.Literal
import DocGate.Proofs.Path.Location

namespace DocGate

open Glob

/-- A name that means nothing but itself, in a path as in a glob. -/
structure IsLiteralName (name : String) : Prop where
  isFileName : IsFileName name
  spelled : ∀ c ∈ name.toList, c ∉ marks

namespace Path

/-- The names of a path are the stretches of its bytes between slashes. -/
theorem map_textBytes_splitOnto (cs : List Char) :
    (splitOnto [] cs).map (fun name => (textBytes name).toList)
      = (cs.flatMap charBytes).splitOn slash := by
  have hclean {ds : List Char} (hds : '/' ∉ ds) : slash ∉ ds.flatMap charBytes := by
    intro h
    obtain ⟨d, hd, hslash⟩ := List.mem_flatMap.mp h
    exact slash_not_mem_charBytes (fun heq => hds (heq ▸ hd)) hslash
  induction hn : cs.length using Nat.strongRecOn generalizing cs with
  | ind n ih =>
    by_cases hmem : '/' ∈ cs
    · obtain ⟨as, bs, rfl, has⟩ := List.eq_append_cons_of_mem hmem
      have hbs := ih bs.length (by rw [← hn]; simp; omega) bs rfl
      have hbytes : (as ++ '/' :: bs).flatMap charBytes
          = as.flatMap charBytes ++ slash :: bs.flatMap charBytes := by
        rw [List.flatMap_append, List.flatMap_cons]
        rfl
      rw [splitOnto_append_slash, splitOnto_of_not_mem [] as has, hbytes,
        List.splitOn_append_cons_self_of_not_mem (hclean has), ← hbs]
      simp [textBytes_ofList]
    · rw [splitOnto_of_not_mem [] cs hmem, List.splitOn_eq_singleton (hclean hmem)]
      simp [textBytes_ofList]

/-- A name whose bytes stand between slashes is one of those that the path leads through. -/
theorem mem_names_of_bytes {p : Path} {name : String} {before after : List UInt8}
    (hname : '/' ∉ name.toList)
    (h : (textBytes p.text).toList = before ++ ((textBytes name).toList ++ after))
    (hbefore : before = [] ∨ ∃ bs, before = bs ++ [slash])
    (hafter : after = [] ∨ ∃ bs, after = slash :: bs) : name ∈ p.names := by
  have hclean : slash ∉ (textBytes name).toList := by
    rw [textBytes_toList]
    intro h
    obtain ⟨d, hd, hslash⟩ := List.mem_flatMap.mp h
    exact slash_not_mem_charBytes (fun heq => hname (heq ▸ hd)) hslash
  have hbehind : (textBytes name).toList ∈ ((textBytes name).toList ++ after).splitOn slash := by
    rcases hafter with rfl | ⟨bs, rfl⟩
    · rw [List.append_nil, List.splitOn_eq_singleton hclean]
      exact List.mem_singleton_self _
    · rw [List.splitOn_append_cons_self_of_not_mem hclean]
      exact List.mem_cons_self
  have hmem : (textBytes name).toList ∈ (textBytes p.text).toList.splitOn slash := by
    rw [h]
    rcases hbefore with rfl | ⟨bs, rfl⟩
    · exact hbehind
    · rw [List.append_assoc, List.singleton_append, List.splitOn_append_cons_self]
      exact List.mem_append_right _ hbehind
  rw [textBytes_toList p.text, ← map_textBytes_splitOnto] at hmem
  obtain ⟨name', hname', heq⟩ := List.mem_map.mp hmem
  rwa [← Component.bytes_injective heq]

end Path

/-! ## Patterns that spell a name -/

/-- Where the tokens of a spelled name match, the path leads through the name. -/
theorem mem_names_of_isMatch {name text : String} (h : IsFileName name) {leading trailing : Bool}
    (hmatch : isMatch (spelledTokens leading trailing name.toList) text) :
    name ∈ (⟨text⟩ : Path).names := by
  have hcs : name.toList ≠ [] := by simpa using h.1
  obtain ⟨before, after, hbytes, hbefore, hafter⟩ := exists_bytes_of_isMatch hcs hmatch
  rw [← textBytes_toList] at hbytes
  exact Path.mem_names_of_bytes h.2.2.2 hbytes hbefore hafter

/-- They match no other name that a path leads through. -/
theorem eq_of_isMatch_normal {name n : String} (h : IsFileName name) {p : Path}
    (hn : Path.Component.normal n ∈ p.components) {leading trailing : Bool}
    (hmatch : isMatch (spelledTokens leading trailing name.toList) n) : n = name := by
  have hmem := mem_names_of_isMatch h hmatch
  rw [Path.names_of_normal_mem hn, List.mem_singleton] at hmem
  exact hmem.symm

namespace IgnorePattern

theorem dropLeading_append {cs : List Char} (h : '*' ∉ cs) (ds : List Char) :
    dropLeading (cs ++ ds) = cs ++ dropLeading ds := by
  induction cs with
  | nil => rfl
  | cons c cs ih =>
    rw [List.mem_cons, not_or] at h
    rw [List.cons_append, dropLeading, ih h.2, List.cons_append]
    rintro _ rfl
    exact absurd rfl h.1

theorem dropTrailing_append {cs : List Char} (h : '/' ∉ cs) (ds : List Char) :
    dropTrailing (cs ++ ds) = cs ++ dropTrailing ds := by
  induction cs with
  | nil => rfl
  | cons c cs ih =>
    rw [List.mem_cons, not_or] at h
    rw [List.cons_append, dropTrailing, ih h.2, List.cons_append]
    rintro _ rfl
    exact absurd rfl h.1

theorem componentGlob?_spelling {cs : List Char} (hcs : cs ≠ []) (hstar : '*' ∉ cs)
    (hslash : '/' ∉ cs) (leading trailing : Bool) :
    componentGlob? (String.ofList (spelling leading trailing cs)) = some (String.ofList cs) := by
  have hleading : dropLeading (spelling leading trailing cs)
      = cs ++ if trailing then ['/', '*', '*'] else [] := by
    have hbehind : dropLeading (cs ++ if trailing then ['/', '*', '*'] else [])
        = cs ++ if trailing then ['/', '*', '*'] else [] := by
      rw [dropLeading_append hstar]
      cases trailing <;> rfl
    cases leading <;> exact hbehind
  have htrailing : dropTrailing (cs ++ if trailing then ['/', '*', '*'] else []) = cs := by
    rw [dropTrailing_append hslash]
    cases trailing <;> simp [dropTrailing]
  rw [componentGlob?, String.toList_ofList, hleading, htrailing]
  simp [hcs]

theorem nameGlob?_spelling {cs : List Char} (hcs : cs ≠ []) (hstar : '*' ∉ cs)
    (leading trailing : Bool) :
    nameGlob? (String.ofList (spelling leading trailing cs))
      = if leading then some (String.ofList (spelling false trailing cs)) else none := by
  obtain ⟨c, cs, rfl⟩ := List.exists_cons_of_ne_nil hcs
  rw [nameGlob?, String.toList_ofList]
  cases leading with
  | true => rfl
  | false =>
    split
    · rename_i heq
      have hc : c = '*' := (List.cons.inj heq).1
      exact absurd (hc ▸ List.mem_cons_self) hstar
    · rfl

end IgnorePattern

namespace IgnoreFilter

/-- What a filter holds whose only pattern spells a name. -/
theorem ofPatterns_spelled {name : String} (h : IsLiteralName name) (leading trailing : Bool) :
    ofPatterns [String.ofList (spelling leading trailing name.toList)]
      = .ok
        { paths := [spelledTokens leading trailing name.toList]
          names := if leading then [spelledTokens false trailing name.toList] else []
          components := [spelledTokens false false name.toList] } := by
  have hcs : name.toList ≠ [] := by simpa using h.isFileName.1
  have hstar : '*' ∉ name.toList := fun hmem => h.spelled '*' hmem (by decide)
  have hcompile := compile_spelled h.spelled
  have hcomponent : compile name = .ok (spelledTokens false false name.toList) := by
    simpa [spelling] using hcompile false false
  simp only [ofPatterns, List.foldlM_cons, List.foldlM_nil, add, compileFor, hcompile,
    IgnorePattern.nameGlob?_spelling hcs hstar,
    IgnorePattern.componentGlob?_spelling hcs hstar h.isFileName.2.2.2]
  cases leading <;>
    simp [compileFor?, compileFor, hcompile, hcomponent, Except.mapError, Except.map, bind,
      Except.bind, pure, Except.pure]

/-- Such a filter ignores the paths with this component, and skips the directories with it. -/
theorem hasIgnoredComponent_spelled {name : String} (h : IsLiteralName name) (f : IgnoreFilter)
    (hf : f.components = [spelledTokens false false name.toList]) (p : Path) :
    f.hasIgnoredComponent p ↔ Path.Component.normal name ∈ p.components := by
  have hself : isMatch (spelledTokens false false name.toList) name := by
    simpa [spelledTokens] using isMatch_literals_self name.toList
  rw [hasIgnoredComponent, List.any_eq_true]
  constructor
  · rintro ⟨c, hc, hmatch⟩
    cases c with
    | normal n =>
      simp only [hf, anyMatch, List.any_cons, List.any_nil, Bool.or_false] at hmatch
      rwa [← eq_of_isMatch_normal h.isFileName hc hmatch]
    | root => cases hmatch
    | current => cases hmatch
    | parent => cases hmatch
  · intro hmem
    exact ⟨_, hmem, by simp [hf, anyMatch, hself]⟩

/-- What a filter ignores whose only pattern spells a name. -/
theorem ignores_spelled {name : String} (h : IsLiteralName name) (leading trailing : Bool) :
    ∃ f, ofPatterns [String.ofList (spelling leading trailing name.toList)] = .ok f ∧
      ∀ p : Path, (f.ignores p ↔ Path.Component.normal name ∈ p.components) ∧
        (f.descends p = false ↔ Path.Component.normal name ∈ p.components) := by
  refine ⟨_, ofPatterns_spelled h leading trailing, ?_⟩
  intro p
  have hcomponent := fun f hf => hasIgnoredComponent_spelled h f hf p
  refine ⟨?_, by rw [descends, Bool.not_eq_false', hcomponent _ rfl]⟩
  rw [ignores, Bool.or_eq_true, Bool.or_eq_true, hcomponent _ rfl]
  constructor
  · rintro ((hpath | hname) | hmem)
    · simp only [anyMatch, List.any_cons, List.any_nil, Bool.or_false] at hpath
      exact (Path.normal_mem_components h.isFileName).mpr
        (mem_names_of_isMatch h.isFileName hpath)
    · split at hname
      · rename_i n hn
        have hmem := Path.fileName?_mem_components hn
        cases leading with
        | false => simp [anyMatch] at hname
        | true =>
          simp only [if_true, anyMatch, List.any_cons, List.any_nil, Bool.or_false] at hname
          rwa [← eq_of_isMatch_normal h.isFileName hmem hname]
      · cases hname
    · exact hmem
  · exact fun hmem => .inr hmem

end IgnoreFilter

/-- **Four ways to ignore a name.** Let a name be none of the two names of directories that every
directory has, and let it hold neither a slash nor a mark of the glob language. Alone, behind
`**/`, in front of `/**` and between both it is a pattern, and a filter with this pattern alone
ignores exactly the paths of which the name is a component; the directories that it skips are
exactly those of which it is one. -/
theorem ignores_iff_component (name : String) (h : IsLiteralName name) :
    ∀ pattern ∈ [name, "**/" ++ name, name ++ "/**", "**/" ++ name ++ "/**"],
      ∃ f, IgnoreFilter.ofPatterns [pattern] = .ok f ∧
        ∀ p : Path, (f.ignores p ↔ Path.Component.normal name ∈ p.components) ∧
          (f.descends p = false ↔ Path.Component.normal name ∈ p.components) := by
  have hpattern (leading trailing : Bool) :
      String.ofList (spelling leading trailing name.toList)
        = (if leading then "**/" else "") ++ name ++ (if trailing then "/**" else "") := by
    apply String.toList_injective
    cases leading <;> cases trailing <;> simp [spelling]
  intro pattern hmem
  simp only [List.mem_cons, List.not_mem_nil, or_false] at hmem
  rcases hmem with rfl | rfl | rfl | rfl
  · simpa [hpattern] using IgnoreFilter.ignores_spelled h false false
  · simpa [hpattern] using IgnoreFilter.ignores_spelled h true false
  · simpa [hpattern] using IgnoreFilter.ignores_spelled h false true
  · simpa [hpattern] using IgnoreFilter.ignores_spelled h true true

/-- The name `größe,x`, with a character of two bytes, in a path with doubled slashes and names of
directories that every directory has. -/
theorem ignores_name_in_directories :
    IsLiteralName "größe,x" ∧
    ∃ f, IgnoreFilter.ofPatterns ["**/größe,x/**"] = .ok f ∧
      f.ignores ⟨"./a//größe,x/../b.py/"⟩ ∧ ¬ f.ignores ⟨"a/größe,xx/größe.py"⟩ ∧
      f.descends ⟨"größe,x"⟩ = false := by
  have hmarks : "größe,x".toList.all (fun c => !marks.contains c) := by decide
  have h : IsLiteralName "größe,x" := ⟨by decide, by simpa using hmarks⟩
  obtain ⟨f, hf, hignores⟩ :=
    ignores_iff_component "größe,x" h "**/größe,x/**" (by decide)
  refine ⟨h, f, hf, (hignores _).1.mpr (by decide), ?_, (hignores _).2.mpr (by decide)⟩
  rw [(hignores _).1]
  decide

end DocGate

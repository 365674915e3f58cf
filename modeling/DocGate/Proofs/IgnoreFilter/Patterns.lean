/-
DocGate.Proofs.IgnoreFilter.Patterns — patterns one by one.

A filter keeps the globs of all its patterns in three lists: for whole paths, for the
names of files, and for components. What it ignores can still be told from the patterns
one by one.

* `IgnoreFilter.ignores_add` — adding a pattern makes a filter ignore what that pattern
  ignores, and nothing else.
* `IgnoreFilter.ignores_ofPatterns` — a filter ignores a path exactly if one of its
  patterns does, whatever their order, and however often each occurs.

Both are about patterns that compile; a filter of others does not exist.
-/
import DocGate.IgnoreFilter

namespace DocGate

namespace IgnorePattern

/-- Whether a text is a glob and matches another text. -/
def globMatches (glob text : String) : Bool :=
  match Glob.compile glob with
  | .ok ts => Glob.isMatch ts text
  | .error _ => false

/-- Whether the glob that a pattern holds for components matches one of a path. -/
def ignoresComponent (pattern : String) (p : Path) : Bool :=
  p.components.any fun c =>
    match c with
    | .normal name => (componentGlob? pattern).any fun glob => globMatches glob name
    | _ => false

/-- Whether the glob that a pattern holds for the names of files matches that of a path. -/
def ignoresName (pattern : String) (p : Path) : Bool :=
  match p.fileName? with
  | some name => (nameGlob? pattern).any fun glob => globMatches glob name
  | none => false

/-- Whether a pattern ignores a file: its whole path, its name, or one of its components. -/
def ignores (pattern : String) (p : Path) : Bool :=
  globMatches pattern p.text || ignoresName pattern p || ignoresComponent pattern p

end IgnorePattern

namespace IgnoreFilter

open IgnorePattern

variable {f g : IgnoreFilter} {pattern : String}

theorem isMatch_of_compileFor {glob : String} {ts : List Glob.Token}
    (h : compileFor pattern glob = .ok ts) (text : String) :
    Glob.isMatch ts text = globMatches glob text := by
  unfold compileFor at h
  unfold globMatches
  cases hc : Glob.compile glob with
  | error e => rw [hc] at h; cases h
  | ok us => rw [hc] at h; cases h; rfl

theorem anyMatch_of_compileFor? {glob : Option String} {globs : List (List Glob.Token)}
    (h : compileFor? pattern glob = .ok globs) (text : String) :
    anyMatch globs text = glob.any fun glob => globMatches glob text := by
  cases glob with
  | none => cases h; rfl
  | some glob =>
    rw [compileFor?] at h
    cases hc : compileFor pattern glob with
    | error e => rw [hc] at h; cases h
    | ok ts =>
      rw [hc] at h
      cases h
      simp [anyMatch, isMatch_of_compileFor hc]

theorem anyMatch_append (globs more : List (List Glob.Token)) (text : String) :
    anyMatch (globs ++ more) text = (anyMatch globs text || anyMatch more text) :=
  List.any_append

/-- What adding a pattern does to each of the three lists. -/
theorem anyMatch_add (h : f.add pattern = .ok g) (text : String) :
    anyMatch g.paths text = (anyMatch f.paths text || globMatches pattern text) ∧
      anyMatch g.names text
        = (anyMatch f.names text || (nameGlob? pattern).any fun glob => globMatches glob text) ∧
      anyMatch g.components text
        = (anyMatch f.components text
          || (componentGlob? pattern).any fun glob => globMatches glob text) := by
  simp only [add, bind, Except.bind] at h
  cases hpath : compileFor pattern pattern with
  | error e => rw [hpath] at h; cases h
  | ok path =>
    cases hname : compileFor? pattern (nameGlob? pattern) with
    | error e => rw [hpath, hname] at h; cases h
    | ok name =>
      cases hcomponent : compileFor? pattern (componentGlob? pattern) with
      | error e => rw [hpath, hname, hcomponent] at h; cases h
      | ok component =>
        rw [hpath, hname, hcomponent] at h
        cases h
        have hsingle : anyMatch [path] text = globMatches pattern text := by
          simp [anyMatch, isMatch_of_compileFor hpath]
        simp only [anyMatch_append, hsingle, anyMatch_of_compileFor? hname,
          anyMatch_of_compileFor? hcomponent, and_self]

theorem hasIgnoredComponent_add (h : f.add pattern = .ok g) (p : Path) :
    g.hasIgnoredComponent p = (f.hasIgnoredComponent p || ignoresComponent pattern p) := by
  rw [hasIgnoredComponent, hasIgnoredComponent, ignoresComponent]
  induction p.components with
  | nil => rfl
  | cons c cs ih =>
    simp only [List.any_cons, ih]
    cases c with
    | normal name =>
      simp only [(anyMatch_add h name).2.2]
      ac_rfl
    | root => rfl
    | current => rfl
    | parent => rfl

/-- Adding a pattern makes a filter ignore what the pattern ignores, and nothing else. -/
theorem ignores_add (h : f.add pattern = .ok g) (p : Path) :
    g.ignores p = (f.ignores p || IgnorePattern.ignores pattern p) := by
  rw [ignores, ignores, IgnorePattern.ignores, hasIgnoredComponent_add h, (anyMatch_add h _).1,
    ignoresName]
  cases p.fileName? with
  | none =>
    simp only [Bool.or_false]
    ac_rfl
  | some name =>
    simp only [(anyMatch_add h name).2.1]
    ac_rfl

theorem ignores_foldlM_add {patterns : List String} (h : patterns.foldlM add f = .ok g) (p : Path) :
    g.ignores p = (f.ignores p || patterns.any fun pattern => IgnorePattern.ignores pattern p) := by
  induction patterns generalizing f with
  | nil =>
    cases h
    simp
  | cons pattern patterns ih =>
    rw [List.foldlM_cons] at h
    cases hadd : f.add pattern with
    | error e => rw [hadd] at h; cases h
    | ok f' =>
      rw [hadd] at h
      rw [ih h, ignores_add hadd, List.any_cons, Bool.or_assoc]

/-- A filter without patterns ignores nothing. -/
theorem ignores_empty (p : Path) : ignores {} p = false := by
  have hcomponents : hasIgnoredComponent {} p = false := by
    rw [hasIgnoredComponent, List.any_eq_false]
    intro c _
    cases c <;> simp [anyMatch]
  rw [ignores, hcomponents]
  cases p.fileName? <;> rfl

/-- A filter ignores what one of its patterns ignores. -/
theorem ignores_ofPatterns {patterns : List String} (h : ofPatterns patterns = .ok f) (p : Path) :
    f.ignores p = patterns.any fun pattern => IgnorePattern.ignores pattern p := by
  rw [ignores_foldlM_add h, ignores_empty, Bool.false_or]

/-- A filter with some of the patterns of another one ignores nothing that the other one does
not. -/
theorem ignores_of_subset {patterns more : List String} (hf : ofPatterns patterns = .ok f)
    (hg : ofPatterns more = .ok g) (hsubset : ∀ pattern ∈ patterns, pattern ∈ more) {p : Path}
    (h : f.ignores p) : g.ignores p := by
  rw [ignores_ofPatterns hf, List.any_eq_true] at h
  rw [ignores_ofPatterns hg, List.any_eq_true]
  obtain ⟨pattern, hmem, hignores⟩ := h
  exact ⟨pattern, hsubset pattern hmem, hignores⟩

end IgnoreFilter

end DocGate

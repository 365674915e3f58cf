/-
DocGate.Proofs.Config.PatternAgreement — patterns that are checked and patterns that are
compiled.

Settings are checked by reading each pattern as a glob. A scanner reads more: what is
behind a leading `**/`, and what is left without any `**/` and `/**`.

* `IgnorePattern.nameGlob_isOk` — taking away a leading `**/` leaves a glob a glob, for
  every pattern.
* `check_isOk_of_slash_class` — taking away what stands in a class or behind a backslash
  may not: `[/**]` is a glob and `[]` is none. So there are settings that pass the check
  and make no scanner.
* `ofConfig_isOk_iff` — which settings make a scanner. Threshold and target are taken to
  be in range, since a scanner does not look at them. If no pattern has a class or a
  backslash (`IsPlain`), the check is enough.
* `ofConfig_isOk_default` — the defaults make a scanner.
-/
import DocGate.Proofs.Glob.Validity
import DocGate.Scanner

namespace DocGate

open Glob

namespace IgnorePattern

theorem dropLeading_sublist (cs : List Char) : (dropLeading cs).Sublist cs := by
  fun_induction dropLeading cs with
  | case1 cs ih => exact ((ih.cons _).cons _).cons _
  | case2 c cs _ ih => exact ih.cons_cons c
  | case3 => exact .slnil

/-- Where all is plain text, taking away each `**/` makes no difference. -/
theorem validFrom_dropLeading (cs : List Char) (h : IsPlain cs) (depth : Nat) :
    validFrom ⟨.plain, depth⟩ (dropLeading cs) = validFrom ⟨.plain, depth⟩ cs := by
  fun_induction dropLeading cs generalizing depth with
  | case1 cs ih => rw [validFrom_stars_slash, ih h.tail.tail.tail]
  | case2 c cs _ ih =>
    exact (validFrom_cons_congr h (fun d => (ih h.tail d).symm) depth).symm
  | case3 => rfl

/-- Where all is plain text, taking away each `/**` makes no difference. -/
theorem validFrom_dropTrailing (cs : List Char) (h : IsPlain cs) (depth : Nat) :
    validFrom ⟨.plain, depth⟩ (dropTrailing cs) = validFrom ⟨.plain, depth⟩ cs := by
  fun_induction dropTrailing cs generalizing depth with
  | case1 cs ih => rw [validFrom_slash_stars, ih h.tail.tail.tail]
  | case2 c cs _ ih =>
    exact (validFrom_cons_congr h (fun d => (ih h.tail d).symm) depth).symm
  | case3 => rfl

/-- What is behind a leading `**/` is a glob exactly if the whole is. -/
theorem nameGlob_isOk {pattern glob : String} (h : nameGlob? pattern = some glob) :
    (compile glob).isOk = (compile pattern).isOk := by
  unfold nameGlob? at h
  split at h
  · rename_i cs hcs
    cases h
    rw [compile_isOk, compile_isOk, hcs, validFrom_stars_slash, String.toList_ofList]
  · cases h

/-- What is left of a pattern of plain text for a component is a glob exactly if the whole
is. -/
theorem componentGlob_isOk {pattern glob : String} (hp : IsPlain pattern.toList)
    (h : componentGlob? pattern = some glob) : (compile glob).isOk = (compile pattern).isOk := by
  unfold componentGlob? at h
  simp only at h
  split at h
  · cases h
  · cases h
    have hleading : IsPlain (dropLeading pattern.toList) :=
      ⟨fun hc => hp.1 ((dropLeading_sublist _).subset hc),
        fun hc => hp.2 ((dropLeading_sublist _).subset hc)⟩
    rw [compile_isOk, compile_isOk, String.toList_ofList, validFrom_dropTrailing _ hleading,
      validFrom_dropLeading _ hp]

end IgnorePattern

namespace IgnoreFilter

/-- What has to be a glob for a pattern to be added. -/
def compiles (pattern : String) : Bool :=
  (compile pattern).isOk
    && (IgnorePattern.nameGlob? pattern).all (fun g => (compile g).isOk)
    && (IgnorePattern.componentGlob? pattern).all (fun g => (compile g).isOk)

theorem compileFor_isOk (pattern glob : String) :
    (compileFor pattern glob).isOk = (compile glob).isOk := by
  unfold compileFor
  cases compile glob <;> rfl

theorem compileFor?_isOk (pattern : String) (glob : Option String) :
    (compileFor? pattern glob).isOk = glob.all fun g => (compile g).isOk := by
  cases glob with
  | none => rfl
  | some g =>
    rw [compileFor?, Option.all_some, ← compileFor_isOk pattern g]
    cases compileFor pattern g <;> rfl

theorem add_isOk (f : IgnoreFilter) (pattern : String) :
    (f.add pattern).isOk = compiles pattern := by
  rw [compiles, ← compileFor_isOk pattern pattern, ← compileFor?_isOk pattern,
    ← compileFor?_isOk pattern]
  simp only [add, bind, Except.bind]
  cases compileFor pattern pattern with
  | error e => rfl
  | ok path =>
    cases compileFor? pattern (IgnorePattern.nameGlob? pattern) with
    | error e => rfl
    | ok name =>
      cases compileFor? pattern (IgnorePattern.componentGlob? pattern) with
      | error e => rfl
      | ok component => rfl

theorem foldlM_add_isOk (patterns : List String) (f : IgnoreFilter) :
    (patterns.foldlM add f).isOk = patterns.all compiles := by
  induction patterns generalizing f with
  | nil => rfl
  | cons p ps ih =>
    rw [List.foldlM_cons, List.all_cons, ← add_isOk f p]
    cases f.add p with
    | error e => rfl
    | ok g => exact ih g

end IgnoreFilter

theorem Config.checkPatterns_isOk (patterns : List String) :
    (Config.checkPatterns patterns).isOk = patterns.all fun p => (compile p).isOk := by
  induction patterns with
  | nil => rfl
  | cons p ps ih =>
    rw [Config.checkPatterns, List.all_cons, ← ih]
    cases compile p <;> rfl

theorem Config.check_isOk {c : Config} (ht : c.hasValidThreshold) (hr : c.hasValidTarget) :
    c.check.isOk = c.ignore.all fun p => (compile p).isOk := by
  rw [← Config.checkPatterns_isOk, Config.check, ht, hr]
  rfl

theorem Scanner.ofConfig_isOk (c : Config) :
    (Scanner.ofConfig c).isOk = c.ignore.all IgnoreFilter.compiles := by
  rw [← IgnoreFilter.foldlM_add_isOk c.ignore {}, Scanner.ofConfig, IgnoreFilter.ofPatterns]
  cases c.ignore.foldlM IgnoreFilter.add {} <;> rfl

/-- **Which settings make a scanner.** Of settings with a valid threshold and target, those make
a scanner that pass the check and whose patterns leave a glob for components. A glob for names
never stands in the way. In particular the check and the scanner agree on settings whose
patterns have neither a class nor an escape. -/
theorem ofConfig_isOk_iff (c : Config) (ht : c.hasValidThreshold) (hr : c.hasValidTarget) :
    ((Scanner.ofConfig c).isOk ↔ c.check.isOk ∧ ∀ p ∈ c.ignore, ∀ g,
      IgnorePattern.componentGlob? p = some g → (compile g).isOk) ∧
    ((∀ p ∈ c.ignore, IsPlain p.toList) → ((Scanner.ofConfig c).isOk ↔ c.check.isOk)) := by
  have hiff : (Scanner.ofConfig c).isOk ↔ c.check.isOk ∧ ∀ p ∈ c.ignore, ∀ g,
      IgnorePattern.componentGlob? p = some g → (compile g).isOk := by
    rw [Scanner.ofConfig_isOk, Config.check_isOk ht hr, List.all_eq_true, List.all_eq_true]
    constructor
    · intro h
      refine ⟨fun p hp => ?_, fun p hp g hg => ?_⟩
      · have hc := h p hp
        simp only [IgnoreFilter.compiles, Bool.and_eq_true] at hc
        exact hc.1.1
      · have hc := h p hp
        simp only [IgnoreFilter.compiles, Bool.and_eq_true, hg, Option.all_some] at hc
        exact hc.2
    · rintro ⟨hcheck, hcomponent⟩ p hp
      simp only [IgnoreFilter.compiles, Bool.and_eq_true]
      refine ⟨⟨hcheck p hp, ?_⟩, ?_⟩
      · rw [Option.all_eq_true]
        intro g hg
        rw [IgnorePattern.nameGlob_isOk hg]
        exact hcheck p hp
      · rw [Option.all_eq_true]
        exact hcomponent p hp
  refine ⟨hiff, fun hplain => hiff.trans ⟨fun h => h.1, fun hcheck => ⟨hcheck, ?_⟩⟩⟩
  intro p hp g hg
  rw [IgnorePattern.componentGlob_isOk (hplain p hp) hg]
  rw [Config.check_isOk ht hr, List.all_eq_true] at hcheck
  exact hcheck p hp

/-- The default patterns have neither a class nor an escape, so the default settings make a
scanner. -/
theorem ofConfig_isOk_default : (Scanner.ofConfig Config.default).isOk := by
  have hcheck : Config.default.check.isOk := by decide +kernel
  exact ((ofConfig_isOk_iff Config.default (by decide) (by decide +kernel)).2
    (by simp only [IsPlain]; decide +kernel)).mpr hcheck

/-- Settings that ignore the class of a slash and a star pass the check and make no scanner,
because an empty class is left for components. -/
theorem check_isOk_of_slash_class :
    ∃ c : Config, c.hasValidThreshold ∧ c.hasValidTarget ∧ c.check.isOk ∧
      Scanner.ofConfig c = .error (.invalidPattern ⟨"[/**]", ⟨"[]", .unclosedClass⟩⟩) :=
  ⟨{ ignore := ["[/**]"] }, by decide, by decide +kernel, by decide +kernel, rfl⟩

end DocGate

/-
DocGate.Proofs.Report.Colours — colours are decoration.

Painted text with colours is the same text without them, and codes in between. Here that
is told from the outside, by one who has only the coloured text and takes codes out of
it, one after the other and wherever one is seen.

* `Deletes`, `IsStripped` — taking out one code, and a text in which this can end.
* `Coded`, `Coded.deletes` — the invariant: a text is made of characters other than the
  escape character and of whole codes. A code that is seen in such a text is one of
  those that it is made of, because codes start with the escape character and hold no
  other one.
* `isStripped_renderAll_iff` — there is one text in which taking out codes can end,
  whatever the order: the text without colours.
* `TextReport.isClean_lines`, `Notice.isClean_lines` — what the program itself writes is
  free of escape characters.
* `isStripped_iff_plain` — all this for every report and every notice, and the two texts
  of a notice as they are written.

The side condition is that what is told has no escape character of its own
(`ScanReport.IsClean`, `Notice.IsClean`): the paths and names of a report, the texts of
a notice. A text like `[31m` may well be among them.
-/
import DocGate.Proofs.Number.Spelling
import DocGate.Report.Notice
import DocGate.Report.Text
import Mathlib.Logic.Relation

namespace DocGate

namespace Paint

/-- The character with which every code starts. -/
def escape : Char := '\x1b'

/-- The codes that switch a paint on, and the one that switches all paint off. -/
def codes : List (List Char) :=
  [red, green, yellow, cyan, bold, dim].map (fun p => p.code.toList) ++ [reset.toList]

theorem code_mem_codes (p : Paint) : p.code.toList ∈ codes := by
  cases p <;> simp [codes]

theorem reset_mem_codes : reset.toList ∈ codes := by simp [codes]

theorem head?_of_mem_codes : ∀ k ∈ codes, k.head? = some escape := by decide

theorem escape_not_mem_tail : ∀ k ∈ codes, escape ∉ k.tail := by decide

theorem eq_of_prefix_codes : ∀ k ∈ codes, ∀ k' ∈ codes, k <+: k' → k = k' := by decide

theorem exists_cons_of_mem_codes {k : List Char} (hk : k ∈ codes) :
    ∃ tail, k = escape :: tail ∧ escape ∉ tail := by
  have hhead := head?_of_mem_codes k hk
  have htail := escape_not_mem_tail k hk
  cases k with
  | nil => cases hhead
  | cons c tail => exact ⟨tail, by rw [Option.some.inj hhead], htail⟩

/-- Two codes do not overlap: one that is seen in a text that starts with a code is that code, or
comes behind it. -/
theorem eq_or_behind {k k' before after text : List Char} (hk : k ∈ codes) (hk' : k' ∈ codes)
    (h : before ++ (k ++ after) = k' ++ text) :
    (before = [] ∧ after = text) ∨ ∃ inner, before = k' ++ inner ∧ text = inner ++ (k ++ after) := by
  obtain ⟨tail, hcons, -⟩ := exists_cons_of_mem_codes hk
  obtain ⟨tail', hcons', hescape⟩ := exists_cons_of_mem_codes hk'
  rcases List.append_eq_append_iff.mp h with ⟨inner, hinner, hrest⟩ | hbehind
  · cases before with
    | nil =>
      rw [List.nil_append] at h
      have heq : k = k' := by
        rcases List.prefix_or_prefix_of_prefix (h ▸ List.prefix_append k after)
          (List.prefix_append k' text) with hleads | hleads
        · exact eq_of_prefix_codes k hk k' hk' hleads
        · exact (eq_of_prefix_codes k' hk' k hk hleads).symm
      subst heq
      exact .inl ⟨rfl, List.append_cancel_left h⟩
    | cons d before =>
      cases inner with
      | nil =>
        rw [List.append_nil] at hinner
        exact .inr ⟨[], by rw [hinner, List.append_nil], hrest.symm⟩
      | cons e inner =>
        -- the escape character that starts `k` would be inside `k'`
        rw [hcons, List.cons_append, List.cons_append] at hrest
        rw [hcons', List.cons_append] at hinner
        obtain ⟨rfl, -⟩ := List.cons.inj hrest
        obtain ⟨-, rfl⟩ := List.cons.inj hinner
        exact absurd (List.mem_append_right before List.mem_cons_self) hescape
  · exact .inr hbehind

/-! ## Taking codes out -/

/-- One code is taken out of a text. -/
inductive Deletes : List Char → List Char → Prop
  | code (before after k : List Char) (hk : k ∈ codes) :
      Deletes (before ++ (k ++ after)) (before ++ after)

/-- The text `plain` is what is left of `text` when codes have been taken out, one after the other
and in any order, until none is left. -/
structure IsStripped (text plain : String) : Prop where
  reached : Relation.ReflTransGen Deletes text.toList plain.toList
  final : ∀ k ∈ codes, ¬ k <:+: plain.toList

/-- The text `text` is made of the characters of `plain`, none of them the escape character, with
codes in between. -/
inductive Coded : List Char → List Char → Prop
  | nil : Coded [] []
  | char {c : Char} {text plain : List Char} (hc : c ≠ escape) (h : Coded text plain) :
      Coded (c :: text) (c :: plain)
  | code {k text plain : List Char} (hk : k ∈ codes) (h : Coded text plain) :
      Coded (k ++ text) plain

namespace Coded

variable {text text' plain plain' : List Char}

theorem of_clean (h : escape ∉ text) : Coded text text := by
  induction text with
  | nil => exact .nil
  | cons c text ih =>
    rw [List.mem_cons, not_or] at h
    exact .char (Ne.symm h.1) (ih h.2)

theorem append (h : Coded text plain) (h' : Coded text' plain') :
    Coded (text ++ text') (plain ++ plain') := by
  induction h with
  | nil => exact h'
  | char hc _ ih => exact .char hc ih
  | code hk _ ih =>
    rw [List.append_assoc]
    exact .code hk ih

theorem escape_not_mem (h : Coded text plain) : escape ∉ plain := by
  induction h with
  | nil => exact List.not_mem_nil
  | char hc _ ih =>
    rw [List.mem_cons, not_or]
    exact ⟨Ne.symm hc, ih⟩
  | code _ _ ih => exact ih

/-- Taking out all the codes leaves the characters in between. -/
theorem reaches (h : Coded text plain) : Relation.ReflTransGen Deletes text plain := by
  induction h with
  | nil => exact .refl
  | @char c text plain _ _ ih =>
    refine ih.lift (c :: ·) ?_
    rintro _ _ ⟨before, after, k, hk⟩
    exact .code (c :: before) after k hk
  | code hk _ ih => exact .head (.code [] _ _ hk) ih

/-- A code that is seen in a text is one of those that the text is made of. -/
theorem deletes (h : Coded text plain) (hstep : Deletes text text') : Coded text' plain := by
  obtain ⟨before, after, k, hk⟩ := hstep
  obtain ⟨tail, hcons, -⟩ := exists_cons_of_mem_codes hk
  generalize htext : before ++ (k ++ after) = text at h
  induction h generalizing before with
  | nil => simp [hcons] at htext
  | char hc _ ih =>
    cases before with
    | nil =>
      rw [List.nil_append, hcons, List.cons_append] at htext
      exact absurd (List.cons.inj htext).1.symm hc
    | cons d before =>
      obtain ⟨rfl, hrest⟩ := List.cons.inj htext
      exact .char hc (ih before hrest)
  | code hk' h ih =>
    rcases eq_or_behind hk hk' htext with ⟨rfl, rfl⟩ | ⟨inner, rfl, hrest⟩
    · exact h
    · rw [List.append_assoc]
      exact .code hk' (ih inner hrest.symm)

theorem of_reached (h : Coded text plain) (hreached : Relation.ReflTransGen Deletes text text') :
    Coded text' plain := by
  induction hreached with
  | refl => exact h
  | tail _ hstep ih => exact ih.deletes hstep

/-- A text in which no code is left is the plain one. -/
theorem eq_of_final (h : Coded text plain) (hfinal : ∀ k ∈ codes, ¬ k <:+: text) :
    text = plain := by
  induction h with
  | nil => rfl
  | char _ _ ih =>
    rw [ih fun k hk hfound => hfinal k hk (hfound.trans (List.suffix_cons _ _).isInfix)]
  | code hk _ _ => exact absurd (List.prefix_append _ _).isInfix (hfinal _ hk)

/-- Taking codes out can end in the plain text, and in no other one. -/
theorem isStripped_iff {text plain : String} (h : Coded text.toList plain.toList) (s : String) :
    IsStripped text s ↔ s = plain := by
  constructor
  · rintro ⟨hreached, hfinal⟩
    exact String.toList_injective ((h.of_reached hreached).eq_of_final hfinal)
  · rintro rfl
    refine ⟨h.reaches, ?_⟩
    intro k hk hfound
    obtain ⟨tail, rfl, -⟩ := exists_cons_of_mem_codes hk
    exact h.escape_not_mem (hfound.mem List.mem_cons_self)

end Coded

/-! ## Texts without escape characters -/

/-- A text without escape characters. -/
def IsClean (s : String) : Prop := escape ∉ s.toList

instance (s : String) : Decidable (IsClean s) := inferInstanceAs (Decidable (escape ∉ s.toList))

@[simp] theorem isClean_append (s t : String) : IsClean (s ++ t) ↔ IsClean s ∧ IsClean t := by
  simp [IsClean]

@[simp] theorem isClean_ofList (cs : List Char) : IsClean (String.ofList cs) ↔ escape ∉ cs := by
  rw [IsClean, String.toList_ofList]

@[simp] theorem isClean_repr (n : Nat) : IsClean n.repr := by
  rw [Nat.repr, isClean_ofList]
  intro h
  have hdigit := Nat.isDigit_of_mem_toDigits (by decide) (by decide) h
  revert hdigit
  decide

@[simp] theorem isClean_percent (x : Binary64) : IsClean x.percent := by
  have hsign (negative : Bool) : IsClean (Binary64.signText negative) := by
    cases negative <;> decide
  unfold Binary64.percent
  cases x.scale 100 with
  | nan => decide
  | infinite negative =>
    simp only [Binary64.spellTenths, Binary64.spell, isClean_append]
    exact ⟨hsign negative, by decide⟩
  | finite negative units =>
    have hpoint : IsClean "." := by decide
    simp [Binary64.spellTenths, hsign, hpoint]

@[simp] theorem isClean_blanks (n : Nat) : IsClean (TextReport.blanks n) := by
  rw [TextReport.blanks, isClean_ofList]
  intro h
  have hblank := List.eq_of_mem_replicate h
  revert hblank
  decide

@[simp] theorem isClean_padRight (w : Nat) (cell : String) :
    IsClean (TextReport.padRight w cell) ↔ IsClean cell := by
  simp [TextReport.padRight]

@[simp] theorem isClean_padLeft (w : Nat) (cell : String) :
    IsClean (TextReport.padLeft w cell) ↔ IsClean cell := by
  simp [TextReport.padLeft]

@[simp] theorem isClean_name (x : Severity) : IsClean x.name := by cases x <;> decide

@[simp] theorem isClean_symbol (x : Severity) : IsClean x.symbol := by cases x <;> decide

@[simp] theorem isClean_description (x : Severity) : IsClean x.description := by
  cases x <;> decide

end Paint

/-! ## Painted lines -/

namespace PaintedLine

open Paint (IsClean Coded IsStripped)

/-- No span of a line has an escape character of its own. -/
def IsCleanLine (l : PaintedLine) : Prop := ∀ s ∈ l, IsClean s.text

@[simp] theorem isCleanLine_nil : IsCleanLine [] := by simp [IsCleanLine]

@[simp] theorem isCleanLine_cons (s : Span) (l : PaintedLine) :
    IsCleanLine (s :: l) ↔ IsClean s.text ∧ IsCleanLine l := by
  simp [IsCleanLine]

@[simp] theorem isCleanLine_plain (text : String) : IsCleanLine (plain text) ↔ IsClean text := by
  simp [plain]

@[simp] theorem isCleanLine_all (paint : Paint) (text : String) :
    IsCleanLine (all paint text) ↔ IsClean text := by
  simp [all]

/-- A span with colours is its text with codes around it. -/
theorem coded_span {s : Span} (h : IsClean s.text) :
    Coded (s.render true).toList (s.render false).toList := by
  have htext : Coded s.text.toList s.text.toList := .of_clean h
  by_cases hpaints : s.paints.isEmpty
  · simpa [Span.render, hpaints] using htext
  · have hreset : Coded (s.text.toList ++ Paint.reset.toList) s.text.toList := by
      simpa using htext.append (.code Paint.reset_mem_codes .nil)
    have hopen (paints : List Paint) :
        Coded (paints.flatMap fun p => p.code.toList) [] := by
      induction paints with
      | nil => exact .nil
      | cons p paints ih => exact .code p.code_mem_codes ih
    have hspan := (hopen s.paints).append hreset
    simpa [Span.render, hpaints, List.flatMap_map] using hspan

theorem coded_flatMap {α : Type} {xs : List α} {text plain : α → List Char}
    (h : ∀ x ∈ xs, Coded (text x) (plain x)) : Coded (xs.flatMap text) (xs.flatMap plain) := by
  induction xs with
  | nil => exact .nil
  | cons x xs ih =>
    rw [List.flatMap_cons, List.flatMap_cons]
    exact (h x List.mem_cons_self).append (ih fun y hy => h y (List.mem_cons_of_mem x hy))

theorem coded_render {l : PaintedLine} (h : l.IsCleanLine) :
    Coded (l.render true).toList (l.render false).toList := by
  have hspans := coded_flatMap fun s hs => coded_span (h s hs)
  have hend : Coded "\n".toList "\n".toList := .of_clean (by decide)
  simpa [render, List.flatMap_map] using hspans.append hend

/-- What is left of clean lines with colours, when all codes have been taken out, are the lines
without colours. -/
theorem isStripped_renderAll_iff {ls : List PaintedLine} (h : ∀ l ∈ ls, l.IsCleanLine)
    (s : String) : IsStripped (renderAll true ls) s ↔ s = renderAll false ls := by
  have hlines := coded_flatMap fun l hl => coded_render (h l hl)
  exact Coded.isStripped_iff (by simpa [renderAll, List.flatMap_map] using hlines) s

end PaintedLine

/-! ## Reports and notices -/

open Paint (IsClean IsStripped)

/-- The paths and the names of functions in a report have no escape characters. -/
def ScanReport.IsClean (r : ScanReport) : Prop :=
  ∀ f ∈ r.files, Paint.IsClean f.path ∧ ∀ g ∈ f.functions, Paint.IsClean g.name

theorem ScanReport.IsClean.of_mem_violations {r : ScanReport} (h : r.IsClean) {f : FileReport}
    {v : ScoredFunction} (hv : (f, v) ∈ r.violations) :
    Paint.IsClean f.path ∧ Paint.IsClean v.name := by
  obtain ⟨f', hf, hpair⟩ := List.mem_flatMap.mp hv
  obtain ⟨v', hviolation, heq⟩ := List.mem_map.mp hpair
  obtain ⟨rfl, rfl⟩ := Prod.mk.inj heq
  obtain ⟨i, -, hi⟩ := List.mem_filterMap.mp hviolation
  rw [List.getElem?_toArray] at hi
  exact ⟨(h f' hf).1, (h f' hf).2 v' (List.mem_of_getElem? hi)⟩

namespace TextReport

theorem isClean_summary (o : Options) (r : ScanReport) : ∀ l ∈ summary o r, l.IsCleanLine := by
  have htitles : IsClean "Scan Results" ∧ IsClean "Files analyzed: " ∧
      IsClean "Total functions: " ∧ IsClean "Documentation coverage: " ∧ IsClean "%" ∧
      IsClean "Violations: " := by decide
  simp [summary, htitles]

theorem isClean_fileBlock {r : ScanReport} (h : r.IsClean) :
    ∀ l ∈ fileBlock r, l.IsCleanLine := by
  have htitles : IsClean "  " ∧ IsClean ": " ∧ IsClean " functions, " ∧
      IsClean " documented (" ∧ IsClean "%)" := by decide
  intro l hl
  rcases List.mem_cons.mp hl with rfl | hl
  · exact PaintedLine.isCleanLine_nil
  · obtain ⟨f, hf, rfl⟩ := List.mem_map.mp hl
    simp [fileLine, htitles, (h f hf).1]

theorem isClean_table {r : ScanReport} (h : r.IsClean) : ∀ l ∈ table r, l.IsCleanLine := by
  have htitles : IsClean "Documentation violations:" ∧ IsClean "  " ∧ IsClean " " ∧
      IsClean "File" ∧ IsClean "Function" ∧ IsClean "Line" ∧ IsClean "Score" ∧
      IsClean "Severity" := by decide
  intro l hl
  simp only [table, List.mem_cons] at hl
  rcases hl with rfl | rfl | rfl | hl
  · exact PaintedLine.isCleanLine_nil
  · simp [htitles]
  · simp [headerLine, header, htitles]
  · obtain ⟨row, hrow, rfl⟩ := List.mem_map.mp hl
    obtain ⟨⟨f, v⟩, hv, rfl⟩ := List.mem_map.mp hrow
    obtain ⟨hpath, hname⟩ := h.of_mem_violations hv
    simp [rowLine, Row.ofViolation, htitles, hpath, hname]

theorem isClean_legend (r : ScanReport) : ∀ l ∈ legend r, l.IsCleanLine := by
  have hblanks : IsClean "  " ∧ IsClean " " := by decide
  intro l hl
  rcases List.mem_cons.mp hl with rfl | hl
  · exact PaintedLine.isCleanLine_nil
  · obtain ⟨x, -, rfl⟩ := List.mem_map.mp hl
    simp [hblanks]

/-- The lines of a report have no escape characters but those of its paths and names. -/
theorem isClean_lines {r : ScanReport} (h : r.IsClean) (o : Options) :
    ∀ l ∈ lines o r, l.IsCleanLine := by
  intro l hl
  unfold lines at hl
  split at hl
  · rw [List.mem_singleton] at hl
    subst hl
    rw [PaintedLine.isCleanLine_all]
    decide
  · rcases List.mem_append.mp hl with hl | hl
    · rcases List.mem_append.mp hl with hl | hl
      · exact isClean_summary o r l hl
      · split at hl
        · exact isClean_fileBlock h l hl
        · cases hl
    · split at hl
      · rcases List.mem_append.mp hl with hl | hl
        · exact isClean_table h l hl
        · split at hl
          · exact isClean_legend r l hl
          · cases hl
      · cases hl

end TextReport

namespace Notice

/-- Nothing that a notice tells has an escape character. -/
structure IsClean (n : Notice) : Prop where
  title : Paint.IsClean n.title
  message : Paint.IsClean n.message
  detail : ∀ d ∈ n.detail, Paint.IsClean d
  suggestion : ∀ s ∈ n.suggestion, Paint.IsClean s

theorem isClean_lines {n : Notice} (h : n.IsClean) : ∀ l ∈ n.lines, l.IsCleanLine := by
  have hmarks : Paint.IsClean "✖ " ∧ Paint.IsClean ":" ∧ Paint.IsClean " " ∧
      Paint.IsClean "  " ∧ Paint.IsClean "× " ∧ Paint.IsClean "help:" := by decide
  intro l hl
  simp only [lines, List.mem_append, List.mem_singleton, List.mem_map, Option.mem_toList] at hl
  rcases hl with (rfl | ⟨d, hd, rfl⟩) | ⟨s, hs, rfl⟩
  · simp [hmarks, h.title, h.message]
  · simp [hmarks, h.detail d hd]
  · simp [hmarks, h.suggestion s hs]

end Notice

/-- **Colours are decoration.** Take the codes out of a text report with colours, one after the
other and in any order, until none is left. If no path and no name of a function in it has an
escape character, this comes to the same report without colours, and to nothing else, at every
verbosity and for every target. The same holds of the two texts of a notice of failure, if nothing
that it tells has an escape character. -/
theorem isStripped_iff_plain :
    (∀ (o : TextReport.Options) (r : ScanReport), r.IsClean →
      ∀ s, IsStripped (TextReport.render true o r) s ↔ s = TextReport.render false o r) ∧
    (∀ n : Notice, n.IsClean →
      ∀ s, IsStripped (n.render true) s ↔ s = n.render false) ∧
    (∀ n : Notice, n.render true = n.coloured ∧ n.render false = n.uncoloured) := by
  refine ⟨?_, ?_, fun n => ⟨n.render_true, n.render_false⟩⟩
  · intro o r h
    exact PaintedLine.isStripped_renderAll_iff (TextReport.isClean_lines h o)
  · intro n h
    exact PaintedLine.isStripped_renderAll_iff (Notice.isClean_lines h)

/-- A report whose path and whose names look like codes, but for the escape character. -/
def ScanReport.bracketed : ScanReport :=
  ⟨[.check 5 "[31m/[0m.py" [⟨"[1m", 3, 12, false⟩, ⟨"größe", 8, 2, true⟩]]⟩

/-- A notice that tells of such a path. -/
def Notice.bracketed : Notice :=
  { title := "Error", message := "[31m.py", detail := some "no such file" }

/-- What looks like a code without an escape character is left alone. -/
theorem isStripped_bracketed :
    ScanReport.bracketed.IsClean ∧ Notice.bracketed.IsClean ∧
    IsStripped (TextReport.render true ⟨1, .one⟩ .bracketed)
      (TextReport.render false ⟨1, .one⟩ .bracketed) ∧
    (∀ s, IsStripped
        "\x1b[1m\x1b[31m✖ Error:\x1b[0m [31m.py\n  \x1b[2m× no such file\x1b[0m\n" s ↔
      s = "✖ Error: [31m.py\n  × no such file\n") := by
  have hreport : ScanReport.bracketed.IsClean := by
    unfold ScanReport.IsClean
    decide
  have hnotice : Notice.bracketed.IsClean := by
    constructor <;> decide
  refine ⟨hreport, hnotice, ?_, ?_⟩
  · exact (isStripped_iff_plain.1 ⟨1, .one⟩ .bracketed hreport _).mpr rfl
  · exact isStripped_iff_plain.2.1 .bracketed hnotice

end DocGate

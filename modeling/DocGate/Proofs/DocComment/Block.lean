/-
DocGate.Proofs.DocComment.Block — block comments above a declaration.

A declaration with one block comment above it (`BlockAbove`) should be documented
exactly if the comment opens with two stars. The opening is looked for as a text,
though, and the nearest line that has it counts, be it inside the comment.

* `precedes_of_blockAbove` — what the search makes of such a declaration, for every
  comment within reach. If the lines of the comment look like no comment themselves
  (`IsQuiet`), the search is right about it.
* `precedes_misreads_paths` — it is wrong about others, in both directions: a path
  inside a documentation comment may be taken for the opening of a plain one, and the
  other way round.

`BlockAbove` asks that nothing but blank lines stands between the comment and the
declaration, that the comment ends at most ten lines above it, and that it has at most
twenty-one lines.
-/
import DocGate.Proofs.DocComment.Search

namespace DocGate.DocComment

/-! ## Texts without blanks -/

theorem infix_of_infix_append {p : Char → Bool} {part before cs : List Char} (hpart : part ≠ [])
    (hclean : ∀ c ∈ part, p c = false) (hbefore : ∀ c ∈ before, p c)
    (h : part <:+: before ++ cs) : part <:+: cs := by
  induction before with
  | nil => exact h
  | cons b before ih =>
    rcases List.infix_cons_iff.mp h with hprefix | hinfix
    · -- the part would begin with what is blank
      obtain ⟨c, rest, rfl⟩ := List.exists_cons_of_ne_nil hpart
      have hb : c = b := (List.cons_prefix_cons.mp hprefix).1
      have hc := hclean c List.mem_cons_self
      rw [hb, hbefore b List.mem_cons_self] at hc
      cases hc
    · exact ih (fun c hc => hbefore c (List.mem_cons_of_mem _ hc)) hinfix

/-- A text without blanks that a line has is found in the line without its outer blanks. -/
theorem has_iff_infix_trim {part : String} (hpart : part.toList ≠ [])
    (hclean : part.toList.any Text.isBlank = false) (line : String) :
    Has part line ↔ part.toList <:+: (Text.trim line).toList := by
  obtain ⟨before, behind, heq, hbefore, hbehind⟩ :=
    Text.exists_eq_append_stripBoth Text.isBlank line.toList
  rw [List.any_eq_false] at hclean
  simp only [Bool.not_eq_true] at hclean
  rw [Has, Text.trim, String.toList_ofList]
  constructor
  · intro h
    rw [heq, List.append_assoc] at h
    have hfront := infix_of_infix_append hpart hclean hbefore h
    rw [← List.reverse_infix, List.reverse_append] at hfront
    rw [← List.reverse_infix]
    exact infix_of_infix_append (by simpa using hpart) (by simpa using hclean)
      (by simpa using hbehind) hfront
  · intro h
    rw [heq]
    exact h.trans ⟨before, behind, rfl⟩

/-! ## The layout -/

/-- What a block comment that opens on the line `first` has on the line `i`: the line without its
outer blanks, and on the line `first` without the opening. -/
def commentText (lines : Array String) (first i : Nat) : List Char :=
  let cs := (Text.trim (lines.getD i "")).toList
  if i = first then cs.drop 2 else cs

/-- The declaration behind the first `n` lines has a block comment above it, from the line `first`
to the line `last`, near enough and not too long to be looked at, with only blank lines in
between. The comment closes at the end of its last line and nowhere before. -/
structure BlockAbove (lines : Array String) (first last n : Nat) : Prop where
  exists_lines : n ≤ lines.size
  first_le_last : first ≤ last
  last_lt : last < n
  near : n - 10 ≤ last
  short : last - first ≤ 20
  blank : ∀ j < n, last < j → LineIs lines j (Text.trim · = "")
  opens : LineIs lines first (Begins "/*")
  inside : ∀ i < last, first ≤ i → ¬ "*/".toList <:+: commentText lines first i
  closes : "*/".toList <:+ commentText lines first last
  closes_once : ¬ "*/".toList <:+: (commentText lines first last).dropLast

/-- Nothing in the text of the comment looks like the opening of a comment, and its last line does
not look like a comment of three slashes. -/
def IsQuiet (lines : Array String) (first last : Nat) : Prop :=
  (∀ i ≤ last, first ≤ i → ¬ "/*".toList <:+: commentText lines first i) ∧
    (first < last → ¬ LineIs lines last (Begins "///"))

theorem commentText_eq {lines : Array String} {i : Nat} {line : String}
    (h : lines[i]? = some line) (first : Nat) :
    commentText lines first i
      = if i = first then (Text.trim line).toList.drop 2 else (Text.trim line).toList := by
  simp [commentText, Array.getD_eq_getD_getElem?, h]

theorem has_opening_iff (line : String) :
    Has "/*" line ↔ "/*".toList <:+: (Text.trim line).toList :=
  has_iff_infix_trim (by decide) (by decide) line

theorem has_stars_iff (line : String) :
    Has "/**" line ↔ "/**".toList <:+: (Text.trim line).toList :=
  has_iff_infix_trim (by decide) (by decide) line

theorem opening_infix_stars : "/*".toList <:+: "/**".toList := ⟨[], ['*'], by decide⟩

section

variable {lines : Array String} {first last n : Nat}

/-! ## What the search makes of a block comment -/

theorem BlockAbove.lineIs_ends (h : BlockAbove lines first last n) :
    LineIs lines last (Ends "*/") := by
  obtain ⟨line, hline⟩ : ∃ line, lines[last]? = some line :=
    ⟨_, Array.getElem?_eq_getElem (Nat.lt_of_lt_of_le h.last_lt h.exists_lines)⟩
  have hcloses := h.closes
  rw [commentText_eq hline] at hcloses
  rw [lineIs_iff hline]
  split at hcloses
  · exact hcloses.trans (List.drop_suffix 2 _)
  · exact hcloses

/-- Only the last line of the comment counts. -/
theorem BlockAbove.precedes_iff_documents (h : BlockAbove lines first last n) :
    precedes lines (n + 1) ↔ Documents lines last := by
  rw [precedes_iff, Nat.add_sub_cancel, Nat.min_eq_left h.exists_lines]
  constructor
  · rintro ⟨i, hle, hlt, hpassed, hdocuments⟩
    rcases Nat.lt_trichotomy i last with hi | rfl | hi
    · obtain ⟨line, hline, hends⟩ := h.lineIs_ends
      exact absurd ((lineIs_iff hline _).mp (hpassed last hi h.last_lt))
        (not_isPassed_of_ends hends)
    · exact hdocuments
    · obtain ⟨line, hline, hblank⟩ := h.blank i hlt hi
      rw [Documents, lineIs_iff hline, lineIs_iff hline] at hdocuments
      rcases hdocuments with hslashes | ⟨hends, -⟩
      · exact absurd hblank (trim_ne_empty_of_begins (by decide) hslashes)
      · exact absurd hblank (trim_ne_empty_of_ends (by decide) hends)
  · intro hdocuments
    refine ⟨last, h.near, h.last_lt, fun j hj hjn => ?_, hdocuments⟩
    obtain ⟨line, hline, hblank⟩ := h.blank j hjn hj
    exact ⟨line, hline, Or.inl hblank⟩

/-- The opening of the comment is never passed over. -/
theorem BlockAbove.opensAsDocumentation_iff (h : BlockAbove lines first last n) :
    OpensAsDocumentation lines (blockReach + 1) (last + 1)
      ↔ ∃ k, first ≤ k ∧ k ≤ last ∧ LineIs lines k (Has "/**") ∧
          ∀ m, k < m → m ≤ last → ¬ LineIs lines m (Has "/*") := by
  rw [DocComment.opensAsDocumentation_iff]
  constructor
  · rintro ⟨k, -, hle, hstars, hnone⟩
    refine ⟨k, Nat.le_of_not_lt fun hlt => ?_, hle, hstars, hnone⟩
    obtain ⟨line, hline, hopens⟩ := h.opens
    exact hnone first hlt h.first_le_last
      ⟨line, hline, (has_opening_iff line).mpr hopens.isInfix⟩
  · rintro ⟨k, hfirst, hle, hstars, hnone⟩
    have hshort := h.short
    exact ⟨k, by simp only [blockReach]; omega, hle, hstars, hnone⟩

theorem BlockAbove.precedes_iff_nearest (h : BlockAbove lines first last n) :
    precedes lines (n + 1)
      ↔ LineIs lines last (Begins "///") ∨
        ∃ k, first ≤ k ∧ k ≤ last ∧ LineIs lines k (Has "/**") ∧
          ∀ m, k < m → m ≤ last → ¬ LineIs lines m (Has "/*") := by
  rw [h.precedes_iff_documents, Documents, h.opensAsDocumentation_iff]
  exact or_congr_right (and_iff_right h.lineIs_ends)

/-! ## Comments that look like none inside -/

theorem IsQuiet.not_has_opening (h : IsQuiet lines first last) {m : Nat} (hfirst : first < m)
    (hlast : m ≤ last) : ¬ LineIs lines m (Has "/*") := by
  rintro ⟨line, hline, hhas⟩
  have htext := h.1 m hlast (Nat.le_of_lt hfirst)
  rw [commentText_eq hline, if_neg (Nat.ne_of_gt hfirst)] at htext
  exact htext ((has_opening_iff line).mp hhas)

/-- Two stars on the first line stand at its beginning. -/
theorem IsQuiet.begins_of_has_stars (h : IsQuiet lines first last) (hle : first ≤ last)
    {line : String} (hline : lines[first]? = some line) (hopens : Begins "/*" line)
    (hstars : Has "/**" line) : Begins "/**" line := by
  have htext := h.1 first hle (Nat.le_refl first)
  rw [commentText_eq hline, if_pos rfl] at htext
  rw [has_stars_iff] at hstars
  obtain ⟨rest, hrest⟩ := hopens
  have hcs : (Text.trim line).toList = '/' :: '*' :: rest := hrest.symm
  rw [hcs, List.infix_cons_iff, List.infix_cons_iff] at hstars
  rcases hstars with hbegins | hstar | hinside
  · rwa [Begins, hcs]
  · have hne : '/' = '*' := (List.cons_prefix_cons.mp hstar).1
    exact absurd hne (by decide)
  · rw [hcs] at htext
    exact absurd (opening_infix_stars.trans hinside) htext

theorem BlockAbove.not_begins_slashes (h : BlockAbove lines first last n)
    (hquiet : IsQuiet lines first last) : ¬ LineIs lines last (Begins "///") := by
  rcases Nat.eq_or_lt_of_le h.first_le_last with rfl | hlt
  · obtain ⟨line, hline, rest, hrest⟩ := h.opens
    rw [lineIs_iff hline]
    rintro ⟨rest', hrest'⟩
    rw [← hrest] at hrest'
    simp at hrest'
  · exact hquiet.2 hlt

theorem BlockAbove.precedes_iff_begins (h : BlockAbove lines first last n)
    (hquiet : IsQuiet lines first last) :
    precedes lines (n + 1) ↔ LineIs lines first (Begins "/**") := by
  rw [h.precedes_iff_nearest, or_iff_right (h.not_begins_slashes hquiet)]
  constructor
  · rintro ⟨k, hfirst, hlast, hstars, -⟩
    rcases Nat.eq_or_lt_of_le hfirst with rfl | hlt
    · obtain ⟨line, hline, hopens⟩ := h.opens
      rw [lineIs_iff hline] at hstars ⊢
      exact hquiet.begins_of_has_stars hlast hline hopens hstars
    · obtain ⟨line, hline, hhas⟩ := hstars
      exact absurd ⟨line, hline, opening_infix_stars.trans hhas⟩
        (hquiet.not_has_opening hlt hlast)
  · rintro ⟨line, hline, hbegins⟩
    exact ⟨first, Nat.le_refl first, h.first_le_last,
      ⟨line, hline, (has_stars_iff line).mpr hbegins.isInfix⟩,
      fun m hm hlast => hquiet.not_has_opening hm hlast⟩

/-- **Block comments above a declaration.** A declaration with one block comment above it is
documented exactly if the last line of the comment begins with three slashes, or of its lines that
have the opening of a comment the nearest one has it with two stars. If the comment is quiet, that
is to say that the comment itself opens with two stars. -/
theorem precedes_of_blockAbove (h : BlockAbove lines first last n) :
    (precedes lines (n + 1)
      ↔ LineIs lines last (Begins "///") ∨
        ∃ k, first ≤ k ∧ k ≤ last ∧ LineIs lines k (Has "/**") ∧
          ∀ m, k < m → m ≤ last → ¬ LineIs lines m (Has "/*")) ∧
    (IsQuiet lines first last →
      (precedes lines (n + 1) ↔ LineIs lines first (Begins "/**"))) :=
  ⟨h.precedes_iff_nearest, h.precedes_iff_begins⟩

end

/-- A comment of three lines, parted from the declaration by a blank line. -/
def starredBlock : Array String :=
  #["  /** Adds two numbers.", "   *", "   * Never fails. */", "", "  function add(a, b) {}"]

theorem precedes_of_starredBlock :
    BlockAbove starredBlock 0 2 4 ∧ IsQuiet starredBlock 0 2 ∧ precedes starredBlock 5 := by
  have hblock : BlockAbove starredBlock 0 2 4 := by
    constructor <;> decide +kernel
  have hquiet : IsQuiet starredBlock 0 2 := by
    unfold IsQuiet
    decide +kernel
  exact ⟨hblock, hquiet, ((precedes_of_blockAbove hblock).2 hquiet).mpr (by decide +kernel)⟩

/-- A comment with two stars that speaks of a path. -/
def pathInStarredBlock : Array String :=
  #["/**", " * Reads src/*.ts.", " */", "function read() {}"]

/-- A plain comment that speaks of a path. -/
def pathInPlainBlock : Array String :=
  #["/*", " * Reads src/**.", " */", "function read() {}"]

/-- A path inside a comment can hide the two stars that open it, and can stand for them. -/
theorem precedes_misreads_paths :
    (BlockAbove pathInStarredBlock 0 2 3 ∧ LineIs pathInStarredBlock 0 (Begins "/**") ∧
      precedes pathInStarredBlock 4 = false) ∧
    (BlockAbove pathInPlainBlock 0 2 3 ∧ ¬ LineIs pathInPlainBlock 0 (Begins "/**") ∧
      precedes pathInPlainBlock 4 = true) := by
  refine ⟨⟨?_, by decide +kernel, by decide +kernel⟩, ⟨?_, by decide +kernel, by decide +kernel⟩⟩
  · constructor <;> decide +kernel
  · constructor <;> decide +kernel

end DocGate.DocComment

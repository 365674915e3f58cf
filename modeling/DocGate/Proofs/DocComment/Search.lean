/-
DocGate.Proofs.DocComment.Search — how far documentation is looked for.

The search for documentation goes up from a declaration line by line, and from the end
of a block comment once more up to its opening. Both searches pass over some lines and
are decided by the first line that they do not pass over.

* `NearestBelow` — that first line, as a statement about numbers.
* `search?_eq_some`, `blockDocuments?_eq_some` — the two searches. They find every line
  that they ask for, provided that they start within the lines.
* `precedes_iff_within_reach` — which lines decide that a declaration is documented.
  None of them is more than thirty lines above it, all of them exist, and two files that
  agree on these lines agree on the answer.

The main result holds for all lines and every number of a line. A number beyond the last
line counts as the one behind it.
-/
import DocGate.DocComment

namespace DocGate.DocComment

/-! ## What a line says -/

/-- The line begins with `part`, behind its blanks. -/
def Begins (part line : String) : Prop := part.toList <+: (Text.trim line).toList

/-- The line ends with `part`, before its blanks. -/
def Ends (part line : String) : Prop := part.toList <:+ (Text.trim line).toList

/-- The line has `part` in it. -/
def Has (part line : String) : Prop := part.toList <:+: line.toList

instance (part line : String) : Decidable (Begins part line) :=
  inferInstanceAs (Decidable (_ <+: _))

instance (part line : String) : Decidable (Ends part line) :=
  inferInstanceAs (Decidable (_ <:+ _))

instance (part line : String) : Decidable (Has part line) :=
  inferInstanceAs (Decidable (_ <:+: _))

/-- The line is blank, or inside a block comment, or a plain line comment. -/
def IsPassed (line : String) : Prop :=
  Text.trim line = "" ∨
    ¬ Ends "*/" line ∧ (Begins "*" line ∨ Begins "//" line ∧ ¬ Begins "///" line)

theorem holds_iff_infix (part cs : List Char) : holds part cs ↔ part <:+: cs := by
  induction cs with
  | nil => simp [holds]
  | cons c cs ih =>
    rw [holds, Bool.or_eq_true, ih, List.isPrefixOf_iff_prefix, List.infix_cons_iff]

theorem holds_iff_has (part line : String) : holds part.toList line.toList ↔ Has part line :=
  holds_iff_infix _ _

theorem isPrefixOf_iff_begins (part line : String) :
    part.toList.isPrefixOf (Text.trim line).toList ↔ Begins part line :=
  List.isPrefixOf_iff_prefix

theorem isSuffixOf_iff_ends (part line : String) :
    part.toList.isSuffixOf (Text.trim line).toList ↔ Ends part line :=
  List.isSuffixOf_iff_suffix

theorem trim_ne_empty_of_begins {part line : String} (hpart : part.toList ≠ [])
    (h : Begins part line) : Text.trim line ≠ "" := by
  intro hempty
  rw [Begins, hempty] at h
  exact hpart (List.prefix_nil.mp h)

theorem trim_ne_empty_of_ends {part line : String} (hpart : part.toList ≠ [])
    (h : Ends part line) : Text.trim line ≠ "" := by
  intro hempty
  rw [Ends, hempty] at h
  exact hpart (List.suffix_nil.mp h)

theorem not_isPassed_of_begins {line : String} (h : Begins "///" line) : ¬ IsPassed line := by
  rintro (hempty | ⟨-, hstar | ⟨-, hnot⟩⟩)
  · exact trim_ne_empty_of_begins (by decide) h hempty
  · -- a star and a slash cannot both come first
    obtain ⟨rest, hrest⟩ := h
    obtain ⟨rest', hrest'⟩ := hstar
    rw [← hrest] at hrest'
    simp at hrest'
  · exact hnot h

theorem not_isPassed_of_ends {line : String} (h : Ends "*/" line) : ¬ IsPassed line := by
  rintro (hempty | ⟨hnot, -⟩)
  · exact trim_ne_empty_of_ends (by decide) h hempty
  · exact hnot h

/-- What the class of a line means. -/
theorem classify_cases (line : String) :
    (classify line = .passed ∧ IsPassed line) ∨
    (classify line = .documentation ∧ Begins "///" line) ∨
    (classify line = .blockEnd ∧ Ends "*/" line ∧ ¬ Begins "///" line) ∨
    (classify line = .code ∧ ¬ IsPassed line ∧ ¬ Begins "///" line ∧ ¬ Ends "*/" line) := by
  simp only [classify, List.isEmpty_iff, String.toList_eq_nil_iff, Bool.or_eq_true,
    isPrefixOf_iff_begins, isSuffixOf_iff_ends]
  by_cases hblank : Text.trim line = ""
  · simp [hblank, IsPassed]
  by_cases hslashes : Begins "///" line
  · simp [hblank, hslashes]
  by_cases hends : Ends "*/" line
  · simp [hblank, hslashes, hends]
  by_cases hplain : Begins "//" line ∨ Begins "*" line
  · simp [hblank, hslashes, hends, hplain, IsPassed, hplain.symm]
  · simp only [not_or] at hplain
    simp [hblank, hslashes, hends, hplain, IsPassed]

/-! ## The nearest number that decides -/

/-- Of the `reach` numbers below `n`, the nearest one that is not passed over is good. -/
def NearestBelow (passed good : Nat → Prop) (reach n : Nat) : Prop :=
  ∃ i, n - reach ≤ i ∧ i < n ∧ (∀ j, i < j → j < n → passed j) ∧ good i

theorem not_nearestBelow_of_reach_zero (passed good : Nat → Prop) (n : Nat) :
    ¬ NearestBelow passed good 0 n := by
  rintro ⟨i, hle, hlt, -⟩
  omega

theorem not_nearestBelow_zero (passed good : Nat → Prop) (reach : Nat) :
    ¬ NearestBelow passed good reach 0 := by
  rintro ⟨i, -, hlt, -⟩
  omega

/-- The next number is good, or it is passed over and a number below it decides. -/
theorem nearestBelow_succ (passed good : Nat → Prop) (reach n : Nat) :
    NearestBelow passed good (reach + 1) (n + 1)
      ↔ good n ∨ passed n ∧ NearestBelow passed good reach n := by
  constructor
  · rintro ⟨i, hle, hlt, hpassed, hgood⟩
    rcases Nat.lt_succ_iff_lt_or_eq.mp hlt with hlt | rfl
    · exact Or.inr ⟨hpassed n hlt (Nat.lt_succ_self n), i, by omega, hlt,
        fun j hij hjn => hpassed j hij (by omega), hgood⟩
    · exact Or.inl hgood
  · rintro (hgood | ⟨hn, i, hle, hlt, hpassed, hgood⟩)
    · exact ⟨n, by omega, by omega, fun j hnj hjn => by omega, hgood⟩
    · refine ⟨i, by omega, by omega, fun j hij hjn => ?_, hgood⟩
      rcases Nat.lt_succ_iff_lt_or_eq.mp hjn with hjn | rfl
      · exact hpassed j hij hjn
      · exact hn

/-- Only the numbers within reach matter. -/
theorem nearestBelow_congr {passed good passed' good' : Nat → Prop} {reach n : Nat}
    (h : ∀ i, n - reach ≤ i → i < n → ((passed i ↔ passed' i) ∧ (good i ↔ good' i))) :
    NearestBelow passed good reach n ↔ NearestBelow passed' good' reach n := by
  refine exists_congr fun i => and_congr_right fun hle => and_congr_right fun hlt => ?_
  refine and_congr (forall_congr' fun j => forall_congr' fun hij => forall_congr' fun hjn => ?_)
    (h i hle hlt).2
  exact (h j (by omega) hjn).1

/-! ## The two searches -/

/-- There is a line `i`, and it is such a line. -/
def LineIs (lines : Array String) (i : Nat) (p : String → Prop) : Prop :=
  ∃ line ∈ lines[i]?, p line

instance (lines : Array String) (i : Nat) (p : String → Prop) [DecidablePred p] :
    Decidable (LineIs lines i p) :=
  inferInstanceAs (Decidable (∃ line ∈ lines[i]?, p line))

theorem lineIs_iff {lines : Array String} {i : Nat} {line : String} (h : lines[i]? = some line)
    (p : String → Prop) : LineIs lines i p ↔ p line := by
  simp [LineIs, h]

/-- Of the `reach` lines before `n`, the nearest one that opens a block comment opens it as
documentation. -/
def OpensAsDocumentation (lines : Array String) : (reach n : Nat) → Prop :=
  NearestBelow (fun m => ¬ LineIs lines m (Has "/*")) (fun k => LineIs lines k (Has "/**"))

theorem opensAsDocumentation_iff (lines : Array String) (reach i : Nat) :
    OpensAsDocumentation lines (reach + 1) (i + 1)
      ↔ ∃ k, i - reach ≤ k ∧ k ≤ i ∧ LineIs lines k (Has "/**") ∧
          ∀ m, k < m → m ≤ i → ¬ LineIs lines m (Has "/*") := by
  refine exists_congr fun k => ?_
  simp only [Nat.add_sub_add_right, Nat.lt_succ_iff]
  exact and_congr_right fun _ => and_congr_right fun _ => and_comm

/-- The line documents what comes below it, by itself or as the end of a block comment. -/
def Documents (lines : Array String) (i : Nat) : Prop :=
  LineIs lines i (Begins "///") ∨
    LineIs lines i (Ends "*/") ∧ OpensAsDocumentation lines (blockReach + 1) (i + 1)

theorem blockDocuments?_eq_some (lines : Array String) (fuel i : Nat) (h : i ≤ lines.size) :
    ∃ b, blockDocuments? lines fuel i = some b ∧ (b ↔ OpensAsDocumentation lines fuel i) := by
  unfold OpensAsDocumentation
  induction fuel generalizing i with
  | zero => exact ⟨false, rfl, by simp [not_nearestBelow_of_reach_zero]⟩
  | succ fuel ih =>
    cases i with
    | zero => exact ⟨false, rfl, by simp [not_nearestBelow_zero]⟩
    | succ i =>
      obtain ⟨line, hline⟩ : ∃ line, lines[i]? = some line := ⟨_, Array.getElem?_eq_getElem h⟩
      simp only [blockDocuments?, hline, holds_iff_has, nearestBelow_succ, lineIs_iff hline]
      by_cases hstars : Has "/**" line
      · exact ⟨true, by simp [hstars]⟩
      by_cases hopens : Has "/*" line
      · exact ⟨false, by simp [hstars, hopens]⟩
      · obtain ⟨b, hb, hiff⟩ := ih i (by omega)
        exact ⟨b, by simp [hstars, hopens, hb, hiff]⟩

theorem search?_eq_some (lines : Array String) (fuel i : Nat) (h : i ≤ lines.size) :
    ∃ b, search? lines fuel i = some b ∧
      (b ↔ NearestBelow (fun j => LineIs lines j IsPassed) (Documents lines) fuel i) := by
  induction fuel generalizing i with
  | zero => exact ⟨false, rfl, by simp [not_nearestBelow_of_reach_zero]⟩
  | succ fuel ih =>
    cases i with
    | zero => exact ⟨false, rfl, by simp [not_nearestBelow_zero]⟩
    | succ i =>
      obtain ⟨line, hline⟩ : ∃ line, lines[i]? = some line := ⟨_, Array.getElem?_eq_getElem h⟩
      simp only [search?, hline, nearestBelow_succ, Documents, lineIs_iff hline]
      rcases classify_cases line with ⟨hclass, hpassed⟩ | ⟨hclass, hslashes⟩ |
        ⟨hclass, hends, hslashes⟩ | ⟨hclass, hcode⟩
      · have hslashes : ¬ Begins "///" line := fun hb => not_isPassed_of_begins hb hpassed
        have hends : ¬ Ends "*/" line := fun he => not_isPassed_of_ends he hpassed
        obtain ⟨b, hb, hiff⟩ := ih i (by omega)
        exact ⟨b, by simp [hclass, hb, hiff, hslashes, hends, hpassed]⟩
      · exact ⟨true, by simp [hclass, hslashes]⟩
      · obtain ⟨b, hb, hiff⟩ := blockDocuments?_eq_some lines (blockReach + 1) (i + 1) h
        exact ⟨b, by simp [hclass, hb, hiff, hslashes, hends, not_isPassed_of_ends hends]⟩
      · exact ⟨false, by simp [hclass, hcode]⟩

/-! ## Declarations -/

/-- Every line that is looked at exists. -/
theorem precedes?_eq_some (lines : Array String) (line : Nat) :
    precedes? lines line = some (precedes lines line) := by
  obtain ⟨b, hb, -⟩ := search?_eq_some lines reach _ (Nat.min_le_right (line - 1) lines.size)
  simp [precedes, precedes?, hb]

theorem precedes_iff (lines : Array String) (line : Nat) :
    precedes lines line
      ↔ NearestBelow (fun j => LineIs lines j IsPassed) (Documents lines) reach
          (min (line - 1) lines.size) := by
  obtain ⟨b, hb, hiff⟩ := search?_eq_some lines reach _ (Nat.min_le_right (line - 1) lines.size)
  simp [precedes, precedes?, hb, hiff]

theorem lineIs_congr {lines lines' : Array String} {i : Nat} (h : lines'[i]? = lines[i]?)
    (p : String → Prop) : LineIs lines' i p ↔ LineIs lines i p := by
  rw [LineIs, LineIs, h]

/-- What a line documents is told from that line and the lines in which its block may open. -/
theorem documents_congr {lines lines' : Array String} {i : Nat}
    (h : ∀ k, i - blockReach ≤ k → k ≤ i → lines'[k]? = lines[k]?) :
    Documents lines' i ↔ Documents lines i := by
  have hhere := h i (Nat.sub_le _ _) (Nat.le_refl i)
  refine or_congr (lineIs_congr hhere _) (and_congr (lineIs_congr hhere _) ?_)
  refine nearestBelow_congr fun k hle hlt => ?_
  have hline := h k (by omega) (by omega)
  exact ⟨not_congr (lineIs_congr hline _), lineIs_congr hline _⟩

/-- Whether a declaration is documented is told from the lines above it. -/
theorem precedes_congr {lines lines' : Array String} {line line' n : Nat}
    (hn : min (line - 1) lines.size = n) (hn' : min (line' - 1) lines'.size = n)
    (h : ∀ i < n, lines'[i]? = lines[i]?) : precedes lines' line' = precedes lines line := by
  rw [Bool.eq_iff_iff, precedes_iff, precedes_iff, hn, hn']
  exact nearestBelow_congr fun i _ hi => ⟨lineIs_congr (h i hi) _,
    documents_congr fun k _ hk => h k (Nat.lt_of_le_of_lt hk hi)⟩

/-- **The reach of documentation.** Let `n` be the number of lines above a declaration. Each line
that is looked at for its documentation exists. It is documented exactly if there is a line among
the ten above it, with nothing but passed lines in between, that begins with three slashes or ends
a block comment; and of the lines in which that block may open, that is the line itself and the
twenty above it, the nearest one that opens a comment opens it with two stars. So only the thirty
lines above the declaration matter. -/
theorem precedes_iff_within_reach (lines : Array String) (line : Nat) :
    let n := min (line - 1) lines.size
    precedes? lines line = some (precedes lines line) ∧
    (precedes lines line ↔
      ∃ i, n - 10 ≤ i ∧ i < n ∧ (∀ j, i < j → j < n → LineIs lines j IsPassed) ∧
        (LineIs lines i (Begins "///") ∨
          LineIs lines i (Ends "*/") ∧
            ∃ k, i - 20 ≤ k ∧ k ≤ i ∧ LineIs lines k (Has "/**") ∧
              ∀ m, k < m → m ≤ i → ¬ LineIs lines m (Has "/*"))) ∧
    ∀ (lines' : Array String) (line' : Nat), min (line' - 1) lines'.size = n →
      (∀ i, n - 30 ≤ i → i < n → lines'[i]? = lines[i]?) →
        precedes lines' line' = precedes lines line := by
  intro n
  refine ⟨precedes?_eq_some lines line, ?_, ?_⟩
  · rw [precedes_iff]
    simp only [NearestBelow, Documents, opensAsDocumentation_iff, reach, blockReach, n]
  · intro lines' line' hn hlines
    rw [Bool.eq_iff_iff, precedes_iff, precedes_iff, hn]
    refine nearestBelow_congr fun i hle hlt => ⟨lineIs_congr (hlines i ?_ hlt) _, ?_⟩
    · simp only [reach] at hle
      omega
    · refine documents_congr fun k hk hki => hlines k ?_ (by omega)
      simp only [reach, blockReach] at hle hk
      omega

/-- A function below three slashes and a blank line is documented, and it stays so whatever comes
behind it. -/
theorem precedes_of_slashes_and_blank :
    precedes? #["/// Adds.", "", "function add() {}"] 3 = some true ∧
    precedes #["/// Adds.", "", "function sum() {}", "f();"] 3
      = precedes #["/// Adds.", "", "function add() {}"] 3 := by
  obtain ⟨-, -, hlocal⟩ := precedes_iff_within_reach #["/// Adds.", "", "function add() {}"] 3
  refine ⟨by decide, hlocal _ 3 (by decide) fun i _ hi => ?_⟩
  match i, hi with
  | 0, _ => rfl
  | 1, _ => rfl

end DocGate.DocComment

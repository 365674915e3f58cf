/-
DocGate.Proofs.Text.Rows — rows and lines.

A reader of source text counts the line feeds before a place, and calls that number the
row of the place. The lines of a text are cut by another rule: a carriage return before
a line feed goes with it, and there is no empty line at the end.

* `IsRow` — a stretch of the text is the row with a number, line end aside.
* `isRow_of_getElem?_lines` — each line is the row with its number.
* `exists_line_of_getElem?` — every place that holds a character lies in a row that
  there is a line for. Behind the last line feed there is a row without a line, but no
  character.
* `IsRow.take_lines` — the lines above a row are the lines of the text in front of it.
-/
import Mathlib.Data.List.Basic
import DocGate.Text.Lines

namespace DocGate.Text

/-! ## Lines -/

/-- What holds of a list without the separator, and of a list behind a separator as soon as it
holds of what is behind, holds of every list. -/
theorem separatorInduction {α : Type} [DecidableEq α] (a : α) {motive : List α → Prop}
    (last : ∀ row, a ∉ row → motive row)
    (more : ∀ row behind, a ∉ row → motive behind → motive (row ++ a :: behind))
    (xs : List α) : motive xs := by
  induction hn : xs.length using Nat.strongRecOn generalizing xs with
  | ind n ih =>
    by_cases hmem : a ∈ xs
    · obtain ⟨row, behind, rfl, hrow⟩ := List.eq_append_cons_of_mem hmem
      exact more row behind hrow (ih behind.length (by simp [← hn]; omega) behind rfl)
    · exact last xs hmem

theorem length_splitOn {α : Type} [DecidableEq α] (a : α) (xs : List α) :
    (xs.splitOn a).length = xs.count a + 1 := by
  induction xs using separatorInduction a with
  | last row hrow =>
    rw [List.splitOn_eq_singleton hrow, List.count_eq_zero.mpr hrow]
    rfl
  | more row behind hrow ih =>
    rw [List.splitOn_append_cons_self_of_not_mem hrow, List.length_cons, ih, List.count_append,
      List.count_eq_zero.mpr hrow, List.count_cons_self]
    omega

/-- A row without the carriage return at its end, if it has one. -/
def withoutReturn (row : List Char) : List Char := (dropReturn row.reverse).reverse

theorem withoutReturn_append_return (row : List Char) : withoutReturn (row ++ ['\r']) = row := by
  rw [withoutReturn, List.reverse_append]
  exact List.reverse_reverse row

theorem withoutReturn_of_getLast? {row : List Char} (h : row.getLast? ≠ some '\r') :
    withoutReturn row = row := by
  rw [← List.head?_reverse] at h
  rw [withoutReturn, dropReturn.eq_2, List.reverse_reverse]
  intro cs hcs
  rw [hcs] at h
  exact h rfl

theorem linesOnto_lineFeed (found : List String) (line cs : List Char) :
    linesOnto found line ('\n' :: cs)
      = linesOnto (String.ofList (withoutReturn line.reverse) :: found) [] cs := by
  rw [linesOnto, withoutReturn, List.reverse_reverse]

theorem linesOnto_cons {c : Char} (hc : c ≠ '\n') (found : List String) (line cs : List Char) :
    linesOnto found line (c :: cs) = linesOnto found (c :: line) cs := by
  rw [linesOnto]
  exact hc

theorem linesOnto_append {row : List Char} (hrow : '\n' ∉ row) (found : List String)
    (line rest : List Char) :
    linesOnto found line (row ++ rest) = linesOnto found (row.reverse ++ line) rest := by
  induction row generalizing line with
  | nil => rfl
  | cons c row ih =>
    have hc : c ≠ '\n' := fun h => hrow (h ▸ List.mem_cons_self)
    rw [List.cons_append, linesOnto_cons hc, ih fun h => hrow (List.mem_cons_of_mem _ h),
      List.reverse_cons, List.append_assoc]
    rfl

theorem linesOnto_eq_append (found : List String) (line cs : List Char) :
    linesOnto found line cs = found.reverse ++ linesOnto [] line cs := by
  induction cs generalizing found line with
  | nil => cases h : line.isEmpty <;> simp [linesOnto, h]
  | cons c cs ih =>
    by_cases hc : c = '\n'
    · rw [hc, linesOnto_lineFeed, linesOnto_lineFeed, ih, ih [_]]
      simp
    · rw [linesOnto_cons hc, linesOnto_cons hc, ih]

/-- What is behind the last line feed is a line if it is not empty. -/
theorem lines_of_not_mem {row : List Char} (hrow : '\n' ∉ row) :
    lines (String.ofList row) = if row = [] then [] else [String.ofList row] := by
  have hread := linesOnto_append hrow [] [] []
  rw [List.append_nil, List.append_nil] at hread
  rw [lines, String.toList_ofList, hread, linesOnto, List.isEmpty_reverse, List.reverse_reverse]
  cases row <;> rfl

/-- A row that ends with a line feed is a line. -/
theorem lines_append_lineFeed {row : List Char} (hrow : '\n' ∉ row) (behind : List Char) :
    lines (String.ofList (row ++ '\n' :: behind))
      = String.ofList (withoutReturn row) :: lines (String.ofList behind) := by
  rw [lines, String.toList_ofList, linesOnto_append hrow, linesOnto_lineFeed, linesOnto_eq_append,
    lines, String.toList_ofList]
  simp

/-! ## Rows -/

/-- A text has `row` as the row with a number, behind `before`. Its line end is a line feed, or a
carriage return and a line feed, and is missing at the end of the text. -/
structure IsRow (cs : List Char) (number : Nat) (before row ending behind : List Char) : Prop where
  text_eq : cs = before ++ (row ++ (ending ++ behind))
  number_eq : before.count '\n' = number
  starts : before = [] ∨ before.getLast? = some '\n'
  lineFeed_not_mem : '\n' ∉ row
  ends : ending = ['\r', '\n'] ∨ (ending = ['\n'] ∧ row.getLast? ≠ some '\r') ∨
    (ending = [] ∧ behind = [])

/-- A line end consists of the two characters that end lines. -/
theorem IsRow.not_mem_ending {cs before row ending behind : List Char} {number : Nat} {c : Char}
    (h : IsRow cs number before row ending behind) (hlf : c ≠ '\n') (hcr : c ≠ '\r') :
    c ∉ ending := by
  rcases h.ends with rfl | ⟨rfl, -⟩ | ⟨rfl, -⟩ <;> simp [hlf, hcr]

/-- What stands before a text as a row of its own moves its rows by one. -/
theorem IsRow.append {cs before row ending behind front : List Char} {number : Nat}
    (h : IsRow cs number before row ending behind) (hfront : '\n' ∉ front) :
    IsRow (front ++ '\n' :: cs) (number + 1) (front ++ '\n' :: before) row ending behind where
  text_eq := by rw [h.text_eq]; simp
  number_eq := by
    rw [List.count_append, List.count_cons_self, List.count_eq_zero.mpr hfront, h.number_eq]
    omega
  starts := by
    right
    rcases h.starts with rfl | hlast
    · simp
    · simp [List.getLast?_append, List.getLast?_cons, hlast]
  lineFeed_not_mem := h.lineFeed_not_mem
  ends := h.ends

/-- What stands before the first line feed is a row, up to a carriage return at its end. -/
theorem isRow_first {row : List Char} (hrow : '\n' ∉ row) (behind : List Char) :
    ∃ ending, row ++ ['\n'] = withoutReturn row ++ ending ∧
      IsRow (row ++ '\n' :: behind) 0 [] (withoutReturn row) ending behind := by
  by_cases hlast : row.getLast? = some '\r'
  · obtain ⟨front, rfl⟩ := List.getLast?_eq_some_iff.mp hlast
    have hfront : '\n' ∉ front := fun h => hrow (List.mem_append_left _ h)
    rw [withoutReturn_append_return]
    exact ⟨['\r', '\n'], by simp, by simp, rfl, .inl rfl, hfront, .inl rfl⟩
  · rw [withoutReturn_of_getLast? hlast]
    exact ⟨['\n'], rfl, rfl, rfl, .inl rfl, hrow, .inr (.inl ⟨rfl, hlast⟩)⟩

/-- What stands behind the last line feed is a row without a line end. -/
theorem isRow_last {row : List Char} (hrow : '\n' ∉ row) : IsRow row 0 [] row [] [] :=
  ⟨by simp, rfl, .inl rfl, hrow, .inr (.inr ⟨rfl, rfl⟩)⟩

/-- Each line is the text of the row with its number. -/
theorem isRow_of_getElem?_lines {cs : List Char} {number : Nat} {line : String}
    (h : (lines (String.ofList cs))[number]? = some line) :
    ∃ before ending behind, IsRow cs number before line.toList ending behind := by
  induction cs using separatorInduction '\n' generalizing number with
  | last row hrow =>
    rw [lines_of_not_mem hrow] at h
    split at h
    · cases h
    · obtain ⟨rfl, rfl⟩ : number = 0 ∧ String.ofList row = line := by
        cases number with
        | zero => exact ⟨rfl, Option.some.inj h⟩
        | succ number => cases h
      rw [String.toList_ofList]
      exact ⟨_, _, _, isRow_last hrow⟩
  | more row behind hrow ih =>
    rw [lines_append_lineFeed hrow] at h
    cases number with
    | zero =>
      cases h
      obtain ⟨ending, -, hfirst⟩ := isRow_first hrow behind
      rw [String.toList_ofList]
      exact ⟨_, _, _, hfirst⟩
    | succ number =>
      obtain ⟨before, ending, rest, hline⟩ := ih h
      exact ⟨_, _, _, hline.append hrow⟩

/-- The row of a place is the number of line feeds before it: there is a line with this number,
the line is the text of that row, and it holds the character of the place, unless that belongs
to the line end. -/
theorem exists_line_of_getElem? {cs : List Char} {i : Nat} {c : Char} (h : cs[i]? = some c) :
    ∃ line before ending behind,
      (lines (String.ofList cs))[(cs.take i).count '\n']? = some line ∧
        IsRow cs ((cs.take i).count '\n') before line.toList ending behind ∧
        before.length ≤ i ∧ (c ∈ ending ∨ line.toList[i - before.length]? = some c) := by
  induction cs using separatorInduction '\n' generalizing i with
  | last row hrow =>
    have hne : row ≠ [] := fun hnil => by rw [hnil] at h; cases h
    have hcount : (row.take i).count '\n' = 0 :=
      List.count_eq_zero.mpr fun hmem => hrow (List.mem_of_mem_take hmem)
    rw [lines_of_not_mem hrow, if_neg hne, hcount]
    refine ⟨String.ofList row, [], [], [], rfl, ?_, Nat.zero_le i, .inr ?_⟩
    · rw [String.toList_ofList]
      exact isRow_last hrow
    · rw [String.toList_ofList]
      exact h
  | more row behind hrow ih =>
    rw [lines_append_lineFeed hrow]
    by_cases hi : i ≤ row.length
    · have hcount : ((row ++ '\n' :: behind).take i).count '\n' = 0 := by
        rw [List.take_append_of_le_length hi]
        exact List.count_eq_zero.mpr fun hmem => hrow (List.mem_of_mem_take hmem)
      obtain ⟨ending, hsplit, hfirst⟩ := isRow_first hrow behind
      rw [hcount]
      refine ⟨_, [], ending, behind, rfl, by rwa [String.toList_ofList], Nat.zero_le i, ?_⟩
      rw [String.toList_ofList, List.length_nil, Nat.sub_zero]
      have hchar : (withoutReturn row ++ ending)[i]? = some c := by
        have hin : i < (row ++ ['\n']).length := by
          rw [List.length_append, List.length_singleton]
          omega
        rw [← hsplit, ← h, List.append_cons row '\n' behind, List.getElem?_append_left hin]
      rcases Nat.lt_or_ge i (withoutReturn row).length with hin | hout
      · rw [List.getElem?_append_left hin] at hchar
        exact .inr hchar
      · rw [List.getElem?_append_right hout] at hchar
        exact .inl (List.mem_of_getElem? hchar)
    · obtain ⟨k, rfl⟩ := Nat.exists_eq_add_of_lt (Nat.lt_of_not_le hi)
      have htake : (row ++ '\n' :: behind).take (row.length + k + 1)
          = row ++ '\n' :: behind.take k := by
        rw [Nat.add_assoc, List.take_length_add_append, List.take_succ_cons]
      have hcount : ((row ++ '\n' :: behind).take (row.length + k + 1)).count '\n'
          = (behind.take k).count '\n' + 1 := by
        rw [htake, List.count_append, List.count_eq_zero.mpr hrow, List.count_cons_self,
          Nat.zero_add]
      rw [Nat.add_assoc, List.getElem?_append_right (by omega), Nat.add_sub_cancel_left,
        List.getElem?_cons_succ] at h
      obtain ⟨line, before, ending, rest, hline, hisRow, hle, hchar⟩ := ih h
      rw [hcount]
      refine ⟨line, row ++ '\n' :: before, ending, rest, hline, hisRow.append hrow, ?_, ?_⟩
      · rw [List.length_append, List.length_cons]
        omega
      · rw [List.length_append, List.length_cons, Nat.add_assoc,
          Nat.add_sub_add_left, Nat.add_sub_add_right]
        exact hchar

/-- The lines of what stands before a row are as many as the number of the row, and the lines of
the text go on behind them. -/
theorem lines_append_of_starts {before : List Char}
    (hstarts : before = [] ∨ before.getLast? = some '\n') (rest : List Char) :
    (lines (String.ofList before)).length = before.count '\n' ∧
      lines (String.ofList (before ++ rest))
        = lines (String.ofList before) ++ lines (String.ofList rest) := by
  induction before using separatorInduction '\n' with
  | last row hrow =>
    rcases hstarts with rfl | hlast
    · exact ⟨rfl, rfl⟩
    · exact absurd (List.mem_of_getLast? hlast) hrow
  | more row behind hrow ih =>
    have hbehind : behind = [] ∨ behind.getLast? = some '\n' := by
      rcases List.eq_nil_or_concat behind with rfl | ⟨front, c, rfl⟩
      · exact .inl rfl
      · rcases hstarts with hnil | hlast
        · simp at hnil
        · rw [List.concat_eq_append, ← List.cons_append, ← List.append_assoc,
            List.getLast?_concat] at hlast
          rw [List.concat_eq_append, List.getLast?_concat, hlast]
          exact .inr rfl
    obtain ⟨hlength, happend⟩ := ih hbehind
    rw [List.append_assoc, List.cons_append, lines_append_lineFeed hrow,
      lines_append_lineFeed hrow, happend, List.length_cons, hlength, List.count_append,
      List.count_eq_zero.mpr hrow, List.count_cons_self]
    exact ⟨by omega, rfl⟩

/-- The lines above a row are the lines of what stands before it. -/
theorem IsRow.take_lines {cs before row ending behind : List Char} {number : Nat}
    (h : IsRow cs number before row ending behind) :
    (lines (String.ofList cs)).take number = lines (String.ofList before) := by
  obtain ⟨hlength, happend⟩ := lines_append_of_starts h.starts (row ++ (ending ++ behind))
  rw [h.text_eq, happend, ← h.number_eq, ← hlength, List.take_left]

end DocGate.Text

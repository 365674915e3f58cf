/-
DocGate.Proofs.Python.Scanning — the lexemes of Python are found forward.

* `le_of_numberEnd`, `le_of_pieceAt` and others — every function that looks for the end
  of something answers a place at or behind the one it is asked at.
* `Python.scan_follows` — from there each lexeme follows the cursor at which it was
  looked for, together with the comments before it. The cursor must know its row.
* `Python.inOrder_of_parse?` — so the nodes of a Python file lie one behind the other,
  for every text that is one.
-/
import Mathlib.Data.Option.Basic
import DocGate.Proofs.Grammar.MachineOrder
import DocGate.Python.Grammar

namespace DocGate.Python

open DocGate.Grammar

variable {s : Source} {i j a : Nat} {p q : Place}

/-! ## Gaps -/

theorem le_skipBlanksWithin (s : Source) (fuel i : Nat) : i ≤ skipBlanksWithin s fuel i := by
  fun_induction skipBlanksWithin s fuel i <;> grind

theorem le_skipBlanks (s : Source) (i : Nat) : i ≤ skipBlanks s i := le_skipBlanksWithin s _ i

theorem readFrom_skipComment {comments : List (ParseTree Kind)} {c : ParseTree Kind}
    (h : ReadFrom s a comments p) (hskip : skipComment s p = some (c, q)) :
    ReadFrom s a (c :: comments) q := by
  have hblanks := h.moveTo (le_skipBlanks s p.pos)
  simp only [skipComment, Option.ite_none_right_eq_some, Option.some.injEq, Prod.mk.injEq] at hskip
  obtain ⟨-, rfl, rfl⟩ := hskip
  exact hblanks.leaf (s.le_skipWhile _ _) _ _ _

theorem readFrom_findMark {site : Site} {wanted : Mark → Bool} {fuel : Nat} {m : Mark}
    {comments comments' : List (ParseTree Kind)} (h : ReadFrom s a comments p)
    (hfind : findMark s site wanted fuel comments p = some (comments', m, q)) :
    ReadFrom s a comments' q := by
  fun_induction findMark s site wanted fuel comments p with
  | case1 => cases hfind
  | case2 fuel comments p m' hmark hwanted =>
    cases hfind
    exact h
  | case3 => cases hfind
  | case4 fuel comments p hmark c p' hskip ih => exact ih (readFrom_skipComment h hskip) hfind
  | case5 => cases hfind

theorem readFrom_skipGap {site : Site} {fuel : Nat} {comments comments' : List (ParseTree Kind)}
    (h : ReadFrom s a comments p)
    (hskip : skipGap s site fuel comments p = some (comments', q)) : ReadFrom s a comments' q := by
  fun_induction skipGap s site fuel comments p with
  | case1 => cases hskip
  | case2 => cases hskip
  | case3 fuel comments p hmark c p' hcomment ih =>
    exact ih (readFrom_skipComment h hcomment) hskip
  | case4 fuel comments p hmark hcomment =>
    cases hskip
    exact h.moveTo (le_skipBlanks s p.pos)

theorem readFrom_gapAt {site : Site} {comments : List (ParseTree Kind)} (hp : p.KnowsRow s)
    (h : gapAt s site p = some (comments, q)) : ReadFrom s p.row comments q :=
  readFrom_skipGap (.nil hp) h

/-! ## Words and numbers -/

theorem le_wordEnd (s : Source) (i : Nat) : i ≤ wordEnd s i := by
  have hword := s.le_skipWhile Text.isWordContinue (i + 1)
  rw [wordEnd]
  split <;> omega

theorem le_digitsWithin (s : Source) (p : Char → Bool) (fuel i : Nat) :
    i ≤ digitsWithin s p fuel i := by
  fun_induction digitsWithin s p fuel i with
  | case1 i => exact Nat.le_refl i
  | case2 fuel i j hj => exact Nat.le_refl i
  | case3 fuel i j hj hunderscore ih =>
    have hdigits : i ≤ j := s.le_skipWhile p i
    omega
  | case4 fuel i j => exact s.le_skipWhile p i

theorem le_digitsEnd (s : Source) (i : Nat) : i ≤ digitsEnd s i := le_digitsWithin s isDigit _ i

theorem le_exponentEnd (s : Source) (i : Nat) : i ≤ exponentEnd s i := by
  have hdigits := le_digitsEnd s
  simp only [exponentEnd]
  grind

theorem le_basedWithin (s : Source) (p : Char → Bool) (fuel i : Nat) :
    i ≤ basedWithin s p fuel i := by
  fun_induction basedWithin s p fuel i with
  | case1 i => exact Nat.le_refl i
  | case2 fuel i j k hk => exact Nat.le_refl i
  | case3 fuel i j k hk ih =>
    have hj : i ≤ j := by grind
    have hdigits : j ≤ k := s.le_skipWhile p j
    omega

theorem le_of_basedEnd (h : basedEnd s i = some j) : i ≤ j := by
  have hdigits := le_basedWithin s
  simp only [basedEnd] at h
  grind

theorem le_of_numberEnd (h : numberEnd s i = some j) : i ≤ j := by
  have hdigits := le_digitsEnd s
  have hexponent := le_exponentEnd s
  simp only [numberEnd] at h
  split at h
  · rename_i k hbased
    cases h
    exact le_of_basedEnd hbased
  · grind

/-! ## String literals -/

theorem le_of_openString {d : Delimiter} (h : openString s i = some (d, j)) : i ≤ j := by
  have hmarks := s.le_skipWhile (fun c => "fFtTrRbBuU".toList.contains c) i
  simp only [openString] at h
  generalize s.skipWhile (fun c => "fFtTrRbBuU".toList.contains c) i = k at h hmarks
  split at h
  · cases h
  · split at h
    · obtain ⟨-, rfl⟩ := Prod.mk.inj (Option.some.inj h)
      split <;> omega
    · cases h

theorem lt_escapeEnd (s : Source) (i : Nat) : i < escapeEnd s i := by
  have hskip := s.le_skipWhile
  unfold escapeEnd
  grind

theorem le_of_plainPiece {d : Delimiter} {fuel : Nat} {content closes : Bool}
    (h : plainPiece s d fuel content i = some (j, closes)) : i ≤ j := by
  fun_induction plainPiece s d fuel content i <;> grind

theorem le_of_pieceAt {d : Delimiter} {closes : Bool} (h : pieceAt s d i = some (j, closes)) :
    i ≤ j := by
  simp only [pieceAt] at h
  split at h
  · rw [Option.ite_none_right_eq_some, Option.some.injEq, Prod.mk.injEq] at h
    omega
  · split at h
    · rename_i r hplain
      cases h
      exact le_of_plainPiece hplain
    · rw [Option.ite_none_right_eq_some, Option.some.injEq, Prod.mk.injEq] at h
      have hescape := lt_escapeEnd s i
      omega

/-! ## Lexemes -/

theorem scan_follows (t : Terminal) (s : Source) (p : Place) (hp : p.KnowsRow s)
    (l : Lexeme Kind Layout) (hl : scan t s p = some l) : l.Follows s p := by
  cases t <;>
    simp only [scan, Option.bind_eq_bind, Option.bind_eq_some_iff, Prod.exists, Option.pure_def,
      Option.some.injEq] at hl
  case gap =>
    obtain ⟨comments, q, hgap, rfl⟩ := hl
    exact (readFrom_gapAt hp hgap).leafless
  case word | constant | identifier =>
    obtain ⟨comments, q, hgap, -, -, rfl⟩ := hl
    exact (readFrom_gapAt hp hgap).lexeme (le_wordEnd s q.pos) _ _ _
  case sign | exactly | conversion =>
    obtain ⟨comments, q, hgap, -, -, rfl⟩ := hl
    exact (readFrom_gapAt hp hgap).lexeme (Nat.le_add_right _ _) _ _ _
  case number =>
    obtain ⟨comments, q, hgap, j, hj, rfl⟩ := hl
    exact (readFrom_gapAt hp hgap).lexeme (le_of_numberEnd hj) _ _ _
  case newline =>
    obtain ⟨comments, m, q, hmark, rfl⟩ := hl
    exact (readFrom_findMark (.nil hp) hmark).leafless
  case indent =>
    obtain ⟨comments, m, q, hmark, hl⟩ := hl
    split at hl
    · cases hl
      have hread := readFrom_findMark (.nil hp) hmark
      exact ReadFrom.leafless ⟨hread.knowsRow, hread.inRows⟩
    · cases hl
  case dedent =>
    obtain ⟨comments, m, q, hmark, rfl⟩ := hl
    have hread := readFrom_findMark (.nil hp) hmark
    exact ReadFrom.leafless ⟨hread.knowsRow, hread.inRows⟩
  case openString =>
    obtain ⟨comments, q, hgap, d, j, hj, rfl⟩ := hl
    have hread := (readFrom_gapAt hp hgap).lexeme (le_of_openString hj) Kind.mark .anonymous
      (s.slice q.pos j)
    exact ⟨hread.knowsRow, hread.inRows⟩
  case piece =>
    obtain ⟨d, -, j, closes, hj, -, -, rfl⟩ := hl
    exact (ReadFrom.nil hp).moveTo (le_of_pieceAt hj)
  case closeString =>
    obtain ⟨d, -, j, closes, hj, -, -, rfl⟩ := hl
    have hread := (ReadFrom.nil hp).lexeme (le_of_pieceAt hj) Kind.mark .anonymous
      (s.slice p.pos j)
    exact ⟨hread.knowsRow, hread.inRows⟩
  case specification =>
    obtain ⟨-, -, rfl⟩ := hl
    exact (ReadFrom.nil hp).moveTo
      (Nat.le_trans (le_skipBlanks s p.pos) (s.le_skipWhile _ _))
  case finish =>
    obtain ⟨comments, q, hgap, -, -, rfl⟩ := hl
    exact (readFrom_gapAt hp hgap).leafless

/-- The nodes of a Python file lie one behind the other. -/
theorem inOrder_of_parse? {text : String} {t : ParseTree Kind} (h : parse? text = some t) :
    t.InOrder :=
  RuleSet.inOrder_of_parse? (g := grammar) scan_follows h

end DocGate.Python

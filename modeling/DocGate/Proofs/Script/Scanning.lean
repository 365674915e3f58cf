/-
DocGate.Proofs.Script.Scanning — the lexemes of JavaScript and TypeScript are found
forward.

* `le_of_stringEnd`, `le_of_regexEnd` and others — as for Python, what looks for the end
  of something answers a place at or behind the one it is asked at.
* `Script.scan_follows` — so each lexeme follows the cursor at which it was looked for,
  if the cursor knows its row.
* `Script.inOrder_of_parse?` — and the nodes of a script lie one behind the other, in
  every dialect.
-/
import Mathlib.Data.Option.Basic
import DocGate.Proofs.Grammar.MachineOrder
import DocGate.Script.Grammar

namespace DocGate.Script

open DocGate.Grammar

variable {s : Source} {i j a : Nat} {p q : Place}

/-! ## Comments and gaps -/

theorem le_of_blockCommentEnd {fuel : Nat} (h : blockCommentEnd s fuel i = some j) : i ≤ j := by
  fun_induction blockCommentEnd s fuel i with
  | case1 => cases h
  | case2 => cases h
  | case3 fuel i =>
    cases h
    omega
  | case4 fuel i hend hclose ih => exact Nat.le_of_succ_le (ih h)

theorem le_of_commentEnd {markup : Bool} (h : commentEnd s markup i = some j) : i ≤ j := by
  simp only [commentEnd] at h
  split at h
  · cases h
    exact s.le_skipWhile _ i
  split at h
  · have hblock := le_of_blockCommentEnd h
    omega
  split at h
  · cases h
    exact s.le_skipWhile _ i
  · cases h

theorem readFrom_skipComment {markup : Bool} {comments : List (ParseTree Kind)}
    {c : ParseTree Kind} (h : ReadFrom s a comments p)
    (hskip : skipComment s markup p = some (c, q)) : ReadFrom s a (c :: comments) q := by
  have hblanks := h.moveTo (s.le_skipWhile isBlank p.pos)
  simp only [skipComment] at hskip
  split at hskip
  · rename_i j hcomment
    cases hskip
    exact hblanks.leaf (le_of_commentEnd hcomment) _ _ _
  · cases hskip

theorem readFrom_skipGap {d : Dialect} {kind : Gap} {fuel : Nat}
    {comments comments' : List (ParseTree Kind)} (h : ReadFrom s a comments p)
    (hskip : skipGap d s kind fuel comments p = some (comments', q)) :
    ReadFrom s a comments' q := by
  fun_induction skipGap d s kind fuel comments p with
  | case1 => cases hskip
  | case2 => cases hskip
  | case3 fuel comments p ended markup hgap hended c p' hcomment ih =>
    exact ih (readFrom_skipComment h hcomment) hskip
  | case4 fuel comments p ended markup hgap hended hcomment =>
    cases hskip
    exact h.moveTo (s.le_skipWhile isBlank p.pos)

theorem readFrom_gapAt {d : Dialect} {kind : Gap} {comments : List (ParseTree Kind)}
    (hp : p.KnowsRow s) (h : gapAt d s kind p = some (comments, q)) :
    ReadFrom s p.row comments q :=
  readFrom_skipGap (.nil hp) h

/-! ## Words and numbers -/

theorem le_of_hexDigitsEnd {n : Nat} (h : hexDigitsEnd s n i = some j) : i ≤ j := by
  fun_induction hexDigitsEnd s n i with
  | case1 =>
    cases h
    exact Nat.le_refl j
  | case2 n i hdigit ih => exact Nat.le_of_succ_le (ih h)
  | case3 => cases h

theorem le_of_bracedHexEnd (h : bracedHexEnd s i = some j) : i ≤ j := by
  have hdigits := s.le_skipWhile isHexDigit (i + 1)
  simp only [bracedHexEnd] at h
  grind

theorem le_of_wordEscapeEnd (h : wordEscapeEnd s i = some j) : i ≤ j := by
  rw [wordEscapeEnd] at h
  split at h
  · split at h
    · rename_i k hdigits
      cases h
      have hle := le_of_hexDigitsEnd hdigits
      omega
    · have hle := le_of_bracedHexEnd h
      omega
  · cases h

theorem le_wordWithin (s : Source) (fuel i : Nat) : i ≤ wordWithin s fuel i := by
  fun_induction wordWithin s fuel i with
  | case1 i => exact Nat.le_refl i
  | case2 fuel i => exact Nat.le_refl i
  | case3 fuel i hend hbreak ih => exact Nat.le_of_succ_le ih
  | case4 fuel i hend hbreak j hescape ih => exact Nat.le_trans (le_of_wordEscapeEnd hescape) ih
  | case5 fuel i => exact Nat.le_refl i

theorem le_wordEnd (s : Source) (i : Nat) : i ≤ wordEnd s i := by
  rw [wordEnd]
  split
  · exact Nat.le_refl i
  · exact le_wordWithin s _ i

theorem le_digitsWithin (s : Source) (p : Char → Bool) (fuel i : Nat) :
    i ≤ digitsWithin s p fuel i := by
  fun_induction digitsWithin s p fuel i with
  | case1 i => exact Nat.le_refl i
  | case2 fuel i j hj => exact Nat.le_refl i
  | case3 fuel i j hj hunderscore ih =>
    have hdigits : i ≤ j := s.le_skipWhile p i
    omega
  | case4 fuel i j => exact s.le_skipWhile p i

theorem le_digitsEnd (s : Source) (p : Char → Bool) (i : Nat) : i ≤ digitsEnd s p i :=
  le_digitsWithin s p _ i

theorem le_exponentEnd (s : Source) (i : Nat) : i ≤ exponentEnd s i := by
  have hdigits := le_digitsEnd s
  simp only [exponentEnd]
  grind

theorem le_of_basedEnd (h : basedEnd s i = some j) : i ≤ j := by
  have hdigits := le_digitsEnd s
  simp only [basedEnd] at h
  grind

theorem le_of_numberEnd (h : numberEnd s i = some j) : i ≤ j := by
  have hdigits := le_digitsEnd s
  have hexponent := le_exponentEnd s
  simp only [numberEnd] at h
  split at h
  · rename_i k hbased
    cases h
    exact le_of_basedEnd hbased
  · grind

/-! ## Strings, templates and regular expressions -/

theorem le_of_escapeEnd (h : escapeEnd s i = some j) : i ≤ j := by
  have hdigits (n : Nat) : hexDigitsEnd s n (i + 2) = some j → i + 2 ≤ j := le_of_hexDigitsEnd
  have hbraced : bracedHexEnd s (i + 2) = some j → i + 2 ≤ j := le_of_bracedHexEnd
  simp only [escapeEnd] at h
  grind

theorem le_of_stringWithin {c : Char} {fuel : Nat} (h : stringWithin s c fuel i = some j) :
    i ≤ j := by
  fun_induction stringWithin s c fuel i with
  | case1 => cases h
  | case2 => cases h
  | case3 fuel i =>
    cases h
    omega
  | case4 fuel i e hend hquote hslash k hescape ih =>
    exact Nat.le_trans (le_of_escapeEnd hescape) (ih h)
  | case5 => cases h
  | case6 fuel i e hend hquote hslash ih => exact Nat.le_of_succ_le (ih h)

theorem le_of_stringEnd (h : stringEnd s i = some j) : i ≤ j := by
  simp only [stringEnd, Option.ite_none_right_eq_some] at h
  exact Nat.le_of_succ_le (le_of_stringWithin h.2)

theorem le_templateWithin (s : Source) (fuel i : Nat) : i ≤ templateWithin s fuel i := by
  fun_induction templateWithin s fuel i with
  | case1 i => exact Nat.le_refl i
  | case2 fuel i => exact Nat.le_refl i
  | case3 fuel i c hend ih => exact Nat.le_of_succ_le ih

theorem le_of_classWithin {fuel : Nat} (h : classWithin s fuel i = some j) : i ≤ j := by
  fun_induction classWithin s fuel i <;> grind

theorem le_of_regexWithin {fuel : Nat} (h : regexWithin s fuel i = some j) : i ≤ j := by
  have hclass {fuel i j : Nat} : classWithin s fuel i = some j → i ≤ j := le_of_classWithin
  fun_induction regexWithin s fuel i <;> grind

theorem le_of_regexEnd (h : regexEnd s i = some j) : i ≤ j := by
  simp only [regexEnd] at h
  split at h
  · cases h
  split at h
  · rename_i k hslash
    have hbody := le_of_regexWithin hslash
    split at h
    · cases h
    · cases h
      have hflags := s.le_skipWhile (fun c => 'a' ≤ c && c ≤ 'z') (k + 1)
      omega
  · cases h

/-! ## Markup -/

theorem le_of_markupTextEnd (h : markupTextEnd s i = some j) : i ≤ j := by
  simp only [markupTextEnd, Option.ite_none_right_eq_some, Option.some.injEq] at h
  obtain ⟨-, rfl⟩ := h
  exact s.le_skipWhile _ i

theorem le_of_entityEnd (h : entityEnd s i = some j) : i ≤ j := by
  simp only [entityEnd] at h
  grind

theorem le_of_attributeWithin {c : Char} {fuel : Nat}
    (h : attributeWithin s c fuel i = some j) : i ≤ j := by
  have hentity {i j : Nat} : entityEnd s i = some j → i ≤ j := le_of_entityEnd
  fun_induction attributeWithin s c fuel i <;> grind

theorem le_markupNameEnd (s : Source) (i : Nat) : i ≤ markupNameEnd s i := by
  have hword := le_wordEnd s i
  simp only [markupNameEnd]
  split
  · exact Nat.le_trans (s.le_skipWhile _ i) (s.le_skipWhile _ _)
  · exact hword

/-! ## Lexemes -/

theorem readFrom_findSemicolon {d : Dialect} {behind signature : Bool} {fuel : Nat}
    {comments : List (ParseTree Kind)} {l : Lexeme Kind Unit} (h : ReadFrom s a comments p)
    (hfind : findSemicolon d s behind signature fuel comments p = some l) :
    ReadFrom s a l.nodes l.next := by
  induction fuel generalizing comments p with
  | zero => cases hfind
  | succ fuel ih =>
    simp only [findSemicolon] at hfind
    split at hfind
    · cases hfind
      exact h.leafless
    split at hfind
    · rename_i c p' hcomment
      exact ih (readFrom_skipComment h hcomment) hfind
    split at hfind
    · cases hfind
      have hgap := h.moveTo (s.le_skipWhile isBlank p.pos)
      exact hgap.lexeme (Nat.le_succ _) _ _ _
    · cases hfind

theorem scan_follows (d : Dialect) (t : Terminal) (s : Source) (p : Place) (hp : p.KnowsRow s)
    (l : Lexeme Kind Unit) (hl : scan d t s p = some l) : l.Follows s p := by
  cases t <;>
    simp only [scan, Option.bind_eq_bind, Option.bind_eq_some_iff, Prod.exists, Option.pure_def,
      Option.some.injEq] at hl
  case gap =>
    obtain ⟨comments, q, hgap, rfl⟩ := hl
    exact (readFrom_gapAt hp hgap).leafless
  case word | constant | identifier | propertyName =>
    obtain ⟨comments, q, hgap, -, -, rfl⟩ := hl
    exact (readFrom_gapAt hp hgap).lexeme (le_wordEnd s q.pos) _ _ _
  case sign | exactly =>
    obtain ⟨comments, q, hgap, -, -, rfl⟩ := hl
    exact (readFrom_gapAt hp hgap).lexeme (Nat.le_add_right _ _) _ _ _
  case privateName =>
    obtain ⟨comments, q, hgap, -, -, -, -, rfl⟩ := hl
    exact (readFrom_gapAt hp hgap).lexeme
      (Nat.le_of_succ_le (le_wordEnd s (q.pos + 1))) _ _ _
  case number =>
    obtain ⟨comments, q, hgap, j, hj, rfl⟩ := hl
    exact (readFrom_gapAt hp hgap).lexeme (le_of_numberEnd hj) _ _ _
  case string =>
    obtain ⟨comments, q, hgap, j, hj, rfl⟩ := hl
    exact (readFrom_gapAt hp hgap).lexeme (le_of_stringEnd hj) _ _ _
  case regex =>
    obtain ⟨comments, q, hgap, j, hj, rfl⟩ := hl
    exact (readFrom_gapAt hp hgap).lexeme (le_of_regexEnd hj) _ _ _
  case templateText =>
    obtain ⟨-, -, rfl⟩ := hl
    exact (ReadFrom.nil hp).moveTo (le_templateWithin s _ p.pos)
  case templateEscape =>
    obtain ⟨-, -, j, hj, rfl⟩ := hl
    exact (ReadFrom.nil hp).moveTo (le_of_escapeEnd hj)
  case markupText =>
    obtain ⟨j, hj, rfl⟩ := hl
    exact (ReadFrom.nil hp).leaf (le_of_markupTextEnd hj) _ _ _
  case entity =>
    obtain ⟨comments, q, hgap, j, hj, rfl⟩ := hl
    exact (readFrom_gapAt hp hgap).lexeme (le_of_entityEnd hj) _ _ _
  case markupName =>
    obtain ⟨comments, q, hgap, -, -, rfl⟩ := hl
    exact (readFrom_gapAt hp hgap).lexeme (le_markupNameEnd s q.pos) _ _ _
  case attributeValue =>
    obtain ⟨comments, q, hgap, -, -, j, hj, rfl⟩ := hl
    exact (readFrom_gapAt hp hgap).lexeme
      (Nat.le_of_succ_le (le_of_attributeWithin hj)) _ _ _
  case semicolon | signatureEnd => exact readFrom_findSemicolon (.nil hp) hl
  case hashBang =>
    obtain ⟨-, -, rfl⟩ := hl
    exact (ReadFrom.nil hp).leaf (s.le_skipWhile _ p.pos) _ _ _
  case finish =>
    obtain ⟨comments, q, hgap, -, -, rfl⟩ := hl
    exact (readFrom_gapAt hp hgap).leafless

/-- The nodes of a script lie one behind the other. -/
theorem inOrder_of_parse? {d : Dialect} {text : String} {t : ParseTree Kind}
    (h : parse? d text = some t) : t.InOrder :=
  RuleSet.inOrder_of_parse? (g := grammar d) (scan_follows d) h

end DocGate.Script

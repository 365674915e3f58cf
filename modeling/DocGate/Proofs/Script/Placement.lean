/-
DocGate.Proofs.Script.Placement — the nodes of a script start at characters.

* `Script.placed_scan` — at the end of the text there is no lexeme that leaves a leaf,
  because none of the functions that look for the end of one finds any there. So the
  leaves and the comments of a script stand at characters.
* `Script.grounded_ruleOf` — every construct but the program itself has such a leaf in
  it, which is checked of the rules.
* `Script.placed_of_parse?` — so every node inside the program starts on the row of a
  character, for every text that is a script of the dialect.

The program itself may be empty, or start behind its last character.
-/
import Mathlib.Data.Option.Basic
import DocGate.Proofs.Grammar.Placement
import DocGate.Proofs.Script.Scanning

namespace DocGate.Script

open DocGate.Grammar

variable {s : Source} {i j : Nat} {p q : Place}

/-! ## Comments and gaps -/

theorem lt_size_of_commentEnd {markup : Bool} (h : commentEnd s markup i = some j) :
    i < s.size := by
  simp only [commentEnd] at h
  split at h
  · rename_i hstart
    exact Source.lt_size_of_startsAt hstart (by decide)
  split at h
  · rename_i hstart
    exact Source.lt_size_of_startsAt hstart (by decide)
  split at h
  · rename_i hstart
    rw [Bool.and_eq_true, Bool.or_eq_true] at hstart
    exact hstart.2.elim (Source.lt_size_of_startsAt · (by decide))
      (Source.lt_size_of_startsAt · (by decide))
  · cases h

/-- A leaf at a cursor is placed if there is a character. -/
theorem placed_leaf (hp : p.KnowsRow s) (hlt : p.pos < s.size) (k : Kind) (r : Role)
    (text : String) : (ParseTree.leaf k r p.row text).Placed s := by
  rw [hp]
  exact .leaf hlt k r text

theorem placed_skipComment {markup : Bool} {c : ParseTree Kind} (hp : p.KnowsRow s)
    (h : skipComment s markup p = some (c, q)) : c.Placed s ∧ q.KnowsRow s := by
  have hblanks := hp.moveTo (s.le_skipWhile isBlank p.pos)
  simp only [skipComment] at h
  split at h
  · rename_i j hcomment
    cases h
    exact ⟨placed_leaf hblanks (lt_size_of_commentEnd hcomment) _ _ _,
      hblanks.moveTo (le_of_commentEnd hcomment)⟩
  · cases h

theorem placed_skipGap {d : Dialect} {kind : Gap} {fuel : Nat}
    {comments comments' : List (ParseTree Kind)} (hp : p.KnowsRow s)
    (hcomments : AllPlaced s comments)
    (h : skipGap d s kind fuel comments p = some (comments', q)) :
    AllPlaced s comments' ∧ q.KnowsRow s := by
  fun_induction skipGap d s kind fuel comments p with
  | case1 => cases h
  | case2 => cases h
  | case3 fuel comments p ended markup hgap hended c p' hcomment ih =>
    obtain ⟨hc, hp'⟩ := placed_skipComment hp hcomment
    exact ih hp' (.cons hc hcomments) h
  | case4 fuel comments p ended markup hgap hended hcomment =>
    cases h
    exact ⟨hcomments, hp.moveTo (s.le_skipWhile isBlank p.pos)⟩

theorem placed_gapAt {d : Dialect} {kind : Gap} {comments : List (ParseTree Kind)}
    (hp : p.KnowsRow s) (h : gapAt d s kind p = some (comments, q)) :
    AllPlaced s comments ∧ q.KnowsRow s :=
  placed_skipGap hp .nil h

/-! ## Lexemes stand at characters -/

theorem wordEnd_of_size_le (h : s.size ≤ i) : wordEnd s i = i := by
  rw [wordEnd]
  split
  · rfl
  · cases hfuel : s.size + 1 - i with
    | zero => rw [wordWithin]
    | succ fuel =>
      rw [wordWithin, Source.atEnd, if_pos (by simpa [Source.size] using h)]

theorem lt_size_of_wordEnd (h : i < wordEnd s i) : i < s.size := by
  by_contra hend
  rw [wordEnd_of_size_le (Nat.le_of_not_lt hend)] at h
  exact Nat.lt_irrefl i h

theorem lt_size_of_markupNameEnd (h : i < markupNameEnd s i) : i < s.size := by
  by_contra hend
  simp only [markupNameEnd, wordEnd_of_size_le (Nat.le_of_not_lt hend), Nat.lt_irrefl,
    decide_false, Bool.false_and, Bool.false_eq_true, if_false] at h

theorem digitsEnd_of_size_le (p : Char → Bool) (h : s.size ≤ i) : digitsEnd s p i = i := by
  rw [digitsEnd]
  cases hfuel : s.size + 1 - i with
  | zero => rw [digitsWithin]
  | succ fuel => simp [digitsWithin, Source.skipWhile_of_size_le p h]

theorem lt_size_of_numberEnd (h : numberEnd s i = some j) : i < s.size := by
  by_contra hend
  have hle := Nat.le_of_not_lt hend
  simp [numberEnd, basedEnd, Source.peek_of_size_le hle, digitsEnd_of_size_le _ hle] at h

theorem lt_size_of_stringEnd (h : stringEnd s i = some j) : i < s.size := by
  by_contra hend
  simp [stringEnd, Source.peek_of_size_le (Nat.le_of_not_lt hend)] at h

theorem lt_size_of_regexEnd (h : regexEnd s i = some j) : i < s.size := by
  by_contra hend
  simp [regexEnd, Source.peek_of_size_le (Nat.le_of_not_lt hend)] at h

theorem lt_size_of_entityEnd (h : entityEnd s i = some j) : i < s.size := by
  by_contra hend
  simp [entityEnd, Source.peek_of_size_le (Nat.le_of_not_lt hend)] at h

theorem lt_size_of_markupTextEnd (h : markupTextEnd s i = some j) : i < s.size := by
  by_contra hend
  have hle : s.chars.size ≤ i := Nat.le_of_not_lt hend
  simp [markupTextEnd, Array.extract_empty_of_size_le_start hle] at h

/-! ## The lexemes of the grammar -/

/-- What the check of the rules takes the lexemes and the symbols of the grammar to be. -/
def grounding : Grounding Symbol Terminal where
  spelled
    | .word w | .exactly w | .constant w => w != ""
    | _ => true
  leaves
    | .gap _ | .templateText | .templateEscape | .semicolon _ | .signatureEnd | .finish => false
    | _ => true
  inner x := x != .program

theorem placed_leafless {comments : List (ParseTree Kind)} (hcomments : AllPlaced s comments)
    (q : Place) :
    AllPlaced s ({ comments := comments.reverse, next := q } : Lexeme Kind Unit).nodes := by
  simp only [Lexeme.nodes, Option.toList_none, List.nil_append, List.reverse_reverse]
  exact hcomments

theorem placed_leafTo {comments : List (ParseTree Kind)} (hcomments : AllPlaced s comments)
    (hq : q.KnowsRow s) (hlt : q.pos < s.size) (k : Kind) (r : Role) (j : Nat) :
    AllPlaced s (leafTo s k r comments q j).nodes := by
  simp only [leafTo, Lexeme.nodes, Option.toList_some, List.singleton_append,
    List.reverse_reverse]
  exact .cons (placed_leaf hq hlt k r _) hcomments

theorem placed_findSemicolon {d : Dialect} {behind signature : Bool} {fuel : Nat}
    {comments : List (ParseTree Kind)} {l : Lexeme Kind Unit} (hp : p.KnowsRow s)
    (hcomments : AllPlaced s comments)
    (h : findSemicolon d s behind signature fuel comments p = some l) :
    AllPlaced s l.nodes := by
  induction fuel generalizing comments p with
  | zero => cases h
  | succ fuel ih =>
    simp only [findSemicolon] at h
    split at h
    · cases h
      exact placed_leafless hcomments p
    split at h
    · rename_i c p' hcomment
      obtain ⟨hc, hp'⟩ := placed_skipComment hp hcomment
      exact ih hp' (.cons hc hcomments) h
    split at h
    · rename_i hsemicolon
      cases h
      have hgap := hp.moveTo (s.le_skipWhile isBlank p.pos)
      have hlt := Source.lt_size_of_peek (eq_of_beq hsemicolon) (by decide)
      simp only [Lexeme.nodes, Option.toList_some, List.singleton_append, List.reverse_reverse]
      exact .cons (placed_leaf hgap hlt _ _ _) hcomments
    · cases h

/-- Whatever a lexeme leaves stands at characters, and it leaves a leaf if it is said to. -/
theorem placed_scan {d : Dialect} {t : Terminal} (hp : p.KnowsRow s)
    (ht : grounding.spelled t) {l : Lexeme Kind Unit} (hl : scan d t s p = some l) :
    AllPlaced s l.nodes ∧ (grounding.leaves t → hasNode l.leaf.toList) := by
  -- What is left to say of a lexeme behind a gap is that it stands at a character.
  have hleaf {kind : Gap} {comments : List (ParseTree Kind)} {q : Place}
      (hgap : gapAt d s kind p = some (comments, q)) (hlt : q.pos < s.size) (k : Kind) {r : Role}
      (hr : r ≠ .extra) (j : Nat) :
      AllPlaced s (leafTo s k r comments q j).nodes ∧
        (grounding.leaves t → hasNode (leafTo s k r comments q j).leaf.toList) := by
    obtain ⟨hcomments, hq⟩ := placed_gapAt hp hgap
    refine ⟨placed_leafTo hcomments hq hlt k r j, fun _ => ?_⟩
    cases r
    · rfl
    · rfl
    · exact absurd rfl hr
  cases t <;>
    simp only [scan, Option.bind_eq_bind, Option.bind_eq_some_iff, Prod.exists, Option.pure_def,
      Option.some.injEq, Option.guard_eq_some', exists_const, Bool.and_eq_true, beq_iff_eq,
      decide_eq_true_eq, Bool.not_eq_true', Bool.or_eq_true] at hl
  case gap =>
    obtain ⟨comments, q, hgap, rfl⟩ := hl
    exact ⟨placed_leafless (placed_gapAt hp hgap).1 q, fun h => by cases h⟩
  case word | constant =>
    obtain ⟨comments, q, hgap, hword, rfl⟩ := hl
    have hlt := Source.lt_size_of_slice hword (by simpa [grounding] using ht)
    exact hleaf hgap hlt _ (by decide) _
  case sign w =>
    obtain ⟨comments, q, hgap, ⟨hend, -⟩, rfl⟩ := hl
    exact hleaf hgap (by simpa [Source.atEnd, Source.size] using hend) _ (by decide) _
  case exactly w =>
    obtain ⟨comments, q, hgap, hstart, rfl⟩ := hl
    have hlt := Source.lt_size_of_startsAt hstart (by simpa [grounding] using ht)
    exact hleaf hgap hlt _ (by decide) _
  case identifier except =>
    obtain ⟨comments, q, hgap, ⟨hlt, -⟩, rfl⟩ := hl
    exact hleaf hgap (lt_size_of_wordEnd hlt) _ (by decide) _
  case propertyName =>
    obtain ⟨comments, q, hgap, hlt, rfl⟩ := hl
    exact hleaf hgap (lt_size_of_wordEnd hlt) _ (by decide) _
  case privateName =>
    obtain ⟨comments, q, hgap, hsign, -, rfl⟩ := hl
    exact hleaf hgap (Source.lt_size_of_peek hsign (by decide)) _ (by decide) _
  case number =>
    obtain ⟨comments, q, hgap, j, hj, rfl⟩ := hl
    exact hleaf hgap (lt_size_of_numberEnd hj) _ (by decide) _
  case string =>
    obtain ⟨comments, q, hgap, j, hj, rfl⟩ := hl
    exact hleaf hgap (lt_size_of_stringEnd hj) _ (by decide) _
  case regex =>
    obtain ⟨comments, q, hgap, j, hj, rfl⟩ := hl
    exact hleaf hgap (lt_size_of_regexEnd hj) _ (by decide) _
  case templateText =>
    obtain ⟨-, rfl⟩ := hl
    exact ⟨placed_leafless .nil _, fun h => by cases h⟩
  case templateEscape =>
    obtain ⟨-, j, -, rfl⟩ := hl
    exact ⟨placed_leafless .nil _, fun h => by cases h⟩
  case markupText =>
    obtain ⟨j, hj, rfl⟩ := hl
    exact ⟨.cons (placed_leaf hp (lt_size_of_markupTextEnd hj) _ _ _) .nil, fun _ => rfl⟩
  case entity =>
    obtain ⟨comments, q, hgap, j, hj, rfl⟩ := hl
    exact hleaf hgap (lt_size_of_entityEnd hj) _ (by decide) _
  case markupName =>
    obtain ⟨comments, q, hgap, hlt, rfl⟩ := hl
    exact hleaf hgap (lt_size_of_markupNameEnd hlt) _ (by decide) _
  case attributeValue =>
    obtain ⟨comments, q, hgap, hquote, j, hj, rfl⟩ := hl
    refine hleaf hgap ?_ _ (by decide) _
    exact hquote.elim (Source.lt_size_of_peek · (by decide)) (Source.lt_size_of_peek · (by decide))
  case semicolon | signatureEnd =>
    exact ⟨placed_findSemicolon hp .nil hl, fun h => by cases h⟩
  case hashBang =>
    obtain ⟨hstart, rfl⟩ := hl
    exact ⟨.cons (placed_leaf hp (Source.lt_size_of_startsAt hstart (by decide)) _ _ _) .nil,
      fun _ => rfl⟩
  case finish =>
    obtain ⟨comments, q, hgap, -, rfl⟩ := hl
    exact ⟨placed_leafless (placed_gapAt hp hgap).1 q, fun h => by cases h⟩

/-! ## The rules of the grammar -/

/-- Every symbol but that for a whole source leaves a node, and its rule is grounded. -/
theorem grounded_ruleOf (d : Dialect) (x : Symbol) (hx : grounding.inner x) :
    (ruleOf d x).leavesNode grounding ∧ (ruleOf d x).grounded grounding := by
  rw [← Bool.and_eq_true]
  cases x with
  | program => cases hx
  | expressions c | expression c | operation c | coalescing c | disjunction c | conjunction c
  | arithmetic c | operand c | postfixed c | primary c | arrowFunction c =>
    cases d <;> obtain ⟨⟨⟩ | ⟨⟩, ⟨⟩ | ⟨⟩, ⟨⟩ | ⟨⟩⟩ := c <;> decide +kernel
  | type ends | unionType ends | primaryType ends | declaredType ends | declaredResult ends
  | result ends => cases d <;> cases ends <;> decide +kernel
  | _ => cases d <;> decide +kernel

theorem grounding_holds (d : Dialect) : grounding.Holds (grammar d) where
  scan _ _ _ hp ht _ hl := placed_scan hp ht hl
  rule := grounded_ruleOf d

/-- A script is one program, and every node inside it starts on the row of a place that holds a
character. -/
theorem placed_of_parse? {d : Dialect} {text : String} {t : ParseTree Kind}
    (h : parse? d text = some t) : t.kind = .program ∧ AllPlaced (.ofString text) t.children :=
  RuleSet.placed_of_parse? (g := grammar d) (scan_follows d) (grounding_holds d) rfl
    (by decide +kernel) h

end DocGate.Script

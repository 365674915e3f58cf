/-
DocGate.Text.Blank — the characters of the Unicode property `White_Space`, and texts
without the blanks around them.

* `isBlank` — the characters of the property, listed.
* `trim` — a text without the blanks at its two ends.
* `exists_eq_append_stripBoth` — what is left is one stretch of the text, for every
  choice of what is taken away at the ends.
-/

namespace DocGate.Text

/-- The Unicode property `White_Space`. -/
def isBlank (c : Char) : Bool :=
  ('\t' ≤ c && c ≤ '\r') || c == ' ' || c == '\u0085' || c == '\u00A0' || c == '\u1680'
    || ('\u2000' ≤ c && c ≤ '\u200A') || c == '\u2028' || c == '\u2029' || c == '\u202F'
    || c == '\u205F' || c == '\u3000'

/-- The list without the elements that satisfy `p` at either end. -/
def stripBoth {α : Type} (p : α → Bool) (xs : List α) : List α :=
  ((xs.dropWhile p).reverse.dropWhile p).reverse

/-- The text without the blanks at either end. -/
def trim (s : String) : String := String.ofList (stripBoth isBlank s.toList)

/-- The text without the quotes of both kinds at either end. -/
def unquote (s : String) : String :=
  String.ofList (stripBoth (fun c => c == '"' || c == '\'') s.toList)

/-- What is taken away at either end satisfies `p`. -/
theorem exists_eq_append_stripBoth {α : Type} (p : α → Bool) (xs : List α) :
    ∃ before behind, xs = before ++ stripBoth p xs ++ behind ∧
      (∀ a ∈ before, p a) ∧ ∀ a ∈ behind, p a := by
  refine ⟨xs.takeWhile p, ((xs.dropWhile p).reverse.takeWhile p).reverse, ?_, ?_, ?_⟩
  · have hend : stripBoth p xs ++ ((xs.dropWhile p).reverse.takeWhile p).reverse
        = xs.dropWhile p := by
      rw [stripBoth, ← List.reverse_append, List.takeWhile_append_dropWhile, List.reverse_reverse]
    rw [List.append_assoc, hend, List.takeWhile_append_dropWhile]
  · intro a ha
    exact List.all_eq_true.mp List.all_takeWhile a ha
  · intro a ha
    exact List.all_eq_true.mp List.all_takeWhile a (List.mem_reverse.mp ha)

end DocGate.Text

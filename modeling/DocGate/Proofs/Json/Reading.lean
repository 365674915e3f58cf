/-
DocGate.Proofs.Json.Reading — reading the texts of the grammar.

* `IsDecoder` — a function that reads every text of a value as this value. It may do
  anything with other texts.
* `Json.isDecoder_read?` — the reader is such a function. So a text is one of at most
  one value, and every decoder that knows the format reads it the same way.
* `Phrase.IsReadFrom` — what the induction carries along. The reader counts down while
  it reads, and a value takes no more than its text has characters.

A number is read up to the first character that cannot be part of one (`EndsNumber`), so
what follows a value matters to the reader and is part of the statement.
-/
import DocGate.Json.Reader
import DocGate.Proofs.Json.Grammar
import Mathlib.Data.List.DropRight

namespace DocGate.Json

/-! ## Blanks -/

/-- There are four blanks to look at. -/
theorem IsBlank.forall {p : Char → Prop} (h : p ' ' ∧ p '\n' ∧ p '\t' ∧ p '\r') {cs : List Char}
    (hcs : IsBlank cs) : ∀ c ∈ cs, p c := by
  obtain ⟨hblank, hline, htab, hreturn⟩ := h
  intro c hc
  have hlisted := hcs c hc
  simp only [List.mem_cons, List.not_mem_nil, or_false] at hlisted
  rcases hlisted with rfl | rfl | rfl | rfl
  · exact hblank
  · exact hline
  · exact htab
  · exact hreturn

theorem skipSpace_append {blank : List Char} (h : IsBlank blank) (cs : List Char) :
    skipSpace (blank ++ cs) = skipSpace cs :=
  List.dropWhile_append_of_pos (h.forall (by decide))

theorem skipSpace_cons {c : Char} (h : isSpace c = false) (cs : List Char) :
    skipSpace (c :: cs) = c :: cs :=
  List.dropWhile_cons_of_neg (by simp [h])

theorem skipSpace_skipSpace (cs : List Char) : skipSpace (skipSpace cs) = skipSpace cs :=
  List.dropWhile_idempotent isSpace cs

theorem readValue_skipSpace (fuel : Nat) (cs : List Char) :
    readValue fuel (skipSpace cs) = readValue fuel cs := by
  cases fuel with
  | zero => rw [readValue, readValue]
  | succ fuel => rw [readValue, readValue, skipSpace_skipSpace]

theorem readValue_blank {blank : List Char} (h : IsBlank blank) (fuel : Nat) (cs : List Char) :
    readValue fuel (blank ++ cs) = readValue fuel cs := by
  rw [← readValue_skipSpace, skipSpace_append h, readValue_skipSpace]

/-! ## Strings -/

theorem hexValue_of_isHexDigit {n : Nat} {c : Char} (h : IsHexDigit n c) :
    hexValue c = some n := by
  obtain ⟨hn, rfl | rfl⟩ := h <;> decide +revert

theorem readUnit_append {n : Nat} {cs : List Char} (h : IsUnit n cs) (rest : List Char) :
    readUnit (cs ++ rest) = some (n, rest) := by
  cases h with
  | digits ha hb hc hd =>
    simp only [List.cons_append, List.nil_append, readUnit, hexValue_of_isHexDigit ha,
      hexValue_of_isHexDigit hb, hexValue_of_isHexDigit hc, hexValue_of_isHexDigit hd]
    rfl

/-- One character of a string. -/
theorem readString_char {c : Char} {cs : List Char} (h : SpellsChar c cs) (fuel : Nat)
    (read rest : List Char) :
    readString (fuel + 1) read (cs ++ rest) = readString fuel (c :: read) rest := by
  cases h with
  | plain visible quote backslash =>
    rw [List.singleton_append, readString]
    · rw [if_neg (Char.not_lt.mpr visible)]
    · exact quote
    · exact backslash
  | escape listed =>
    simp only [escapes, List.mem_cons, List.not_mem_nil, or_false, Prod.mk.injEq] at listed
    rcases listed with ⟨rfl, rfl⟩ | ⟨rfl, rfl⟩ | ⟨rfl, rfl⟩ | ⟨rfl, rfl⟩ | ⟨rfl, rfl⟩ |
      ⟨rfl, rfl⟩ | ⟨rfl, rfl⟩ | ⟨rfl, rfl⟩ <;> rfl
  | @unit n cs hunit alone =>
    have hhigh : isHighSurrogate n = false := by
      simp [isHighSurrogate]
      omega
    have hlow : isLowSurrogate n = false := by
      simp [isLowSurrogate]
      omega
    have hescape : readEscape ('u' :: (cs ++ rest)) = some (Char.ofNat n, rest) := by
      simp [readEscape, readEscapedUnit, readUnit_append hunit, hhigh, hlow, unitChar]
    simp only [List.cons_append, readString, hescape]
  | @pair high low cs ds hcs hds first second =>
    have hhigh : isHighSurrogate high = true := by simp [isHighSurrogate, first]
    have hlow : isLowSurrogate low = true := by simp [isLowSurrogate, second]
    have hescape : readEscape ('u' :: (cs ++ '\\' :: 'u' :: (ds ++ rest)))
        = some (Char.ofNat (0x10000 + (high - 0xD800) * 0x400 + (low - 0xDC00)), rest) := by
      simp [readEscape, readEscapedUnit, readUnit_append hcs, readUnit_append hds, hhigh, hlow]
    simp only [List.cons_append, List.append_assoc, readString, hescape]

theorem SpellsChar.length_pos {c : Char} {cs : List Char} (h : SpellsChar c cs) :
    0 < cs.length := by
  cases h <;> simp

/-- All characters of a string, up to the quote behind them. -/
theorem readString_chars {s cs : List Char} (h : SpellsChars s cs) (fuel : Nat)
    (read rest : List Char) (hfuel : cs.length < fuel) :
    readString fuel read (cs ++ '"' :: rest) = some (String.ofList (read.reverse ++ s), rest) := by
  induction h generalizing fuel read with
  | nil =>
    obtain ⟨fuel, rfl⟩ := Nat.exists_eq_add_one.mpr (Nat.zero_lt_of_lt hfuel)
    simp [readString]
  | @cons c s cs ds first _ ih =>
    obtain ⟨fuel, rfl⟩ := Nat.exists_eq_add_one.mpr (Nat.zero_lt_of_lt hfuel)
    have hpos := first.length_pos
    rw [List.length_append] at hfuel
    rw [List.append_assoc, readString_char first, ih fuel (c :: read) (by omega)]
    simp

theorem readString_of_spellsString {s : String} {cs : List Char} (h : SpellsString s ('"' :: cs))
    (fuel : Nat) (rest : List Char) (hfuel : cs.length ≤ fuel) :
    readString fuel [] (cs ++ rest) = some (s, rest) := by
  cases h with
  | @quotes cs hchars =>
    rw [List.length_append, List.length_singleton] at hfuel
    rw [List.append_assoc, List.singleton_append, readString_chars hchars fuel [] rest hfuel]
    simp

/-! ## Numbers -/

/-- What stands behind a number must not look like more of it. -/
def EndsNumber (rest : List Char) : Prop := ∀ c ∈ rest.head?, isNumberChar c = false

theorem endsNumber_cons {c : Char} (h : isNumberChar c = false) (cs : List Char) :
    EndsNumber (c :: cs) := by
  intro d hd
  cases hd
  exact h

theorem endsNumber_append {blank rest : List Char} (hblank : IsBlank blank)
    (hrest : EndsNumber rest) : EndsNumber (blank ++ rest) := by
  cases blank with
  | nil => exact hrest
  | cons c blank =>
    have hsafe : ∀ d ∈ c :: blank, isNumberChar d = false := hblank.forall (by decide)
    exact endsNumber_cons (hsafe c List.mem_cons_self) _

/-- Some characters that numbers are made of. -/
def IsNumeric (cs : List Char) : Prop := ∀ c ∈ cs, isNumberChar c

theorem isNumeric_nil : IsNumeric [] := by
  intro c hc
  cases hc

theorem isNumeric_singleton {c : Char} (h : isNumberChar c) : IsNumeric [c] := by
  intro d hd
  cases List.mem_singleton.mp hd
  exact h

theorem IsNumeric.append {cs ds : List Char} (hcs : IsNumeric cs) (hds : IsNumeric ds) :
    IsNumeric (cs ++ ds) := by
  intro c hc
  rcases List.mem_append.mp hc with hc | hc
  · exact hcs c hc
  · exact hds c hc

theorem IsDigits.isNumeric {cs : List Char} (h : IsDigits cs) : IsNumeric cs := by
  intro c hc
  simp [isNumberChar, h.2 c hc]

theorem IsWhole.isNumeric {cs : List Char} (h : IsWhole cs) : IsNumeric cs := by
  cases h with
  | zero => exact isNumeric_singleton rfl
  | digits _ all => exact all.isNumeric

theorem IsFraction.isNumeric {cs : List Char} (h : IsFraction cs) : IsNumeric cs := by
  cases h with
  | none => exact isNumeric_nil
  | digits all => exact (isNumeric_singleton (c := '.') rfl).append all.isNumeric

theorem IsPower.isNumeric {cs : List Char} (h : IsPower cs) : IsNumeric cs := by
  cases h with
  | none => exact isNumeric_nil
  | @digits mark sign cs hmark hsign all =>
    have hmark : isNumberChar mark := by
      simp only [List.mem_cons, List.not_mem_nil, or_false] at hmark
      rcases hmark with rfl | rfl <;> rfl
    have hsign : IsNumeric sign := by
      simp only [List.mem_cons, List.not_mem_nil, or_false] at hsign
      rcases hsign with rfl | rfl | rfl
      · exact isNumeric_nil
      · exact isNumeric_singleton rfl
      · exact isNumeric_singleton rfl
    exact (isNumeric_singleton hmark).append (hsign.append all.isNumeric)

theorem IsNumber.isNumeric {cs : List Char} (h : IsNumber cs) : IsNumeric cs ∧ cs ≠ [] := by
  cases h with
  | @parts sign whole fraction power hsign hwhole hfraction hpower =>
    have hsign : IsNumeric sign := by
      simp only [List.mem_cons, List.not_mem_nil, or_false] at hsign
      rcases hsign with rfl | rfl
      · exact isNumeric_nil
      · exact isNumeric_singleton rfl
    refine ⟨((hsign.append hwhole.isNumeric).append hfraction.isNumeric).append hpower.isNumeric,
      ?_⟩
    cases hwhole <;> simp

/-- A number begins with a character that no other value begins with. -/
theorem IsNumber.exists_cons {cs : List Char} (h : IsNumber cs) (rest : List Char) :
    ∃ c tail, cs ++ rest = c :: tail ∧ isNumberChar c ∧ isSpace c = false := by
  obtain ⟨hnumeric, hne⟩ := h.isNumeric
  obtain ⟨c, cs, rfl⟩ := List.exists_cons_of_ne_nil hne
  have hc : isNumberChar c := hnumeric c List.mem_cons_self
  refine ⟨c, cs ++ rest, rfl, hc, Bool.eq_false_iff.mpr fun hspace => ?_⟩
  simp only [isSpace, Bool.or_eq_true, beq_iff_eq] at hspace
  rcases hspace with ((rfl | rfl) | rfl) | rfl <;> cases hc

theorem readPlain_number {cs rest : List Char} (h : IsNumber cs) (hrest : EndsNumber rest) :
    readPlain (cs ++ rest) = some (.number (String.ofList cs), rest) := by
  obtain ⟨hnumeric, hne⟩ := h.isNumeric
  obtain ⟨c, tail, htext, hc, -⟩ := h.exists_cons rest
  have htake : (cs ++ rest).takeWhile isNumberChar = cs := by
    rw [List.takeWhile_append_of_pos hnumeric]
    cases rest with
    | nil => simp
    | cons c rest => simp [hrest c rfl]
  have hdrop : (cs ++ rest).dropWhile isNumberChar = rest := by
    rw [List.dropWhile_append_of_pos hnumeric]
    cases rest with
    | nil => rfl
    | cons c rest => simp [hrest c rfl]
  rw [htext] at htake hdrop ⊢
  unfold readPlain
  split
  case h_4 => simp [htake, hdrop, hne]
  -- a word begins with a letter that no number has
  all_goals
    rename_i hword
    cases hword
    cases hc

theorem readValue_number {cs rest : List Char} (h : IsNumber cs) (hrest : EndsNumber rest)
    (fuel : Nat) :
    readValue (fuel + 1) (cs ++ rest) = some (.number (String.ofList cs), rest) := by
  have hplain := readPlain_number h hrest
  obtain ⟨c, tail, htext, hc, hspace⟩ := h.exists_cons rest
  rw [htext] at hplain ⊢
  rw [readValue, skipSpace_cons hspace]
  split
  case h_4 => exact hplain
  all_goals
    rename_i hopening
    cases hopening
    cases hc

/-! ## Phrases -/

/-- How the reader reads a phrase, of which some text is given. -/
def Phrase.IsReadFrom : Phrase → List Char → Prop
  | .value v, cs => ∀ fuel rest, cs.length ≤ fuel + 1 → EndsNumber rest →
      readValue (fuel + 1) (cs ++ rest) = some (v, rest)
  | .element v, cs => ∀ fuel rest, cs.length ≤ fuel → EndsNumber rest →
      ∃ left, readValue fuel (cs ++ rest) = some (v, left) ∧ skipSpace left = skipSpace rest
  | .elements vs, cs => ∀ fuel read rest, cs.length < fuel →
      readItems fuel read (cs ++ ']' :: rest) = some (.array (read.reverse ++ vs), rest)
  | .member field, cs => ∀ fuel read rest, cs.length ≤ fuel →
      readFields (fuel + 1) read (cs ++ ',' :: rest) = readFields fuel (field :: read) rest ∧
        readFields (fuel + 1) read (cs ++ '\x7d' :: rest)
          = some (.object (field :: read).reverse, rest)
  | .members fields, cs => ∀ fuel read rest, cs.length < fuel →
      readFields fuel read (cs ++ '\x7d' :: rest) = some (.object (read.reverse ++ fields), rest)

theorem readItems_skipSpace (fuel : Nat) (read : List Json) (cs : List Char) :
    readItems fuel read (skipSpace cs) = readItems fuel read cs := by
  cases fuel with
  | zero => rw [readItems, readItems]
  | succ fuel => rw [readItems, readItems, readValue_skipSpace]

theorem readFields_skipSpace (fuel : Nat) (read : List (String × Json)) (cs : List Char) :
    readFields fuel read (skipSpace cs) = readFields fuel read cs := by
  cases fuel with
  | zero => rw [readFields, readFields]
  | succ fuel => rw [readFields, readFields, skipSpace_skipSpace]

theorem readItems_closing (fuel : Nat) (read : List Json) (cs : List Char) :
    readItems fuel read (']' :: cs) = none := by
  match fuel with
  | 0 => rw [readItems]
  | 1 => rw [readItems, readValue]
  | fuel + 2 =>
    have hvalue : readValue (fuel + 1) (']' :: cs) = none := by
      rw [readValue, skipSpace_cons (by decide)]
      rfl
    rw [readItems, hvalue]

theorem readFields_closing (fuel : Nat) (read : List (String × Json)) (cs : List Char) :
    readFields fuel read ('\x7d' :: cs) = none := by
  cases fuel with
  | zero => rw [readFields]
  | succ fuel =>
    rw [readFields, skipSpace_cons (by decide)]
    rfl

theorem readValue_array {fuel : Nat} {cs rest : List Char} {v : Json}
    (h : readItems fuel [] cs = some (v, rest)) :
    readValue (fuel + 1) ('[' :: cs) = some (v, rest) := by
  rw [readValue, skipSpace_cons (by decide)]
  simp only
  split
  · -- no item begins with what would close an empty array
    rename_i hskip
    rw [← readItems_skipSpace, hskip, readItems_closing] at h
    cases h
  · rw [readItems_skipSpace, h]

theorem readValue_object {fuel : Nat} {cs rest : List Char} {v : Json}
    (h : readFields fuel [] cs = some (v, rest)) :
    readValue (fuel + 1) ('\x7b' :: cs) = some (v, rest) := by
  rw [readValue, skipSpace_cons (by decide)]
  simp only
  split
  · rename_i hskip
    rw [← readFields_skipSpace, hskip, readFields_closing] at h
    cases h
  · rw [readFields_skipSpace, h]

theorem readValue_string {s : String} {cs : List Char} (h : SpellsString s cs) (fuel : Nat)
    (rest : List Char) (hfuel : cs.length ≤ fuel + 1) :
    readValue (fuel + 1) (cs ++ rest) = some (.string s, rest) := by
  cases h with
  | @quotes cs hchars =>
    have hread := readString_of_spellsString (.quotes hchars) fuel rest
      (Nat.le_of_succ_le_succ hfuel)
    rw [List.cons_append, readValue, skipSpace_cons (by decide)]
    simp only [hread, Option.map_some]

/-- The name of a field and its value, behind which another field or the end of the object
stands. -/
theorem readFields_member {name : String} {v : Json} {before cs after ds rest left tail : List Char}
    (hbefore : IsBlank before) (hname : SpellsString name cs) (hafter : IsBlank after)
    {fuel : Nat} (hfuel : cs.length ≤ fuel)
    (hvalue : readValue fuel (ds ++ rest) = some (v, left)) (read : List (String × Json)) :
    (skipSpace left = ',' :: tail →
      readFields (fuel + 1) read (before ++ cs ++ after ++ ':' :: ds ++ rest)
        = readFields fuel ((name, v) :: read) tail) ∧
    (skipSpace left = '\x7d' :: tail →
      readFields (fuel + 1) read (before ++ cs ++ after ++ ':' :: ds ++ rest)
        = some (.object ((name, v) :: read).reverse, tail)) := by
  cases hname with
  | @quotes cs hchars =>
    have hread := readString_of_spellsString (.quotes hchars) fuel (after ++ ':' :: (ds ++ rest))
      (Nat.le_of_succ_le hfuel)
    have hcolon : skipSpace (':' :: (ds ++ rest)) = ':' :: (ds ++ rest) :=
      skipSpace_cons (by decide) _
    simp only [List.append_assoc, List.cons_append] at hread ⊢
    rw [readFields, skipSpace_append hbefore, skipSpace_cons (by decide)]
    simp only [hread, skipSpace_append hafter, hcolon, hvalue]
    exact ⟨fun hleft => by simp only [hleft], fun hleft => by simp only [hleft]⟩

theorem Spells.value_length_pos {v : Json} {cs : List Char} (h : Spells (.value v) cs) :
    0 < cs.length := by
  cases h with
  | number h => exact List.length_pos_iff.mpr h.isNumeric.2
  | string h => cases h; simp
  | _ => simp

/-- The reader reads a phrase from every text of it. -/
theorem Spells.isReadFrom {p : Phrase} {cs : List Char} (h : Spells p cs) : p.IsReadFrom cs := by
  induction h with
  | null => exact fun fuel rest _ _ => rfl
  | yes => exact fun fuel rest _ _ => rfl
  | no => exact fun fuel rest _ _ => rfl
  | number h =>
    intro fuel rest _ hrest
    rw [readValue_number h hrest, String.ofList_toList]
  | string h => exact fun fuel rest hfuel _ => readValue_string h fuel rest hfuel
  | emptyArray h =>
    intro fuel rest _ _
    rw [List.cons_append, List.append_assoc, readValue, skipSpace_cons (by decide)]
    simp only [skipSpace_append h]
    rfl
  | array h ih =>
    intro fuel rest hfuel _
    simp only [List.length_cons, List.length_append] at hfuel
    rw [List.cons_append, List.append_assoc]
    exact readValue_array (ih fuel [] rest (by omega))
  | emptyObject h =>
    intro fuel rest _ _
    rw [List.cons_append, List.append_assoc, readValue, skipSpace_cons (by decide)]
    simp only [skipSpace_append h]
    rfl
  | object h ih =>
    intro fuel rest hfuel _
    simp only [List.length_cons, List.length_append] at hfuel
    rw [List.cons_append, List.append_assoc]
    exact readValue_object (ih fuel [] rest (by omega))
  | @element v before cs after hbefore h hafter ih =>
    intro fuel rest hfuel hrest
    -- the text of a value is not empty, so that something is left to count down from
    have hpos := h.value_length_pos
    simp only [List.length_append] at hfuel
    obtain ⟨fuel, rfl⟩ := Nat.exists_eq_add_one.mpr (show 0 < fuel by omega)
    refine ⟨after ++ rest, ?_, skipSpace_append hafter rest⟩
    rw [List.append_assoc, List.append_assoc, readValue_blank hbefore]
    exact ih fuel (after ++ rest) (by omega) (endsNumber_append hafter hrest)
  | lastElement h ih =>
    intro fuel read rest hfuel
    obtain ⟨fuel, rfl⟩ := Nat.exists_eq_add_one.mpr (Nat.zero_lt_of_lt hfuel)
    obtain ⟨left, hvalue, hleft⟩ :=
      ih fuel (']' :: rest) (Nat.le_of_lt_succ hfuel) (endsNumber_cons (by decide) rest)
    rw [skipSpace_cons (by decide)] at hleft
    rw [readItems, hvalue]
    simp [hleft]
  | @elements v vs cs ds first rest ihfirst ihrest =>
    intro fuel read tail hfuel
    obtain ⟨fuel, rfl⟩ := Nat.exists_eq_add_one.mpr (Nat.zero_lt_of_lt hfuel)
    simp only [List.length_cons, List.length_append] at hfuel
    obtain ⟨left, hvalue, hleft⟩ := ihfirst fuel (',' :: (ds ++ ']' :: tail)) (by omega)
      (endsNumber_cons (by decide) _)
    rw [skipSpace_cons (by decide)] at hleft
    rw [List.append_assoc, List.cons_append, readItems, hvalue]
    simp only [hleft]
    rw [ihrest fuel (v :: read) tail (by omega)]
    simp
  | @member name v before cs after ds hbefore hname hafter h ih =>
    intro fuel read rest hfuel
    simp only [List.length_cons, List.length_append] at hfuel
    constructor
    · obtain ⟨left, hvalue, hleft⟩ := ih fuel (',' :: rest) (by omega)
        (endsNumber_cons (by decide) rest)
      rw [skipSpace_cons (by decide)] at hleft
      exact (readFields_member hbefore hname hafter (by omega) hvalue read).1 hleft
    · obtain ⟨left, hvalue, hleft⟩ := ih fuel ('\x7d' :: rest) (by omega)
        (endsNumber_cons (by decide) rest)
      rw [skipSpace_cons (by decide)] at hleft
      exact (readFields_member hbefore hname hafter (by omega) hvalue read).2 hleft
  | lastMember h ih =>
    intro fuel read rest hfuel
    obtain ⟨fuel, rfl⟩ := Nat.exists_eq_add_one.mpr (Nat.zero_lt_of_lt hfuel)
    rw [(ih fuel read rest (Nat.le_of_lt_succ hfuel)).2]
    simp
  | @members field fields cs ds first rest ihfirst ihrest =>
    intro fuel read tail hfuel
    obtain ⟨fuel, rfl⟩ := Nat.exists_eq_add_one.mpr (Nat.zero_lt_of_lt hfuel)
    simp only [List.length_cons, List.length_append] at hfuel
    rw [List.append_assoc, List.cons_append, (ihfirst fuel read _ (by omega)).1,
      ihrest fuel (field :: read) tail (by omega)]
    simp

/-- A decoder that knows the format: it reads every text of a value as this value, with the
fields of its objects in their order. -/
def IsDecoder (decode : String → Option Json) : Prop :=
  ∀ v text, IsTextOf v text → decode text = some v

theorem isDecoder_read? : IsDecoder read? := by
  intro v text h
  obtain ⟨left, hvalue, hleft⟩ := Spells.isReadFrom h (text.toList.length + 1) []
    (Nat.le_succ _) (by simp [EndsNumber])
  rw [List.append_nil] at hvalue
  rw [read?]
  simp only [hvalue, hleft]
  rfl

end DocGate.Json

/-
DocGate.Proofs.Json.Grammar — the grammar of JSON.

* `Spells` — relates the phrases of the format to their texts, production by production.
  It knows of no reader and no writer: a text may have blanks wherever the format allows
  them, and a character of a string may be written in every way there is.
* `IsTextOf` — a text of a value, with blanks around it.
* `WellFormed.spells_renderAt` — what the writer makes of a value is a text of this
  value, at every level.

The side condition is `WellFormed`: the numbers in a value, which are kept as texts, are
numbers of the format. Nothing is asked of strings and names.
-/
import DocGate.Json.Writer

namespace DocGate.Json

/-! ## Numbers -/

/-- One digit or more. -/
def IsDigits (cs : List Char) : Prop := cs ≠ [] ∧ ∀ c ∈ cs, c.isDigit

/-- A whole number: it begins with a zero only if there is nothing else. -/
inductive IsWhole : List Char → Prop where
  | zero : IsWhole ['0']
  | digits {c : Char} {cs : List Char} (first : c ≠ '0') (all : IsDigits (c :: cs)) :
      IsWhole (c :: cs)

/-- What may stand behind a whole number: nothing, or a point and digits. -/
inductive IsFraction : List Char → Prop where
  | none : IsFraction []
  | digits {cs : List Char} (all : IsDigits cs) : IsFraction ('.' :: cs)

/-- What may stand behind that: nothing, or a power of ten. -/
inductive IsPower : List Char → Prop where
  | none : IsPower []
  | digits {mark : Char} {sign cs : List Char} (hmark : mark ∈ ['e', 'E'])
      (hsign : sign ∈ [[], ['+'], ['-']]) (all : IsDigits cs) : IsPower (mark :: (sign ++ cs))

inductive IsNumber : List Char → Prop where
  | parts {sign whole fraction power : List Char} (hsign : sign ∈ [[], ['-']])
      (hwhole : IsWhole whole) (hfraction : IsFraction fraction) (hpower : IsPower power) :
      IsNumber (sign ++ whole ++ fraction ++ power)

theorem isDigits_toDigits (n : Nat) : IsDigits (Nat.toDigits 10 n) :=
  ⟨Nat.toDigits_ne_nil, fun _ hc => Nat.isDigit_of_mem_toDigits (by decide) (by decide) hc⟩

/-- The digits of a natural number begin with a zero only if it is zero. -/
theorem toDigits_eq_cons {n : Nat} (h : n ≠ 0) :
    ∃ c cs, Nat.toDigits 10 n = c :: cs ∧ c ≠ '0' := by
  induction n using Nat.strongRecOn with
  | _ n ih =>
    by_cases hlt : n < 10
    · exact ⟨n.digitChar, [], Nat.toDigits_of_lt_base hlt, mt Nat.digitChar_eq_zero.mp h⟩
    · obtain ⟨c, cs, hdigits, hc⟩ := ih (n / 10) (by omega) (by omega)
      exact ⟨c, cs ++ [(n % 10).digitChar],
        by rw [Nat.toDigits_of_base_le (by decide) (by omega), hdigits, List.cons_append], hc⟩

theorem isWhole_toDigits (n : Nat) : IsWhole (Nat.toDigits 10 n) := by
  by_cases h : n = 0
  · subst h
    exact .zero
  · obtain ⟨c, cs, hdigits, hc⟩ := toDigits_eq_cons h
    have hall := isDigits_toDigits n
    rw [hdigits] at hall ⊢
    exact .digits hc hall

/-! ## Strings -/

/-- A hexadecimal digit, with a letter of either case. -/
def IsHexDigit (n : Nat) (c : Char) : Prop :=
  n < 16 ∧ (c = n.digitChar ∨ c = n.digitChar.toUpper)

/-- Four hexadecimal digits. -/
inductive IsUnit : Nat → List Char → Prop where
  | digits {i j k l : Nat} {a b c d : Char} (ha : IsHexDigit i a) (hb : IsHexDigit j b)
      (hc : IsHexDigit k c) (hd : IsHexDigit l d) :
      IsUnit (((i * 16 + j) * 16 + k) * 16 + l) [a, b, c, d]

/-- The characters with an escape of one letter. -/
def escapes : List (Char × Char) :=
  [('"', '"'), ('\\', '\\'), ('/', '/'), ('b', '\x08'), ('f', '\x0c'), ('n', '\n'), ('r', '\r'),
   ('t', '\t')]

/-- How a character may be written in a string. A surrogate that stands alone is no character. -/
inductive SpellsChar : Char → List Char → Prop where
  | plain {c : Char} (visible : ' ' ≤ c) (quote : c ≠ '"') (backslash : c ≠ '\\') :
      SpellsChar c [c]
  | escape {letter c : Char} (listed : (letter, c) ∈ escapes) : SpellsChar c ['\\', letter]
  | unit {n : Nat} {cs : List Char} (h : IsUnit n cs) (alone : n < 0xD800 ∨ 0xE000 ≤ n) :
      SpellsChar (Char.ofNat n) ('\\' :: 'u' :: cs)
  | pair {high low : Nat} {cs ds : List Char} (hhigh : IsUnit high cs) (hlow : IsUnit low ds)
      (first : 0xD800 ≤ high ∧ high < 0xDC00) (second : 0xDC00 ≤ low ∧ low < 0xE000) :
      SpellsChar (Char.ofNat (0x10000 + (high - 0xD800) * 0x400 + (low - 0xDC00)))
        ('\\' :: 'u' :: (cs ++ '\\' :: 'u' :: ds))

/-- The characters between the quotes of a string. -/
inductive SpellsChars : List Char → List Char → Prop where
  | nil : SpellsChars [] []
  | cons {c : Char} {s cs ds : List Char} (first : SpellsChar c cs) (rest : SpellsChars s ds) :
      SpellsChars (c :: s) (cs ++ ds)

/-- A string with its quotes. -/
inductive SpellsString : String → List Char → Prop where
  | quotes {s : String} {cs : List Char} (h : SpellsChars s.toList cs) :
      SpellsString s ('"' :: (cs ++ ['"']))

/-! ## Values -/

def IsBlank (cs : List Char) : Prop := ∀ c ∈ cs, c ∈ [' ', '\n', '\t', '\r']

/-- What a text may stand for. -/
inductive Phrase where
  | value (v : Json)
  /-- A value with blanks around it. -/
  | element (v : Json)
  /-- The items of an array, of which there is one at least. -/
  | elements (vs : List Json)
  | member (field : String × Json)
  /-- The fields of an object, of which there is one at least. -/
  | members (fields : List (String × Json))

/-- The texts of a phrase. -/
inductive Spells : Phrase → List Char → Prop where
  | null : Spells (.value .null) ['n', 'u', 'l', 'l']
  | yes : Spells (.value (.bool true)) ['t', 'r', 'u', 'e']
  | no : Spells (.value (.bool false)) ['f', 'a', 'l', 's', 'e']
  | number {text : String} (h : IsNumber text.toList) :
      Spells (.value (.number text)) text.toList
  | string {s : String} {cs : List Char} (h : SpellsString s cs) : Spells (.value (.string s)) cs
  | emptyArray {blank : List Char} (h : IsBlank blank) :
      Spells (.value (.array [])) ('[' :: (blank ++ [']']))
  | array {vs : List Json} {cs : List Char} (h : Spells (.elements vs) cs) :
      Spells (.value (.array vs)) ('[' :: (cs ++ [']']))
  | emptyObject {blank : List Char} (h : IsBlank blank) :
      Spells (.value (.object [])) ('\x7b' :: (blank ++ ['\x7d']))
  | object {fields : List (String × Json)} {cs : List Char} (h : Spells (.members fields) cs) :
      Spells (.value (.object fields)) ('\x7b' :: (cs ++ ['\x7d']))
  | element {v : Json} {before cs after : List Char} (hbefore : IsBlank before)
      (h : Spells (.value v) cs) (hafter : IsBlank after) :
      Spells (.element v) (before ++ cs ++ after)
  | lastElement {v : Json} {cs : List Char} (h : Spells (.element v) cs) :
      Spells (.elements [v]) cs
  | elements {v : Json} {vs : List Json} {cs ds : List Char} (first : Spells (.element v) cs)
      (rest : Spells (.elements vs) ds) : Spells (.elements (v :: vs)) (cs ++ ',' :: ds)
  | member {name : String} {v : Json} {before cs after ds : List Char} (hbefore : IsBlank before)
      (hname : SpellsString name cs) (hafter : IsBlank after) (h : Spells (.element v) ds) :
      Spells (.member (name, v)) (before ++ cs ++ after ++ ':' :: ds)
  | lastMember {field : String × Json} {cs : List Char} (h : Spells (.member field) cs) :
      Spells (.members [field]) cs
  | members {field : String × Json} {fields : List (String × Json)} {cs ds : List Char}
      (first : Spells (.member field) cs) (rest : Spells (.members fields) ds) :
      Spells (.members (field :: fields)) (cs ++ ',' :: ds)

/-- A text of a value and nothing else. -/
def IsTextOf (v : Json) (text : String) : Prop := Spells (.element v) text.toList

/-- A value that has a text: the numbers in it are numbers of the format. -/
inductive WellFormed : Json → Prop where
  | null : WellFormed .null
  | bool (b : Bool) : WellFormed (.bool b)
  | number {text : String} (h : IsNumber text.toList) : WellFormed (.number text)
  | string (s : String) : WellFormed (.string s)
  | array {items : List Json} (h : ∀ v ∈ items, v.WellFormed) : WellFormed (.array items)
  | object {fields : List (String × Json)} (h : ∀ field ∈ fields, field.2.WellFormed) :
      WellFormed (.object fields)

theorem wellFormed_nat (n : Nat) : (nat n).WellFormed := by
  refine .number ?_
  rw [Nat.toString_eq_ofList_toDigits, String.toList_ofList]
  have hparts : IsNumber ([] ++ Nat.toDigits 10 n ++ [] ++ []) :=
    .parts (by decide) (isWhole_toDigits n) .none .none
  simpa using hparts

theorem WellFormed.array_map {α : Type} {f : α → Json} (h : ∀ x, (f x).WellFormed) (xs : List α) :
    WellFormed (.array (xs.map f)) := by
  refine .array fun v hv => ?_
  obtain ⟨x, -, rfl⟩ := List.mem_map.mp hv
  exact h x

/-! ## What the writer writes -/

theorem isHexDigit_hexDigit {n : Nat} (h : n < 16) : IsHexDigit n (hexDigit n) := by
  refine ⟨h, .inl ?_⟩
  revert h
  decide +revert

/-- Every character is written as the format has it. -/
theorem spellsChar_escapeChar (c : Char) : SpellsChar c (escapeChar c) := by
  unfold escapeChar
  split
  case h_8 _ hquote hbackslash _ _ _ _ _ =>
    split
    · rename_i hlow
      have hlow : c.toNat < 32 := hlow
      have hunit := IsUnit.digits (isHexDigit_hexDigit (n := 0) (by omega))
        (isHexDigit_hexDigit (n := 0) (by omega))
        (isHexDigit_hexDigit (n := c.toNat / 16) (by omega))
        (isHexDigit_hexDigit (n := c.toNat % 16) (by omega))
      have hvalue : ((0 * 16 + 0) * 16 + c.toNat / 16) * 16 + c.toNat % 16 = c.toNat := by omega
      have hzero : hexDigit 0 = '0' := rfl
      rw [hvalue, hzero] at hunit
      simpa using SpellsChar.unit hunit (.inl (by omega))
    · rename_i hvisible
      exact .plain (Char.not_lt.mp hvisible) hquote hbackslash
  all_goals exact .escape (by decide)

theorem spellsChars_flatMap (cs : List Char) : SpellsChars cs (cs.flatMap escapeChar) := by
  induction cs with
  | nil => exact .nil
  | cons c cs ih => exact .cons (spellsChar_escapeChar c) ih

theorem spellsString_quoted (s : String) : SpellsString s (quoted s).toList := by
  simpa [quoted] using SpellsString.quotes (spellsChars_flatMap s.toList)

theorem isBlank_nil : IsBlank [] := by
  intro c hc
  cases hc

theorem isBlank_singleton : IsBlank [' '] := by
  intro c hc
  cases List.mem_singleton.mp hc
  decide

/-- The end of a line and the blanks in front of the next. -/
theorem isBlank_newLine (level : Nat) : IsBlank ('\n' :: (indent level).toList) := by
  intro c hc
  simp only [indent, String.toList_ofList, List.mem_cons, List.mem_replicate] at hc
  rcases hc with rfl | ⟨-, rfl⟩ <;> decide

section Lines

variable {level : Nat} {closing : List Char}

/-- The items of an array, each on a line of its own. -/
theorem spells_items (hclosing : IsBlank closing) (item : Json) (items : List Json)
    (h : ∀ v ∈ item :: items, Spells (.value v) (renderAt level v).toList) :
    Spells (.elements (item :: items))
      ('\n' :: (indent level).toList ++ (renderAt level item).toList
        ++ (renderItems level items).toList ++ closing) := by
  induction items generalizing item with
  | nil =>
    have hlast := Spells.lastElement
      (.element (isBlank_newLine level) (h item List.mem_cons_self) hclosing)
    simpa [renderItems] using hlast
  | cons next items ih =>
    have hfirst := Spells.element (isBlank_newLine level) (h item List.mem_cons_self) isBlank_nil
    have hrest := ih next (fun v hv => h v (List.mem_cons_of_mem item hv))
    simpa [renderItems] using Spells.elements hfirst hrest

/-- A field on a line of its own. -/
theorem spells_field {after : List Char} (hafter : IsBlank after) (field : String × Json)
    (h : Spells (.value field.2) (renderAt level field.2).toList) :
    Spells (.member field)
      ('\n' :: (indent level).toList ++ (renderField level field).toList ++ after) := by
  obtain ⟨name, value⟩ := field
  have hmember := Spells.member (isBlank_newLine level) (spellsString_quoted name) isBlank_nil
    (.element isBlank_singleton h hafter)
  simp only [renderField, String.toList_append] at hmember ⊢
  simpa using hmember

/-- The fields of an object, each on a line of its own. -/
theorem spells_fields (hclosing : IsBlank closing) (field : String × Json)
    (fields : List (String × Json))
    (h : ∀ f ∈ field :: fields, Spells (.value f.2) (renderAt level f.2).toList) :
    Spells (.members (field :: fields))
      ('\n' :: (indent level).toList ++ (renderField level field).toList
        ++ (renderFields level fields).toList ++ closing) := by
  induction fields generalizing field with
  | nil =>
    have hlast := Spells.lastMember (spells_field hclosing field (h field List.mem_cons_self))
    simpa [renderFields] using hlast
  | cons next fields ih =>
    have hfirst := spells_field isBlank_nil field (h field List.mem_cons_self)
    have hrest := ih next (fun f hf => h f (List.mem_cons_of_mem field hf))
    simpa [renderFields] using Spells.members hfirst hrest

end Lines

/-- What is written of a value is a text of it. -/
theorem WellFormed.spells_renderAt {v : Json} (h : v.WellFormed) (level : Nat) :
    Spells (.value v) (renderAt level v).toList := by
  induction h generalizing level with
  | null => simpa [renderAt] using Spells.null
  | bool b =>
    cases b with
    | true => simpa [renderAt] using Spells.yes
    | false => simpa [renderAt] using Spells.no
  | number h => simpa [renderAt] using Spells.number h
  | string s => simpa [renderAt] using Spells.string (spellsString_quoted s)
  | @array items h ih =>
    cases items with
    | nil => simpa [renderAt] using Spells.emptyArray isBlank_nil
    | cons item items =>
      have hitems := spells_items (isBlank_newLine level) item items
        (fun v hv => ih v hv (level + 1))
      simpa [renderAt] using Spells.array hitems
  | @object fields h ih =>
    cases fields with
    | nil => simpa [renderAt] using Spells.emptyObject isBlank_nil
    | cons field fields =>
      have hfields := spells_fields (isBlank_newLine level) field fields
        (fun f hf => ih f hf (level + 1))
      simpa [renderAt] using Spells.object hfields

theorem WellFormed.isTextOf_render {v : Json} (h : v.WellFormed) : IsTextOf v v.render := by
  simpa [IsTextOf, render] using Spells.element isBlank_nil (h.spells_renderAt 0) isBlank_nil

end DocGate.Json

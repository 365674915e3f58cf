/-
DocGate.Proofs.Text.Encoding — the bytes of a character.

A character is encoded in one to four bytes: a byte that tells how many there are, and
behind it the digits of the character's number to the base 64. The machine that reads
bytes keeps the number that they give so far, and the bounds of the next byte.

* `Begun.IsCompletedBy` — which bytes make which character out of what has been read. It
  is followed byte by byte to the last one.
* `Begun.IsOpen` — the side condition on what has been read: the bounds are those of
  bytes inside a character, and every number that it may still come to is the number of
  a character.
* `Lead.utf8EncodeChar_eq_cons_iff` — the machine starts right: behind a first byte,
  what completes the begun character is the encoding of a character. The bounds of the
  second byte keep out the forms that are longer than they need be, the surrogates, and
  the numbers out of range.
-/
import Mathlib.Algebra.Ring.Nat
import Mathlib.Data.List.Basic
import DocGate.Text.Utf8

namespace DocGate.Utf8

/-! ## The bytes of a character -/

/-- What goes on in a character with the number `n`: its last `more + 1` digits to the base 64,
each in a byte of its own. -/
def continuation : Nat → Nat → List Nat
  | 0, n => [0x80 + n % 64]
  | more + 1, n => (0x80 + n / 64 ^ (more + 1) % 64) :: continuation more n

/-- The number of a character is no surrogate and in range. -/
theorem toNat_cases (c : Char) :
    c.toNat < 0xD800 ∨ 0xDFFF < c.toNat ∧ c.toNat < 0x110000 := c.valid

theorem toNat_ofNat {n : Nat} (h : n.isValidChar) : (Char.ofNat n).toNat = n := by
  rw [Char.ofNat, dif_pos h]
  rfl

theorem map_toNat_utf8EncodeChar (c : Char) :
    (String.utf8EncodeChar c).map UInt8.toNat =
      if c.toNat < 0x80 then [c.toNat]
      else if c.toNat < 0x800 then (0xC0 + c.toNat / 64) :: continuation 0 c.toNat
      else if c.toNat < 0x10000 then (0xE0 + c.toNat / 64 ^ 2) :: continuation 1 c.toNat
      else (0xF0 + c.toNat / 64 ^ 3) :: continuation 2 c.toNat := by
  have hvalid := toNat_cases c
  have hval : c.val.toNat = c.toNat := rfl
  simp only [String.utf8EncodeChar, hval, continuation]
  split
  · rw [if_pos (by omega)]
    simp
    omega
  split
  · rw [if_neg (by omega), if_pos (by omega)]
    simp
    omega
  split
  · rw [if_neg (by omega), if_neg (by omega), if_pos (by omega)]
    simp
    omega
  · rw [if_neg (by omega), if_neg (by omega), if_neg (by omega)]
    simp
    omega

theorem utf8EncodeChar_eq_iff (c : Char) (bs : List UInt8) :
    String.utf8EncodeChar c = bs ↔
      (String.utf8EncodeChar c).map UInt8.toNat = bs.map UInt8.toNat :=
  (List.map_injective_iff.mpr fun _ _ => UInt8.toNat_inj.mp).eq_iff.symm

/-! ## Characters of which some bytes have been read -/

namespace Begun

/-- The numbers of the characters that may be completed: without the digits that follow the next
one, they are the value with one more digit, for which the next byte stands. -/
def Spans (p : Begun) (n : Nat) : Prop :=
  n / 64 ^ p.more / 64 = p.value ∧
    p.low.toNat ≤ 0x80 + n / 64 ^ p.more % 64 ∧ 0x80 + n / 64 ^ p.more % 64 ≤ p.high.toNat

/-- The bytes that are still to come make the begun character `c`. -/
structure IsCompletedBy (p : Begun) (bs : List UInt8) (c : Char) : Prop where
  bytes : bs.map UInt8.toNat = continuation p.more c.toNat
  spans : p.Spans c.toNat

/-- The next byte may be chosen so that it goes on in a character, and all bytes that may come
make a character. -/
structure IsOpen (p : Begun) : Prop where
  le_low : 0x80 ≤ p.low.toNat
  low_le_high : p.low.toNat ≤ p.high.toNat
  high_le : p.high.toNat ≤ 0xBF
  valid : ∀ n, p.Spans n → n.isValidChar

/-- The begun character can go on with the byte. -/
def Takes (p : Begun) (b : UInt8) : Prop := p.low.toNat ≤ b.toNat ∧ b.toNat ≤ p.high.toNat

/-- The character of which one more byte has been read. -/
def next (p : Begun) (b : UInt8) (more : Nat) : Begun :=
  ⟨p.value * 64 + (b.toNat - 0x80), 0x80, 0xBF, more⟩

variable {p : Begun} {b : UInt8} {bs : List UInt8} {c : Char} {more n : Nat}

theorem spans_next_iff_div :
    (p.next b more).Spans n ↔ n / 64 ^ more / 64 = p.value * 64 + (b.toNat - 0x80) := by
  have hlow : (p.next b more).low.toNat = 0x80 := rfl
  have hhigh : (p.next b more).high.toNat = 0xBF := rfl
  have hmore : (p.next b more).more = more := rfl
  have hvalue : (p.next b more).value = p.value * 64 + (b.toNat - 0x80) := rfl
  rw [Spans, hlow, hhigh, hmore, hvalue]
  omega

theorem IsOpen.spans_next_iff (hp : p.IsOpen) (hmore : p.more = more + 1) (hb : p.Takes b) :
    (p.next b more).Spans n ↔ p.Spans n ∧ b.toNat = 0x80 + n / 64 ^ p.more % 64 := by
  obtain ⟨hle, -, hle', -⟩ := hp
  obtain ⟨hlow, hhigh⟩ := hb
  have hpow : n / 64 ^ p.more = n / 64 ^ more / 64 := by
    rw [hmore, Nat.pow_succ, ← Nat.div_div_eq_div_mul]
  rw [spans_next_iff_div, Spans, hpow]
  omega

theorem IsOpen.next (hp : p.IsOpen) (hmore : p.more = more + 1) (hb : p.Takes b) :
    (p.next b more).IsOpen where
  le_low := Nat.le_refl 0x80
  low_le_high := by
    show 0x80 ≤ 0xBF
    decide
  high_le := Nat.le_refl 0xBF
  valid n hn := hp.valid n ((hp.spans_next_iff hmore hb).mp hn).1

theorem not_isCompletedBy_nil : ¬ p.IsCompletedBy [] c := by
  rintro ⟨hbytes, -⟩
  cases hmore : p.more <;> simp [hmore, continuation] at hbytes

theorem IsOpen.isCompletedBy_cons_of_more (hp : p.IsOpen) (hmore : p.more = more + 1) :
    p.IsCompletedBy (b :: bs) c ↔ p.Takes b ∧ (p.next b more).IsCompletedBy bs c := by
  constructor
  · rintro ⟨hbytes, hspans⟩
    rw [hmore, continuation, List.map_cons, List.cons.injEq] at hbytes
    obtain ⟨hb, hbs⟩ := hbytes
    have htakes : p.Takes b := by
      rw [Takes, hb, ← hmore]
      exact hspans.2
    rw [← hmore] at hb
    exact ⟨htakes, hbs, (hp.spans_next_iff hmore htakes).mpr ⟨hspans, hb⟩⟩
  · rintro ⟨htakes, hbytes, hspans⟩
    obtain ⟨hspans, hb⟩ := (hp.spans_next_iff hmore htakes).mp hspans
    refine ⟨?_, hspans⟩
    rw [hmore] at hb ⊢
    rw [continuation, List.map_cons, hbytes, hb]
    rfl

theorem IsOpen.isCompletedBy_cons_of_last (hp : p.IsOpen) (hmore : p.more = 0) :
    p.IsCompletedBy (b :: bs) c ↔
      p.Takes b ∧ bs = [] ∧ c = Char.ofNat (p.value * 64 + (b.toNat - 0x80)) := by
  obtain ⟨hle, -, hle', hvalid⟩ := hp
  have hspans (n : Nat) : p.Spans n ↔ n / 64 = p.value ∧ p.low.toNat ≤ 0x80 + n % 64 ∧
      0x80 + n % 64 ≤ p.high.toNat := by
    rw [Spans, hmore, Nat.pow_zero, Nat.div_one]
  constructor
  · rintro ⟨hbytes, hc⟩
    simp only [hmore, continuation, List.map_cons, List.cons.injEq, List.map_eq_nil_iff] at hbytes
    obtain ⟨hb, hbs⟩ := hbytes
    rw [hspans] at hc
    have hvalue : p.value * 64 + (b.toNat - 0x80) = c.toNat := by omega
    refine ⟨⟨by omega, by omega⟩, hbs, ?_⟩
    rw [hvalue, Char.ofNat_toNat]
  · rintro ⟨⟨hlow, hhigh⟩, hbs, hc⟩
    have hn : p.Spans (p.value * 64 + (b.toNat - 0x80)) := by
      rw [hspans]
      omega
    have hnat : c.toNat = p.value * 64 + (b.toNat - 0x80) := by
      rw [hc, toNat_ofNat (hvalid _ hn)]
    rw [← hnat] at hn
    refine ⟨?_, hn⟩
    rw [hbs, hmore, continuation, List.map_cons, List.map_nil, hnat]
    rw [List.cons.injEq]
    exact ⟨by omega, rfl⟩

theorem IsOpen.takes_of_isCompletedBy (hp : p.IsOpen) (h : p.IsCompletedBy (b :: bs) c) :
    p.Takes b := by
  cases hmore : p.more with
  | zero => exact ((hp.isCompletedBy_cons_of_last hmore).mp h).1
  | succ more => exact ((hp.isCompletedBy_cons_of_more hmore).mp h).1

/-- A begun character that takes some byte is completed by some bytes. -/
theorem IsOpen.exists_isCompletedBy (hp : p.IsOpen) : ∃ bs c, p.IsCompletedBy bs c := by
  have htakes {p : Begun} (hp : p.IsOpen) : p.Takes p.low :=
    ⟨Nat.le_refl _, hp.low_le_high⟩
  induction hmore : p.more generalizing p with
  | zero =>
    exact ⟨[p.low], _, (hp.isCompletedBy_cons_of_last hmore).mpr ⟨htakes hp, rfl, rfl⟩⟩
  | succ more ih =>
    obtain ⟨bs, c, h⟩ := ih (hp.next hmore (htakes hp)) rfl
    exact ⟨p.low :: bs, c, (hp.isCompletedBy_cons_of_more hmore).mpr ⟨htakes hp, h⟩⟩

end Begun

/-! ## First bytes -/

namespace Lead

variable {b : UInt8} {c : Char} {p : Begun} {bs : List UInt8}

theorem ofByte_eq_whole (h : ofByte b = .whole c) : b.toNat < 0x80 ∧ c = Char.ofNat b.toNat := by
  revert h
  fun_cases ofByte b <;> grind

theorem ofByte_eq_illFormed (h : ofByte b = .illFormed) :
    (0x80 ≤ b.toNat ∧ b.toNat < 0xC2) ∨ 0xF5 ≤ b.toNat := by
  revert h
  fun_cases ofByte b <;> grind

theorem ofByte_eq_begins (h : ofByte b = .begins p) :
    (p.more = 0 ∧ 0xC2 ≤ b.toNat ∧ b.toNat < 0xE0 ∧ p.value = b.toNat - 0xC0 ∧
      p.low.toNat = 0x80 ∧ p.high.toNat = 0xBF) ∨
    (p.more = 1 ∧ 0xE0 ≤ b.toNat ∧ b.toNat < 0xF0 ∧ p.value = b.toNat - 0xE0 ∧
      (b.toNat = 0xE0 ∧ p.low.toNat = 0xA0 ∨ b.toNat ≠ 0xE0 ∧ p.low.toNat = 0x80) ∧
      (b.toNat = 0xED ∧ p.high.toNat = 0x9F ∨ b.toNat ≠ 0xED ∧ p.high.toNat = 0xBF)) ∨
    (p.more = 2 ∧ 0xF0 ≤ b.toNat ∧ b.toNat < 0xF5 ∧ p.value = b.toNat - 0xF0 ∧
      (b.toNat = 0xF0 ∧ p.low.toNat = 0x90 ∨ b.toNat ≠ 0xF0 ∧ p.low.toNat = 0x80) ∧
      (b.toNat = 0xF4 ∧ p.high.toNat = 0x8F ∨ b.toNat ≠ 0xF4 ∧ p.high.toNat = 0xBF)) := by
  revert h
  fun_cases ofByte b <;> intro h <;> simp only [reduceCtorEq, begins.injEq] at h <;> subst h <;>
    simp <;> omega

theorem isOpen_of_begins (h : ofByte b = .begins p) : p.IsOpen := by
  rcases ofByte_eq_begins h with ⟨hmore, h⟩ | ⟨hmore, h⟩ | ⟨hmore, h⟩
  · refine ⟨by omega, by omega, by omega, fun n hn => ?_⟩
    rw [Begun.Spans, hmore] at hn
    simp only [Nat.isValidChar]
    omega
  · refine ⟨by omega, by omega, by omega, fun n hn => ?_⟩
    rw [Begun.Spans, hmore] at hn
    simp only [Nat.isValidChar]
    omega
  · refine ⟨by omega, by omega, by omega, fun n hn => ?_⟩
    rw [Begun.Spans, hmore] at hn
    simp only [Nat.isValidChar]
    omega

theorem utf8EncodeChar_eq_cons_iff (h : ofByte b = .begins p) :
    String.utf8EncodeChar c = b :: bs ↔ p.IsCompletedBy bs c := by
  have hvalid := toNat_cases c
  have hb := b.toNat_lt
  rw [utf8EncodeChar_eq_iff, map_toNat_utf8EncodeChar, List.map_cons]
  rcases ofByte_eq_begins h with ⟨hmore, h⟩ | ⟨hmore, h⟩ | ⟨hmore, h⟩
  · constructor
    · intro he
      split at he
      · rw [List.cons.injEq] at he; omega
      split at he
      · rw [List.cons.injEq] at he
        refine ⟨by rw [hmore, he.2], ?_⟩
        rw [Begun.Spans, hmore]
        omega
      split at he <;> (rw [List.cons.injEq] at he; omega)
    · rintro ⟨hbytes, hspans⟩
      rw [Begun.Spans, hmore] at hspans
      rw [hbytes, hmore, if_neg (by omega), if_pos (by omega)]
      congr 1
      omega
  · constructor
    · intro he
      split at he
      · rw [List.cons.injEq] at he; omega
      split at he
      · rw [List.cons.injEq] at he; omega
      split at he
      · rw [List.cons.injEq] at he
        refine ⟨by rw [hmore, he.2], ?_⟩
        rw [Begun.Spans, hmore]
        omega
      · rw [List.cons.injEq] at he; omega
    · rintro ⟨hbytes, hspans⟩
      rw [Begun.Spans, hmore] at hspans
      rw [hbytes, hmore, if_neg (by omega), if_neg (by omega), if_pos (by omega)]
      congr 1
      omega
  · constructor
    · intro he
      split at he
      · rw [List.cons.injEq] at he; omega
      split at he
      · rw [List.cons.injEq] at he; omega
      split at he
      · rw [List.cons.injEq] at he; omega
      · rw [List.cons.injEq] at he
        refine ⟨by rw [hmore, he.2], ?_⟩
        rw [Begun.Spans, hmore]
        omega
    · rintro ⟨hbytes, hspans⟩
      rw [Begun.Spans, hmore] at hspans
      rw [hbytes, hmore, if_neg (by omega), if_neg (by omega), if_neg (by omega)]
      congr 1
      omega

/-- Every character starts with a byte that may start one. -/
theorem ofByte_ne_illFormed (h : String.utf8EncodeChar c = b :: bs) : ofByte b ≠ .illFormed := by
  intro hill
  have hvalid := toNat_cases c
  have hb := ofByte_eq_illFormed hill
  rw [utf8EncodeChar_eq_iff, map_toNat_utf8EncodeChar, List.map_cons] at h
  split at h
  · rw [List.cons.injEq] at h
    omega
  split at h
  · rw [List.cons.injEq] at h
    omega
  split at h <;> rw [List.cons.injEq] at h <;> omega

end Lead

theorem utf8EncodeChar_of_ascii {b : UInt8} (hb : b.toNat < 0x80) :
    String.utf8EncodeChar (Char.ofNat b.toNat) = [b] := by
  have hnat : (Char.ofNat b.toNat).toNat = b.toNat := toNat_ofNat (.inl (by omega))
  rw [utf8EncodeChar_eq_iff, map_toNat_utf8EncodeChar, hnat, if_pos hb]
  rfl

/-! ## Encodings -/

/-- The bytes of a character of another block are none of the first. -/
theorem le_of_mem_utf8EncodeChar {c : Char} (hc : 0x80 ≤ c.toNat) {b : UInt8}
    (hb : b ∈ String.utf8EncodeChar c) : 0x80 ≤ b.toNat := by
  have hmem := List.mem_map_of_mem (f := UInt8.toNat) hb
  rw [map_toNat_utf8EncodeChar, if_neg (by omega)] at hmem
  simp only [continuation] at hmem
  split at hmem
  · simp only [List.mem_cons, List.not_mem_nil, or_false] at hmem
    omega
  split at hmem <;> simp only [List.mem_cons, List.not_mem_nil, or_false] at hmem <;> omega

/-- A character that has a byte of the first block consists of it. -/
theorem utf8EncodeChar_eq_singleton_of_mem {c : Char} {b : UInt8} (hb : b.toNat < 0x80)
    (hmem : b ∈ String.utf8EncodeChar c) : String.utf8EncodeChar c = [b] := by
  have hc : c.toNat < 0x80 := by
    by_contra hc
    have hle := le_of_mem_utf8EncodeChar (Nat.le_of_not_lt hc) hmem
    omega
  have hbytes := map_toNat_utf8EncodeChar c
  rw [if_pos hc, List.map_eq_cons_iff] at hbytes
  obtain ⟨b', rest, heq, hb', hrest⟩ := hbytes
  rw [List.map_eq_nil_iff.mp hrest] at heq
  rw [heq, List.mem_singleton] at hmem
  rw [heq, hmem]

/-- No character begins as another one. -/
theorem eq_of_utf8EncodeChar_append {c d : Char} {xs ys : List UInt8}
    (h : String.utf8EncodeChar c ++ xs = String.utf8EncodeChar d ++ ys) : c = d ∧ xs = ys := by
  have hfirst (e : Char) (zs : List UInt8) :
      (String.utf8EncodeChar e ++ zs).toByteArray.utf8DecodeChar? 0 = some e := by
    rw [List.toByteArray_append]
    exact ByteArray.utf8DecodeChar?_utf8EncodeChar_append
  have hc := hfirst c xs
  rw [h, hfirst d ys] at hc
  cases hc
  exact ⟨rfl, List.append_cancel_left h⟩

theorem encode_ofList (cs : List Char) :
    encode (String.ofList cs) = cs.flatMap String.utf8EncodeChar := by
  rw [encode, String.toUTF8_eq_toByteArray, String.toByteArray_ofList, List.utf8Encode,
    List.data_toByteArray]

end DocGate.Utf8

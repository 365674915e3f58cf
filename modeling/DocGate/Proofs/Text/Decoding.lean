/-
DocGate.Proofs.Text.Decoding — what decoded bytes are.

* `Decodes` — says without a machine what a text is to its bytes: the bytes are cut into
  the characters that stand in them and, where none does, into maximal subparts of
  ill-formed sequences, which the Unicode standard tells to replace by one character
  each.
* `Decodes.unique`, `decodes_pieces` — there is one way to do so, and it is what the
  machine finds, for all bytes.
* `HasBegun` — the invariant. Of the bytes `sub` that have been read of a character the
  machine keeps only a number and bounds. What it keeps tells of every sequence of bytes
  whether it makes a character behind `sub`, and of which one.
* `decode_encode` — the bytes of a text are decoded to the text.
-/
import Mathlib.Data.List.Infix
import DocGate.Proofs.Text.Encoding

namespace DocGate.Utf8

/-! ## What decoding means -/

/-- What two lists begin with together ends in the first one, or goes on in the second. -/
theorem prefix_or_exists_of_prefix_append {α : Type} {xs ys zs : List α} (h : xs <+: ys ++ zs) :
    xs <+: ys ∨ ∃ ws, ws ≠ [] ∧ ws <+: zs ∧ xs = ys ++ ws := by
  rcases List.prefix_or_prefix_of_prefix h (List.prefix_append ys zs) with hxs | ⟨ws, rfl⟩
  · exact .inl hxs
  · by_cases hws : ws = []
    · exact .inl (by rw [hws, List.append_nil])
    · exact .inr ⟨ws, hws, (List.prefix_append_right_inj ys).mp h, rfl⟩

/-- A character stands in front of the bytes. -/
def HoldsCharacter (bytes : List UInt8) : Prop := ∃ c, String.utf8EncodeChar c <+: bytes

/-- The bytes are the first ones of a character, if not all. -/
def StartsCharacter (bytes : List UInt8) : Prop := ∃ c, bytes <+: String.utf8EncodeChar c

/-- A maximal subpart of an ill-formed sequence, where no character stands in front of the bytes:
of what the bytes begin with, the longest stretch that is either the start of a character or one
byte. -/
structure IsMaximalSubpart (sub bytes : List UInt8) : Prop where
  ne_nil : sub ≠ []
  isPrefix : sub <+: bytes
  unconvertible : ¬ HoldsCharacter bytes
  candidate : StartsCharacter sub ∨ sub.length = 1
  maximal : ∀ other, other <+: bytes → (StartsCharacter other ∨ other.length = 1) →
    other.length ≤ sub.length

/-- The bytes are the characters and the maximal subparts of ill-formed sequences that the pieces
tell, one after the other. -/
inductive Decodes : List UInt8 → List Piece → Prop
  | nil : Decodes [] []
  | character (c : Char) {bytes : List UInt8} {ps : List Piece} (rest : Decodes bytes ps) :
      Decodes (String.utf8EncodeChar c ++ bytes) (some c :: ps)
  | illFormed {sub bytes : List UInt8} {ps : List Piece}
      (hsub : IsMaximalSubpart sub (sub ++ bytes)) (rest : Decodes bytes ps) :
      Decodes (sub ++ bytes) (none :: ps)

/-! ## The reading of bytes -/

/-- The bytes `sub` of a character have been read. -/
structure HasBegun (p : Begun) (sub : List UInt8) : Prop where
  ne_nil : sub ≠ []
  isOpen : p.IsOpen
  incomplete : ¬ HoldsCharacter sub
  completed : ∀ c bs, String.utf8EncodeChar c = sub ++ bs ↔ p.IsCompletedBy bs c

namespace HasBegun

variable {p : Begun} {b : UInt8} {sub bs : List UInt8} {more : Nat}

theorem lead (h : Lead.ofByte b = .begins p) : HasBegun p [b] where
  ne_nil := List.cons_ne_nil b []
  isOpen := Lead.isOpen_of_begins h
  incomplete := by
    rintro ⟨c, hc⟩
    rcases List.prefix_cons_iff.mp hc with hc | ⟨_, hc, hnil⟩
    · exact String.utf8EncodeChar_ne_nil hc
    · rw [List.prefix_nil.mp hnil] at hc
      exact Begun.not_isCompletedBy_nil ((Lead.utf8EncodeChar_eq_cons_iff h).mp hc)
  completed _ _ := Lead.utf8EncodeChar_eq_cons_iff h

/-- With one more byte that does not end the character, more of it has been read. -/
theorem next (h : HasBegun p sub) (hmore : p.more = more + 1) (hb : p.Takes b) :
    HasBegun (p.next b more) (sub ++ [b]) := by
  have hcompleted (c : Char) (bs : List UInt8) :
      String.utf8EncodeChar c = sub ++ [b] ++ bs ↔ (p.next b more).IsCompletedBy bs c := by
    rw [List.append_assoc, List.singleton_append, h.completed,
      h.isOpen.isCompletedBy_cons_of_more hmore]
    exact and_iff_right hb
  refine ⟨by simp, h.isOpen.next hmore hb, ?_, hcompleted⟩
  rintro ⟨c, hc⟩
  rcases List.prefix_concat_iff.mp hc with hc | hc
  · rw [← List.append_nil (sub ++ [b]), hcompleted] at hc
    exact Begun.not_isCompletedBy_nil hc
  · exact h.incomplete ⟨c, hc⟩

/-- The last byte makes the character. -/
theorem utf8EncodeChar_eq (h : HasBegun p sub) (hmore : p.more = 0) (hb : p.Takes b) :
    String.utf8EncodeChar (Char.ofNat (p.value * 64 + (b.toNat - 0x80))) = sub ++ [b] :=
  (h.completed _ _).mpr ((h.isOpen.isCompletedBy_cons_of_last hmore).mpr ⟨hb, rfl, rfl⟩)

/-- What has been read of a character is not continued by a byte that it does not take. -/
theorem eq_nil_of_prefix (h : HasBegun p sub) (hbs : ∀ b ∈ bs.head?, ¬ p.Takes b)
    {other : List UInt8} {c : Char} (hother : other <+: bs)
    (hc : sub ++ other <+: String.utf8EncodeChar c) : other = [] := by
  obtain ⟨rest, hrest⟩ := hc
  rw [List.append_assoc, eq_comm, h.completed] at hrest
  cases other with
  | nil => rfl
  | cons b other =>
    obtain ⟨tail, rfl⟩ := hother
    exact absurd (h.isOpen.takes_of_isCompletedBy hrest) (hbs b rfl)

/-- What has been read of a character is an ill-formed piece if the next byte, should there be
one, does not go on in it. -/
theorem isMaximalSubpart (h : HasBegun p sub) (hbs : ∀ b ∈ bs.head?, ¬ p.Takes b) :
    IsMaximalSubpart sub (sub ++ bs) where
  ne_nil := h.ne_nil
  isPrefix := List.prefix_append sub bs
  unconvertible := by
    rintro ⟨c, hc⟩
    rcases prefix_or_exists_of_prefix_append hc with hc | ⟨other, hne, hother, hc⟩
    · exact h.incomplete ⟨c, hc⟩
    · exact hne (h.eq_nil_of_prefix hbs hother ⟨[], by rw [hc, List.append_nil]⟩)
  candidate := by
    obtain ⟨bs, c, hc⟩ := h.isOpen.exists_isCompletedBy
    exact .inl ⟨c, bs, ((h.completed c bs).mpr hc).symm⟩
  maximal other hother hcandidate := by
    rcases prefix_or_exists_of_prefix_append hother with hother | ⟨other, hne, hrest, rfl⟩
    · exact hother.length_le
    · rcases hcandidate with ⟨c, hc⟩ | hlength
      · exact absurd (h.eq_nil_of_prefix hbs hrest hc) hne
      · have hsub := List.length_pos_of_ne_nil h.ne_nil
        have hpos := List.length_pos_of_ne_nil hne
        rw [List.length_append] at hlength
        omega

end HasBegun

theorem isMaximalSubpart_of_illFormed {b : UInt8} (h : Lead.ofByte b = .illFormed)
    (bs : List UInt8) : IsMaximalSubpart [b] (b :: bs) where
  ne_nil := List.cons_ne_nil b []
  isPrefix := List.prefix_append [b] bs
  unconvertible := by
    rintro ⟨c, hc⟩
    rcases List.prefix_cons_iff.mp hc with hc | ⟨rest, hc, -⟩
    · exact String.utf8EncodeChar_ne_nil hc
    · exact Lead.ofByte_ne_illFormed hc h
  candidate := .inr rfl
  maximal other hother hcandidate := by
    rcases List.prefix_cons_iff.mp hother with rfl | ⟨rest, rfl, -⟩
    · exact Nat.zero_le _
    · rcases hcandidate with ⟨c, tail, hc⟩ | hlength
      · exact absurd h (Lead.ofByte_ne_illFormed hc.symm)
      · exact Nat.le_of_eq hlength

/-- The bytes `sub` are all that has been read of a character, if one is begun. -/
def Holding : Option Begun → List UInt8 → Prop
  | none, sub => sub = []
  | some p, sub => HasBegun p sub

/-- One step at the start of a character: what it finds comes before whatever the bytes behind it
are decoded to. -/
theorem exists_readLead_eq (read : List Piece) (b : UInt8) :
    ∃ found sub, (readLead read b).1 = found.reverse ++ read ∧
      Holding (readLead read b).2 sub ∧
      ∀ bs ps, Decodes (sub ++ bs) ps → Decodes (b :: bs) (found ++ ps) := by
  rw [readLead]
  cases hb : Lead.ofByte b with
  | whole c =>
    obtain ⟨hascii, rfl⟩ := Lead.ofByte_eq_whole hb
    refine ⟨[some (Char.ofNat b.toNat)], [], rfl, rfl, fun bs ps h => ?_⟩
    have hcharacter := h.character (Char.ofNat b.toNat)
    rwa [utf8EncodeChar_of_ascii hascii] at hcharacter
  | begins p => exact ⟨[], [b], rfl, .lead hb, fun bs ps h => h⟩
  | illFormed =>
    exact ⟨[none], [], rfl, rfl, fun bs ps h =>
      .illFormed (isMaximalSubpart_of_illFormed hb bs) h⟩

/-- One step in a character. -/
theorem HasBegun.exists_readNext_eq {p : Begun} {sub : List UInt8} (h : HasBegun p sub)
    (read : List Piece) (b : UInt8) :
    ∃ found sub', (readNext read p b).1 = found.reverse ++ read ∧
      Holding (readNext read p b).2 sub' ∧
      ∀ bs ps, Decodes (sub' ++ bs) ps → Decodes (sub ++ b :: bs) (found ++ ps) := by
  simp only [readNext, Bool.and_eq_true, decide_eq_true_eq, UInt8.le_iff_toNat_le]
  split
  · rename_i htakes
    split
    · rename_i hmore
      have hc := h.utf8EncodeChar_eq hmore htakes
      refine ⟨[some (Char.ofNat (p.value * 64 + (b.toNat - 0x80)))], [], rfl, rfl,
        fun bs ps hbs => ?_⟩
      have hcharacter := hbs.character (Char.ofNat (p.value * 64 + (b.toNat - 0x80)))
      rwa [hc, List.append_assoc, List.singleton_append] at hcharacter
    · rename_i more hmore
      refine ⟨[], sub ++ [b], rfl, h.next hmore htakes, fun bs ps hbs => ?_⟩
      rwa [List.append_assoc, List.singleton_append] at hbs
  · -- The byte does not go on in the character, so what has been read of it is ill-formed.
    rename_i htakes
    obtain ⟨found, sub', hread, hholding, hdecodes⟩ := exists_readLead_eq (none :: read) b
    refine ⟨none :: found, sub', by rw [hread, List.reverse_cons, List.append_assoc]; rfl,
      hholding, fun bs ps hbs => .illFormed (h.isMaximalSubpart ?_) (hdecodes bs ps hbs)⟩
    rintro _ ⟨⟩
    exact htakes

/-- Behind some pieces, the machine finds the pieces of the bytes that are still to come. -/
theorem exists_piecesOnto_eq (bytes : List UInt8) {begun : Option Begun} {sub : List UInt8}
    (h : Holding begun sub) (read : List Piece) :
    ∃ ps, piecesOnto read begun bytes = read.reverse ++ ps ∧ Decodes (sub ++ bytes) ps := by
  induction bytes generalizing read begun sub with
  | nil =>
    cases begun with
    | none =>
      cases h
      exact ⟨[], by simp [piecesOnto], .nil⟩
    | some p =>
      have hsub : HasBegun p sub := h
      exact ⟨[none], by simp [piecesOnto], .illFormed (hsub.isMaximalSubpart (by simp)) .nil⟩
  | cons b bs ih =>
    obtain ⟨found, sub', hread, hholding, hdecodes⟩ : ∃ found sub',
        (readByte read begun b).1 = found.reverse ++ read ∧
        Holding (readByte read begun b).2 sub' ∧
        ∀ bs ps, Decodes (sub' ++ bs) ps → Decodes (sub ++ b :: bs) (found ++ ps) := by
      cases begun with
      | none =>
        cases h
        exact exists_readLead_eq read b
      | some p => exact HasBegun.exists_readNext_eq h read b
    obtain ⟨ps, hps, hbs⟩ := ih hholding (readByte read begun b).1
    refine ⟨found ++ ps, ?_, hdecodes bs ps hbs⟩
    show piecesOnto (readByte read begun b).1 (readByte read begun b).2 bs = _
    rw [hps, hread, List.reverse_append, List.reverse_reverse, List.append_assoc]

theorem decodes_pieces (bytes : List UInt8) : Decodes bytes (pieces bytes) := by
  have hnone : Holding none [] := rfl
  obtain ⟨ps, hps, hdecodes⟩ := exists_piecesOnto_eq bytes hnone []
  rw [List.reverse_nil, List.nil_append] at hps
  rw [pieces, hps]
  exact hdecodes

/-! ## One way to decode -/

/-- There is one maximal subpart in front of the bytes. -/
theorem IsMaximalSubpart.unique {sub sub' bytes : List UInt8} (h : IsMaximalSubpart sub bytes)
    (h' : IsMaximalSubpart sub' bytes) : sub = sub' := by
  have hle := h'.maximal sub h.isPrefix h.candidate
  have hle' := h.maximal sub' h'.isPrefix h'.candidate
  exact (List.prefix_of_prefix_length_le h.isPrefix h'.isPrefix hle).eq_of_length_le hle'

/-- The ways in which bytes are decoded, with the bytes as a variable. -/
theorem decodes_cases {bytes : List UInt8} {ps : List Piece} (h : Decodes bytes ps) :
    (bytes = [] ∧ ps = []) ∨
    (∃ c rest qs, bytes = String.utf8EncodeChar c ++ rest ∧ ps = some c :: qs ∧
      Decodes rest qs) ∨
    (∃ sub rest qs, bytes = sub ++ rest ∧ IsMaximalSubpart sub bytes ∧ ps = none :: qs ∧
      Decodes rest qs) := by
  cases h with
  | nil => exact .inl ⟨rfl, rfl⟩
  | character c rest => exact .inr (.inl ⟨c, _, _, rfl, rfl, rest⟩)
  | illFormed hsub rest => exact .inr (.inr ⟨_, _, _, rfl, hsub, rfl, rest⟩)

/-- There is one way to decode some bytes. -/
theorem Decodes.unique {bytes : List UInt8} {ps qs : List Piece} (h : Decodes bytes ps)
    (h' : Decodes bytes qs) : ps = qs := by
  induction h generalizing qs with
  | nil =>
    rcases decodes_cases h' with ⟨-, rfl⟩ | ⟨c, rest, _, hnil, -⟩ |
      ⟨sub, rest, _, hnil, hsub, -⟩
    · rfl
    · exact absurd (List.append_eq_nil_iff.mp hnil.symm).1 String.utf8EncodeChar_ne_nil
    · exact absurd (List.append_eq_nil_iff.mp hnil.symm).1 hsub.ne_nil
  | character c rest ih =>
    rcases decodes_cases h' with ⟨hnil, -⟩ | ⟨d, rest', _, heq, rfl, h'⟩ |
      ⟨sub, _, _, _, hsub, -⟩
    · exact absurd (List.append_eq_nil_iff.mp hnil).1 String.utf8EncodeChar_ne_nil
    · obtain ⟨rfl, rfl⟩ := eq_of_utf8EncodeChar_append heq
      rw [ih h']
    · exact absurd ⟨c, List.prefix_append _ _⟩ hsub.unconvertible
  | illFormed hsub rest ih =>
    rcases decodes_cases h' with ⟨hnil, -⟩ | ⟨d, rest', _, heq, -⟩ |
      ⟨sub, rest', _, heq, hsub', rfl, h'⟩
    · exact absurd (List.append_eq_nil_iff.mp hnil).1 hsub.ne_nil
    · exact absurd ⟨d, rest', heq.symm⟩ hsub.unconvertible
    · obtain rfl := hsub.unique hsub'
      obtain rfl := List.append_cancel_left heq
      rw [ih h']

theorem decodes_iff {bytes : List UInt8} {ps : List Piece} :
    Decodes bytes ps ↔ ps = pieces bytes :=
  ⟨fun h => h.unique (decodes_pieces bytes), fun h => h ▸ decodes_pieces bytes⟩

/-! ## Valid bytes -/

theorem decodes_flatMap (cs : List Char) :
    Decodes (cs.flatMap String.utf8EncodeChar) (cs.map some) := by
  induction cs with
  | nil => exact .nil
  | cons c cs ih => exact ih.character c

/-- Bytes that are a text are decoded to that text. -/
theorem decode_encode (text : String) : decode (encode text) = text := by
  have hpieces : pieces (encode text) = text.toList.map some := by
    have hdecodes := decodes_flatMap text.toList
    rw [← encode_ofList, String.ofList_toList] at hdecodes
    exact (decodes_iff.mp hdecodes).symm
  rw [decode, hpieces, List.map_map]
  exact (congrArg String.ofList (List.map_id _)).trans String.ofList_toList

end DocGate.Utf8

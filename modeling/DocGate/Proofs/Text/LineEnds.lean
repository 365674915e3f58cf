/-
DocGate.Proofs.Text.LineEnds — line ends of decoded bytes.

No byte of the first block lies in an ill-formed piece or in a character of another
block.

* `pieces_append_cons` — so such a byte is decoded by itself and cuts the bytes in two
  parts that are decoded each by itself, whatever ill-formed sequence it cuts short.
* `asciiOf_decode` — the text has the same characters of the first block as the bytes.
* `splitOn_decode` — bytes may be split at their line feeds before they are decoded or
  after it.

All of this holds for all bytes, be they a text or not.
-/
import Mathlib.Data.List.Count
import DocGate.Proofs.Text.Decoding
import DocGate.Proofs.Text.Rows

namespace DocGate.Utf8

/-! ## A byte of the first block -/

namespace IsMaximalSubpart

variable {sub bytes : List UInt8} {b : UInt8}

/-- No byte of an ill-formed piece is in the first block. -/
theorem le_of_mem (h : IsMaximalSubpart sub bytes) (hb : b ∈ sub) : 0x80 ≤ b.toNat := by
  by_contra hlt
  have hascii : b.toNat < 0x80 := Nat.lt_of_not_le hlt
  refine h.unconvertible ⟨Char.ofNat b.toNat, ?_⟩
  rw [utf8EncodeChar_of_ascii hascii]
  refine List.IsPrefix.trans ?_ h.isPrefix
  rcases h.candidate with ⟨c, hc⟩ | hlength
  · rw [utf8EncodeChar_eq_singleton_of_mem hascii (hc.subset hb)] at hc
    rcases List.prefix_cons_iff.mp hc with hnil | ⟨rest, heq, -⟩
    · exact absurd hnil h.ne_nil
    · rw [heq]
      exact List.prefix_append [b] rest
  · obtain ⟨b', rfl⟩ := List.length_eq_one_iff.mp hlength
    rw [List.mem_singleton.mp hb]

/-- What is an ill-formed piece stays one before a byte of the first block. -/
theorem append_cons (h : IsMaximalSubpart sub bytes) (hb : b.toNat < 0x80) (behind : List UInt8) :
    IsMaximalSubpart sub (bytes ++ b :: behind) := by
  -- Only the byte itself is a character behind `bytes` and starts one, and it does so alone.
  have hpos : 0 < bytes.length :=
    Nat.lt_of_lt_of_le (List.length_pos_of_ne_nil h.ne_nil) h.isPrefix.length_le
  have hlong {other : List UInt8} (hother : other <+: bytes ++ b :: behind)
      (hnot : ¬ other <+: bytes) {c : Char} (hc : other <+: String.utf8EncodeChar c) : False := by
    rcases prefix_or_exists_of_prefix_append hother with hother | ⟨ws, hws, hrest, rfl⟩
    · exact hnot hother
    · rcases List.prefix_cons_iff.mp hrest with hnil | ⟨rest, rfl, -⟩
      · exact hws hnil
      · have hmem : b ∈ String.utf8EncodeChar c := hc.subset (by simp)
        have hle := hc.length_le
        rw [utf8EncodeChar_eq_singleton_of_mem hb hmem] at hle
        simp at hle
        omega
  refine ⟨h.ne_nil, h.isPrefix.trans (List.prefix_append _ _), ?_, h.candidate, ?_⟩
  · rintro ⟨c, hc⟩
    exact hlong hc (fun hshort => h.unconvertible ⟨c, hshort⟩) List.prefix_rfl
  · intro other hother hcandidate
    by_cases hshort : other <+: bytes
    · exact h.maximal other hshort hcandidate
    · rcases hcandidate with ⟨c, hc⟩ | hlength
      · exact absurd (hlong hother hshort hc) id
      · rw [hlength]
        exact List.length_pos_of_ne_nil h.ne_nil

end IsMaximalSubpart

/-- A byte of the first block is decoded by itself, whatever stands before it. -/
theorem Decodes.append_cons {before behind : List UInt8} {ps qs : List Piece} {b : UInt8}
    (h : Decodes before ps) (hb : b.toNat < 0x80) (h' : Decodes behind qs) :
    Decodes (before ++ b :: behind) (ps ++ some (Char.ofNat b.toNat) :: qs) := by
  induction h with
  | nil =>
    have hcharacter := h'.character (Char.ofNat b.toNat)
    rwa [utf8EncodeChar_of_ascii hb] at hcharacter
  | character c rest ih =>
    rw [List.append_assoc]
    exact ih.character c
  | illFormed hsub rest ih =>
    have hsub := hsub.append_cons hb behind
    rw [List.append_assoc] at hsub ⊢
    exact ih.illFormed hsub

theorem pieces_append_cons {b : UInt8} (hb : b.toNat < 0x80) (before behind : List UInt8) :
    pieces (before ++ b :: behind) = pieces before ++ some (Char.ofNat b.toNat) :: pieces behind :=
  (decodes_iff.mp ((decodes_pieces before).append_cons hb (decodes_pieces behind))).symm

theorem toList_decode (bytes : List UInt8) :
    (decode bytes).toList = (pieces bytes).map fun p => p.getD '\uFFFD' := by
  rw [decode, String.toList_ofList]

theorem toList_decode_append_cons {b : UInt8} (hb : b.toNat < 0x80) (before behind : List UInt8) :
    (decode (before ++ b :: behind)).toList
      = (decode before).toList ++ Char.ofNat b.toNat :: (decode behind).toList := by
  rw [toList_decode, toList_decode, toList_decode, pieces_append_cons hb, List.map_append,
    List.map_cons, Option.getD_some]

/-! ## Characters of the first block -/

/-- The numbers of the characters of the first block. -/
def asciiOf (cs : List Char) : List Nat := (cs.filter fun c => c.toNat < 0x80).map Char.toNat

/-- The numbers of the bytes of the first block. -/
def asciiBytes (bytes : List UInt8) : List Nat :=
  (bytes.filter fun b => b.toNat < 0x80).map UInt8.toNat

theorem asciiBytes_append (xs ys : List UInt8) :
    asciiBytes (xs ++ ys) = asciiBytes xs ++ asciiBytes ys := by
  rw [asciiBytes, List.filter_append, List.map_append, ← asciiBytes, ← asciiBytes]

theorem asciiBytes_eq_nil {bytes : List UInt8} (h : ∀ b ∈ bytes, 0x80 ≤ b.toNat) :
    asciiBytes bytes = [] := by
  have hfilter : (bytes.filter fun b => b.toNat < 0x80) = [] :=
    List.filter_eq_nil_iff.mpr fun b hb => by simpa using h b hb
  rw [asciiBytes, hfilter, List.map_nil]

theorem asciiBytes_utf8EncodeChar (c : Char) :
    asciiBytes (String.utf8EncodeChar c) = asciiOf [c] := by
  by_cases hc : c.toNat < 0x80
  · have hbytes := map_toNat_utf8EncodeChar c
    rw [if_pos hc] at hbytes
    obtain ⟨b, rest, heq, hb, hrest⟩ := List.map_eq_cons_iff.mp hbytes
    rw [List.map_eq_nil_iff.mp hrest] at heq
    simp [heq, asciiBytes, asciiOf, hb, hc]
  · rw [asciiBytes_eq_nil fun b hb => le_of_mem_utf8EncodeChar (Nat.le_of_not_lt hc) hb]
    simp [asciiOf, hc]

theorem Decodes.asciiBytes_eq {bytes : List UInt8} {ps : List Piece} (h : Decodes bytes ps) :
    asciiBytes bytes = asciiOf (ps.map fun p => p.getD '\uFFFD') := by
  have hcons (c : Char) (cs : List Char) : asciiOf (c :: cs) = asciiOf [c] ++ asciiOf cs := by
    rw [asciiOf, ← List.singleton_append, List.filter_append, List.map_append, ← asciiOf,
      ← asciiOf]
  induction h with
  | nil => rfl
  | character c rest ih =>
    rw [asciiBytes_append, asciiBytes_utf8EncodeChar, ih, List.map_cons, Option.getD_some]
    exact (hcons c _).symm
  | illFormed hsub rest ih =>
    rw [asciiBytes_append, asciiBytes_eq_nil fun b => hsub.le_of_mem, ih, List.map_cons,
      Option.getD_none, hcons]
    rfl

/-- The characters of the first block are the bytes of the first block, in the same order. -/
theorem asciiOf_decode (bytes : List UInt8) :
    asciiOf (decode bytes).toList = asciiBytes bytes := by
  rw [toList_decode]
  exact (decodes_pieces bytes).asciiBytes_eq.symm

/-- There are as many line feeds in the text as in the bytes. -/
theorem count_lineFeed_decode (bytes : List UInt8) :
    (decode bytes).toList.count '\n' = bytes.count 0x0A := by
  have hchars (cs : List Char) : (asciiOf cs).count 10 = cs.count '\n' :=
    (List.count_map_of_injective _ _ (fun _ _ => Char.toNat_inj.mp) '\n').trans
      (List.count_filter rfl)
  have hbytes : (asciiBytes bytes).count 10 = bytes.count 0x0A :=
    (List.count_map_of_injective _ _ (fun _ _ => UInt8.toNat_inj.mp) 0x0A).trans
      (List.count_filter rfl)
  rw [← hchars, ← hbytes, asciiOf_decode]

/-! ## Lines -/

theorem not_mem_decode {bytes : List UInt8} (h : 0x0A ∉ bytes) :
    '\n' ∉ (decode bytes).toList := by
  rw [← List.count_eq_zero, count_lineFeed_decode, List.count_eq_zero]
  exact h

/-- Splitting at line feeds may come before decoding or after it. -/
theorem splitOn_decode (bytes : List UInt8) :
    (decode bytes).toList.splitOn '\n'
      = (bytes.splitOn 0x0A).map fun row => (decode row).toList := by
  induction bytes using Text.separatorInduction (0x0A : UInt8) with
  | last row hrow =>
    rw [List.splitOn_eq_singleton hrow, List.splitOn_eq_singleton (not_mem_decode hrow)]
    rfl
  | more row behind hrow ih =>
    rw [toList_decode_append_cons (by decide), List.splitOn_append_cons_self_of_not_mem hrow]
    exact (List.splitOn_append_cons_self_of_not_mem (not_mem_decode hrow) _).trans
      (congrArg _ ih)

end DocGate.Utf8

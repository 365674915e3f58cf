/-
DocGate.Proofs.Number.Spelling — spelled numbers are JSON numbers.

* `Binary64.shortest_digits_ne_zero` — whatever digits are chosen for a number other
  than zero, they are not all zeros: a decimal that rounds to the number is not zero,
  and the last grid is fine enough to have one.
* `isNumber_spell` — so the digits do not begin with a zero, and however they are laid
  out they make a number of the format. The number must be finite, and the style must
  end whole numbers as the format allows.
* `exists_coverageOf_eq` — the coverage of a report is such a number, since a part of a
  whole is at most one.
-/
import DocGate.Number.Spelling
import DocGate.Proofs.Json.Grammar
import DocGate.Report.Basic
import Mathlib.Algebra.Ring.Nat

namespace DocGate.Binary64

/-! ## Digits that are not zero -/

theorem gap_le (units : Nat) : gap units ≤ units + 1 := by
  by_cases h : units = 0
  · subst h
    decide
  · calc gap units ≤ 2 ^ units.log2 := Nat.pow_le_pow_right (by decide) (Nat.sub_le _ _)
      _ ≤ units := Nat.log2_self_le h
      _ ≤ units + 1 := Nat.le_succ units

/-- A decimal that rounds to a number other than zero is not zero. -/
theorem Digits.digits_ne_zero_of_roundsTo {d : Digits} {units : Nat} (h : d.roundsTo units)
    (hunits : 0 < units) : d.digits ≠ 0 := by
  intro hzero
  have hgap := gap_le (units - 1)
  have hlow : 0 < (bounds units).1 := by
    simp only [bounds]
    omega
  have hnum : d.halfUnits.1 = 0 := by
    rw [halfUnits]
    split <;> simp [hzero]
  have hden : 0 < d.halfUnits.2 := by
    rw [halfUnits]
    split
    · exact Nat.one_pos
    · exact Nat.pow_pos (by decide)
  have hbelow : d.halfUnits.1 < (bounds units).1 * d.halfUnits.2 := by
    rw [hnum]
    exact Nat.mul_pos hlow hden
  rw [roundsTo] at h
  simp only at h
  split at h <;> simp at h <;> omega

theorem digitCount_pos (n : Nat) : 0 < digitCount n := Nat.length_toDigits_pos

theorem lt_pow_digitCount (n : Nat) : n < 10 ^ digitCount n :=
  (Nat.length_toDigits_le_iff (by decide) (digitCount_pos n)).mp (Nat.le_refl _)

theorem pow_digitCount_le {n : Nat} (h : n ≠ 0) : 10 ^ (digitCount n - 1) ≤ n := by
  by_cases hone : digitCount n - 1 = 0
  · rw [hone]
    exact Nat.one_le_iff_ne_zero.mpr h
  · refine Nat.not_lt.mp fun hlt => ?_
    have hle : digitCount n ≤ digitCount n - 1 :=
      (Nat.length_toDigits_le_iff (by decide) (Nat.pos_of_ne_zero hone)).mpr hlt
    omega

theorem unitsOfOne_pos : 0 < unitsOfOne := by decide +kernel

/-- The least power of ten that is as large as a quotient is the one with its digits. -/
theorem le_mul_pow_digitCount (a : Nat) {b : Nat} (h : 0 < b) :
    a ≤ b * 10 ^ digitCount ((a + b - 1) / b - 1) := by
  have hlt := lt_pow_digitCount ((a + b - 1) / b - 1)
  have hdiv := Nat.div_add_mod (a + b - 1) b
  have hmod := Nat.mod_lt (a + b - 1) h
  calc a ≤ b * ((a + b - 1) / b) := by omega
    _ ≤ b * 10 ^ digitCount ((a + b - 1) / b - 1) := Nat.mul_le_mul_left b (by omega)

/-- On a grid that is no coarser than the first digit the neighbour below a number is not zero. -/
theorem neighbour_digits_ne_zero {units : Nat} {exponent : Int} (hunits : 0 < units)
    (h : exponent ≤ leadingExponent units) : (neighbour units exponent).1.digits ≠ 0 := by
  have hone := unitsOfOne_pos
  rw [leadingExponent] at h
  rw [neighbour]
  by_cases hexponent : 0 ≤ exponent
  · rw [if_pos hexponent]
    split at h
    · rename_i hle
      have hcount := digitCount_pos (units / unitsOfOne)
      have hwhole : units / unitsOfOne ≠ 0 := Nat.ne_of_gt (Nat.div_pos hle hone)
      have hpow : 10 ^ exponent.toNat ≤ units / unitsOfOne :=
        Nat.le_trans (Nat.pow_le_pow_right (by decide) (by omega)) (pow_digitCount_le hwhole)
      have hden : unitsOfOne * 10 ^ exponent.toNat ≤ units :=
        Nat.le_trans (Nat.mul_le_mul_left _ hpow) (Nat.mul_div_le _ _)
      exact Nat.ne_of_gt (Nat.div_pos hden (Nat.mul_pos hone (Nat.pow_pos (by decide))))
    · have hcount := digitCount_pos ((unitsOfOne + units - 1) / units - 1)
      omega
  · rw [if_neg hexponent]
    have hnum : unitsOfOne ≤ units * 10 ^ (-exponent).toNat := by
      split at h
      · rename_i hle
        exact Nat.le_trans hle (Nat.le_mul_of_pos_right _ (Nat.pow_pos (by decide)))
      · refine Nat.le_trans (le_mul_pow_digitCount unitsOfOne hunits) ?_
        exact Nat.mul_le_mul_left _ (Nat.pow_le_pow_right (by decide) (by omega))
    exact Nat.ne_of_gt (Nat.div_pos hnum hone)

/-- The digits that are chosen for a number other than zero are not zero. -/
theorem shortestFrom_digits_ne_zero {units : Nat} (hunits : 0 < units) (fuel count : Nat) :
    (shortestFrom units (leadingExponent units) fuel count).digits ≠ 0 := by
  induction fuel generalizing count with
  | zero =>
    rw [shortestFrom]
    exact neighbour_digits_ne_zero hunits (by omega)
  | succ fuel ih =>
    rw [shortestFrom]
    generalize neighbour units (leadingExponent units - count) = near
    obtain ⟨below, upper⟩ := near
    generalize hpair : (if upper then (Digits.mk (below.digits + 1) below.exponent, below)
      else (below, Digits.mk (below.digits + 1) below.exponent)) = pair
    obtain ⟨first, second⟩ := pair
    simp only [hpair]
    split
    · rename_i hfirst
      exact Digits.digits_ne_zero_of_roundsTo hfirst hunits
    · split
      · rename_i hsecond
        exact Digits.digits_ne_zero_of_roundsTo hsecond hunits
      · exact ih (count + 1)

theorem Digits.dropZeros_digits_ne_zero {d : Digits} (h : d.digits ≠ 0) (fuel : Nat) :
    (d.dropZeros fuel).digits ≠ 0 := by
  induction fuel generalizing d with
  | zero => exact h
  | succ fuel ih =>
    rw [dropZeros]
    split
    · rename_i hzeros
      simp only [Bool.and_eq_true, decide_eq_true_eq] at hzeros
      refine ih ?_
      simp only
      omega
    · exact h

theorem shortest_digits_ne_zero {units : Nat} (h : 0 < units) : (shortest units).digits ≠ 0 :=
  Digits.dropZeros_digits_ne_zero (shortestFrom_digits_ne_zero h _ _) _

/-! ## Digits laid out -/

open Json (IsDigits IsWhole IsFraction IsPower IsNumber)

theorem isDigits_append {cs ds : List Char} (hcs : IsDigits cs) (hds : ∀ c ∈ ds, c.isDigit) :
    IsDigits (cs ++ ds) := by
  refine ⟨by simp [hcs.1], fun c hc => ?_⟩
  rcases List.mem_append.mp hc with hc | hc
  · exact hcs.2 c hc
  · exact hds c hc

theorem isDigit_of_mem_zeros {n : Nat} {c : Char} (h : c ∈ (zeros n).toList) : c.isDigit := by
  rw [zeros, String.toList_ofList] at h
  rw [List.eq_of_mem_replicate h]
  rfl

theorem isPower_toString (i : Int) : IsPower ('e' :: (toString i).toList) := by
  have htext : (toString i).toList = if 0 ≤ i then [] ++ Nat.toDigits 10 i.toNat
      else ['-'] ++ Nat.toDigits 10 (-i).toNat := by
    rw [show toString i = i.repr from rfl, Int.repr_eq_if]
    split <;> simp [Nat.repr_eq_ofList_toDigits]
  rw [htext]
  split
  · exact .digits (by decide) (by decide) (Json.isDigits_toDigits _)
  · exact .digits (by decide) (by decide) (Json.isDigits_toDigits _)

/-- Digits that do not begin with a zero make a number, however they are laid out. -/
theorem exists_layOut_eq {style : Style} (hend : IsFraction style.wholeEnd.toList) {c : Char}
    {cs : List Char} (hfirst : c ≠ '0') (hdigits : IsDigits (c :: cs)) (exponent : Int) :
    ∃ whole fraction power, (layOut style (c :: cs) exponent).toList
        = whole ++ fraction ++ power ∧
      IsWhole whole ∧ IsFraction fraction ∧ IsPower power := by
  have hrest : ∀ d ∈ cs, d.isDigit := fun d hd => hdigits.2 d (List.mem_cons_of_mem c hd)
  have hlead : IsDigits [c] := ⟨by simp, by simpa using hdigits.2 c List.mem_cons_self⟩
  rw [layOut]
  simp only
  generalize hpoint : ((c :: cs).length : Int) + exponent = point
  split
  · split
    · -- a point in front of the digits
      refine ⟨['0'], '.' :: ((zeros (-point).toNat).toList ++ c :: cs), [], by simp, .zero,
        .digits ⟨by simp, fun d hd => ?_⟩, .none⟩
      rcases List.mem_append.mp hd with hd | hd
      · exact isDigit_of_mem_zeros hd
      · exact hdigits.2 d hd
    · split
      · -- a point behind the digits
        refine ⟨c :: (cs ++ (zeros (point - (c :: cs).length).toNat).toList),
          style.wholeEnd.toList, [], by simp, .digits hfirst ?_, hend, .none⟩
        exact isDigits_append hdigits fun d hd => isDigit_of_mem_zeros hd
      · -- a point among the digits
        rename_i hinside
        obtain ⟨n, hn⟩ : ∃ n, point.toNat = n + 1 := Nat.exists_eq_add_one.mpr (by omega)
        rw [hn]
        refine ⟨c :: cs.take n, '.' :: cs.drop n, [], by simp, .digits hfirst ?_,
          .digits ⟨?_, fun d hd => hrest d (List.mem_of_mem_drop hd)⟩, .none⟩
        · exact isDigits_append hlead fun d hd => hrest d (List.mem_of_mem_take hd)
        · rw [Ne, List.drop_eq_nil_iff]
          rw [List.length_cons] at hinside
          omega
  · -- a power of ten
    refine ⟨[c], if cs = [] then [] else '.' :: cs, 'e' :: (toString (point - 1)).toList, ?_,
      .digits hfirst hlead, ?_, isPower_toString _⟩
    · cases cs <;> simp
    · split
      · exact .none
      · rename_i hne
        exact .digits ⟨hne, hrest⟩

/-- A finite number is spelled as a number of the format, in every style that ends a whole number
as one. -/
theorem isNumber_spell {style : Style} (hend : IsFraction style.wholeEnd.toList)
    (negative : Bool) (units : Nat) :
    IsNumber ((Binary64.finite negative units).spell style).toList := by
  have hsign : (signText negative).toList ∈ [[], ['-']] := by cases negative <;> decide
  rw [spell, String.toList_append]
  by_cases hzero : units = 0
  · rw [if_pos hzero]
    have hparts := IsNumber.parts hsign .zero hend .none
    simpa using hparts
  · rw [if_neg hzero]
    simp only
    obtain ⟨c, cs, hcons, hfirst⟩ :=
      Json.toDigits_eq_cons (shortest_digits_ne_zero (Nat.pos_of_ne_zero hzero))
    have hdigits := Json.isDigits_toDigits (shortest units).digits
    rw [hcons] at hdigits ⊢
    obtain ⟨whole, fraction, power, htext, hwhole, hfraction, hpower⟩ :=
      exists_layOut_eq hend hfirst hdigits (shortest units).exponent
    rw [htext, ← List.append_assoc, ← List.append_assoc]
    exact .parts hsign hwhole hfraction hpower

/-! ## The coverage -/

theorem roundQuotient_le (num den : Nat) : roundQuotient num den ≤ num / den + 1 := by
  simp only [roundQuotient]
  split <;> omega

/-- A part of a whole is a finite number. -/
theorem exists_coverageOf_eq {documented total : Nat} (h : documented ≤ total) :
    ∃ units, coverageOf documented total = .finite false units := by
  rw [coverageOf]
  split
  · exact ⟨unitsOfOne, rfl⟩
  · rename_i htotal
    have hquotient : documented * unitsOfOne / total ≤ unitsOfOne :=
      Nat.div_le_of_le_mul (Nat.mul_le_mul_right unitsOfOne h)
    have hlimit : 2 * unitsOfOne + 1 < unitsLimit := by decide +kernel
    rw [ofRatio, ofUnits]
    generalize hstep : gap (documented * unitsOfOne / total) = step
    have hstepLe := gap_le (documented * unitsOfOne / total)
    have hround := roundQuotient_le (documented * unitsOfOne) (total * step)
    have hunits : roundQuotient (documented * unitsOfOne) (total * step) * step < unitsLimit :=
      calc roundQuotient (documented * unitsOfOne) (total * step) * step
          ≤ (documented * unitsOfOne / total / step + 1) * step := by
            rw [Nat.div_div_eq_div_mul]
            exact Nat.mul_le_mul_right step hround
        _ ≤ documented * unitsOfOne / total + step := by
            rw [Nat.add_mul, Nat.one_mul]
            exact Nat.add_le_add_right (Nat.div_mul_le_self _ _) step
        _ < unitsLimit := by omega
    exact ⟨_, if_neg (Nat.not_le.mpr hunits)⟩

end DocGate.Binary64

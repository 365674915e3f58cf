/-
DocGate.Proofs.Glob.Literal — globs that spell a name.

A text without any of the marks of the glob language (`marks`) spells itself: it is read
as one literal after the other, also behind a leading `**/` and in front of a trailing
`/**`. Matching goes over bytes and not over characters.

* `compile_spelled` — the tokens of such a text, in each of its four spellings.
* `runAll_literals` — on places in a text, literals do what a list of bytes does: they
  lead from each place at which these bytes stand to the place behind them. This holds
  for all literals, a slash among them.
* `exists_bytes_of_isMatch` — a match of a spelled name says where its bytes stand:
  between slashes or at the ends of the text. The name must not be empty.
-/
import DocGate.Glob.Matching
import DocGate.Glob.Reader
import Mathlib.Data.List.Basic

namespace DocGate.Glob

/-! ## Bytes of characters and texts -/

theorem charBytes_eq (c : Char) : charBytes c = String.utf8EncodeChar c := by
  simp [charBytes, List.utf8Encode]

theorem textBytes_ofList (cs : List Char) :
    (textBytes (String.ofList cs)).toList = cs.flatMap charBytes := by
  induction cs with
  | nil => simp [textBytes]
  | cons c cs ih =>
    have hcons : String.ofList (c :: cs) = String.singleton c ++ String.ofList cs := by simp
    simp only [textBytes, String.toUTF8_eq_toByteArray] at ih
    rw [hcons, textBytes, String.toUTF8_eq_toByteArray, String.toByteArray_append,
      ByteArray.toList_data_append, ih, List.flatMap_cons]
    rfl

theorem textBytes_toList (s : String) : (textBytes s).toList = s.toList.flatMap charBytes := by
  rw [← textBytes_ofList, String.ofList_toList]

/-- A byte from the upper half is no slash. -/
theorem slash_ne_ofNat {n : Nat} (h : 128 ≤ n % 256) : slash ≠ UInt8.ofNat n := by
  intro heq
  have hnat := congrArg UInt8.toNat heq
  have hslash : slash.toNat = 47 := rfl
  rw [hslash, UInt8.toNat_ofNat'] at hnat
  omega

/-- The byte of a slash belongs to no other character. -/
theorem slash_not_mem_charBytes {c : Char} (hc : c ≠ '/') : slash ∉ charBytes c := by
  rw [charBytes_eq]
  simp only [String.utf8EncodeChar]
  split
  · rename_i hascii
    rw [List.mem_singleton]
    intro heq
    have hnat := congrArg UInt8.toNat heq
    rw [UInt8.toNat_ofNat', Nat.mod_eq_of_lt (by omega)] at hnat
    exact hc (Char.toNat_inj.mp hnat.symm)
  · -- every byte has its upper bit set
    split
    · simp only [List.mem_cons, List.not_mem_nil, or_false, not_or]
      exact ⟨slash_ne_ofNat (by omega), slash_ne_ofNat (by omega)⟩
    · split
      · simp only [List.mem_cons, List.not_mem_nil, or_false, not_or]
        exact ⟨slash_ne_ofNat (by omega), slash_ne_ofNat (by omega), slash_ne_ofNat (by omega)⟩
      · simp only [List.mem_cons, List.not_mem_nil, or_false, not_or]
        exact ⟨slash_ne_ofNat (by omega), slash_ne_ofNat (by omega), slash_ne_ofNat (by omega),
          slash_ne_ofNat (by omega)⟩

/-! ## Reading -/

/-- The characters that mean something in a glob. -/
def marks : List Char := ['*', '?', '[', ']', '\x7b', '\x7d', '\\']

/-- Characters that spell themselves, possibly behind `**/` and possibly in front of `/**`. -/
def spelling (leading trailing : Bool) (cs : List Char) : List Char :=
  (if leading then ['*', '*', '/'] else []) ++ (cs ++ if trailing then ['/', '*', '*'] else [])

/-- How such a text is read. -/
def spelledTokens (leading trailing : Bool) (cs : List Char) : List Token :=
  (if leading then [.anyDirectories] else [])
    ++ (cs.map .literal ++ if trailing then [.anyBelow] else [])

/-- A character that is no mark is a literal. -/
theorem step_literal {c : Char} (hc : c ∉ marks) (ts : List Token) (last : Option Char) :
    State.step ⟨.plain, ts, [], last⟩ c = .ok ⟨.plain, .literal c :: ts, [], some c⟩ := by
  simp only [marks, List.mem_cons, List.not_mem_nil, or_false, not_or] at hc
  obtain ⟨hstar, hany, hbracket, -, hopen, hclose, hescape⟩ := hc
  simp only [State.step, State.freshStep, if_neg hstar, State.plainStep, State.push]
  split
  · contradiction
  · contradiction
  · contradiction
  · contradiction
  · rfl
  · contradiction
  · rfl

theorem foldlM_step_literals {cs : List Char} (h : ∀ c ∈ cs, c ∉ marks) (ts : List Token)
    (last : Option Char) :
    ∃ last', cs.foldlM State.step ⟨.plain, ts, [], last⟩
      = .ok ⟨.plain, (cs.map .literal).reverse ++ ts, [], last'⟩ := by
  induction cs generalizing ts last with
  | nil => exact ⟨last, rfl⟩
  | cons c cs ih =>
    obtain ⟨last', hcs⟩ :=
      ih (fun d hd => h d (List.mem_cons_of_mem c hd)) (.literal c :: ts) (some c)
    refine ⟨last', ?_⟩
    rw [List.foldlM_cons, step_literal (h c List.mem_cons_self)]
    simpa [bind, Except.bind] using hcs

/-- A text without marks is read as what it spells. -/
theorem compile_spelled {cs : List Char} (h : ∀ c ∈ cs, c ∉ marks) (leading trailing : Bool) :
    compile (String.ofList (spelling leading trailing cs))
      = .ok (spelledTokens leading trailing cs) := by
  have hleading : ∃ last, (if leading then ['*', '*', '/'] else []).foldlM State.step {}
      = .ok ⟨.plain, if leading then [.anyDirectories] else [], [], last⟩ := by
    cases leading with
    | false => exact ⟨none, rfl⟩
    | true => exact ⟨some '/', rfl⟩
  obtain ⟨last, hleading⟩ := hleading
  obtain ⟨last', hcs⟩ :=
    foldlM_step_literals h (if leading then [.anyDirectories] else []) last
  rw [compile, tokens, String.toList_ofList, spelling, List.foldlM_append, hleading]
  simp only [bind, Except.bind, List.foldlM_append, hcs]
  cases trailing with
  | false =>
    cases leading <;> simp [spelledTokens, State.finish, Except.mapError, pure, Except.pure]
  | true =>
    have htrailing (ts : List Token) : ['/', '*', '*'].foldlM State.step ⟨.plain, ts, [], last'⟩
        = .ok ⟨.stars (some '/'), .literal '/' :: ts, [], some '*'⟩ := rfl
    have hfinish (ts : List Token) :
        State.finish ⟨.stars (some '/'), .literal '/' :: ts, [], some '*'⟩
          = .ok (.anyBelow :: ts).reverse := rfl
    simp only [if_true, htrailing, hfinish]
    cases leading <;> simp [spelledTokens, Except.mapError]

/-! ## Matching -/

theorem runAll_append (text : Array UInt8) (places : List Nat) (ts us : List Token) :
    runAll text places (ts ++ us) = runAll text (runAll text places ts) us := by
  induction ts generalizing places with
  | nil => rfl
  | cons t ts ih => rw [List.cons_append, runAll, runAll, ih]

/-- Bytes lead from the places at which they stand to the places behind them. -/
theorem foldl_afterByte (text : Array UInt8) (bs : List UInt8) (places : List Nat) :
    bs.foldl (fun ps b => afterByte text (· == b) ps) places
      = places.filterMap fun i =>
          if bs.isPrefixOf (text.toList.drop i) then some (i + bs.length) else none := by
  induction bs generalizing places with
  | nil => simp
  | cons b bs ih =>
    rw [List.foldl_cons, ih, afterByte, List.filterMap_filterMap]
    congr 1
    funext i
    rw [← Array.getElem?_toList]
    cases hi : text.toList[i]? with
    | none =>
      have hdrop : text.toList.drop i = [] := List.drop_eq_nil_of_le (by simpa using hi)
      simp [hdrop]
    | some c =>
      obtain ⟨hlt, hc⟩ := List.getElem?_eq_some_iff.mp hi
      rw [List.drop_eq_getElem_cons hlt, hc]
      by_cases heq : c = b
      · simp [heq, Nat.add_comm, Nat.add_left_comm]
      · simp [heq, Ne.symm heq]

/-- Literals lead where their bytes do. -/
theorem runAll_literals (text : Array UInt8) (places : List Nat) (cs : List Char) :
    runAll text places (cs.map .literal)
      = places.filterMap fun i =>
          if (cs.flatMap charBytes).isPrefixOf (text.toList.drop i)
          then some (i + (cs.flatMap charBytes).length) else none := by
  rw [← foldl_afterByte]
  induction cs generalizing places with
  | nil => rfl
  | cons c cs ih =>
    rw [List.map_cons, runAll, ih, Token.run, List.flatMap_cons, List.foldl_append]

theorem mem_merge {as bs : List Nat} {j : Nat} : j ∈ merge as bs ↔ j ∈ as ∨ j ∈ bs := by
  fun_induction merge as bs with
  | case1 bs => simp
  | case2 as => simp
  | case3 a as b bs hlt ih => simp [ih, or_assoc]
  | case4 a as b bs _ hlt ih =>
    simp only [List.mem_cons, ih]
    tauto
  | case5 a as b bs hlt hgt ih =>
    have hab : a = b := by omega
    simp only [List.mem_cons, ih, hab]
    tauto

theorem exists_of_mem_afterByte {text : Array UInt8} {p : UInt8 → Bool} {places : List Nat}
    {j : Nat} (h : j ∈ afterByte text p places) :
    ∃ i ∈ places, ∃ b, text[i]? = some b ∧ p b ∧ j = i + 1 := by
  obtain ⟨i, hi, hj⟩ := List.mem_filterMap.mp h
  split at hj
  · rename_i b hb
    rw [Option.ite_none_right_eq_some] at hj
    exact ⟨i, hi, b, hb, hj.1, (Option.some.inj hj.2).symm⟩
  · cases hj

/-- Any directories lead to where a name may start. -/
theorem starts_of_mem_run {text : Array UInt8} {i : Nat}
    (h : i ∈ Token.run text [0] .anyDirectories) :
    i = 0 ∨ ∃ k, text[k]? = some slash ∧ i = k + 1 := by
  rw [Token.run, mem_merge, List.mem_singleton] at h
  refine h.imp_right ?_
  intro h
  obtain ⟨k, -, b, hb, hslash, rfl⟩ := exists_of_mem_afterByte h
  exact ⟨k, by rw [hb, eq_of_beq hslash], rfl⟩

/-- What is below a directory starts behind a slash. -/
theorem exists_slash_of_mem_run {text : Array UInt8} {places : List Nat} {j : Nat}
    (h : j ∈ Token.run text places .anyBelow) : ∃ i ∈ places, text[i]? = some slash := by
  rw [Token.run] at h
  cases hfirst : firstSlash text places with
  | none => simp [hfirst] at h
  | some i =>
    rw [firstSlash] at hfirst
    have hslash := List.find?_some hfirst
    exact ⟨i, List.mem_of_find?_eq_some hfirst, eq_of_beq hslash⟩

/-- Where the bytes of a spelled name stand: at the start or behind a slash, and at the end or in
front of a slash. -/
theorem exists_place_of_mem_runAll {text : Array UInt8} {leading trailing : Bool} {cs : List Char}
    (h : text.size ∈ runAll text [0] (spelledTokens leading trailing cs)) :
    ∃ i, (i = 0 ∨ ∃ k, text[k]? = some slash ∧ i = k + 1) ∧
      cs.flatMap charBytes <+: text.toList.drop i ∧
      (i + (cs.flatMap charBytes).length = text.size ∨
        text[i + (cs.flatMap charBytes).length]? = some slash) := by
  rw [spelledTokens, runAll_append, runAll_append, runAll_literals] at h
  have hstart : ∀ i ∈ runAll text [0] (if leading then [.anyDirectories] else []),
      i = 0 ∨ ∃ k, text[k]? = some slash ∧ i = k + 1 := by
    intro i hi
    cases leading with
    | false => exact .inl (List.mem_singleton.mp hi)
    | true => exact starts_of_mem_run hi
  generalize runAll text [0] (if leading then [.anyDirectories] else []) = starts at h hstart
  have hend : ∃ j ∈ starts.filterMap (fun i =>
        if (cs.flatMap charBytes).isPrefixOf (text.toList.drop i)
        then some (i + (cs.flatMap charBytes).length) else none),
      j = text.size ∨ text[j]? = some slash := by
    cases trailing with
    | false => exact ⟨_, h, .inl rfl⟩
    | true =>
      obtain ⟨j, hj, hslash⟩ := exists_slash_of_mem_run h
      exact ⟨j, hj, .inr hslash⟩
  obtain ⟨j, hj, hend⟩ := hend
  obtain ⟨i, hi, hj⟩ := List.mem_filterMap.mp hj
  rw [Option.ite_none_right_eq_some] at hj
  obtain ⟨hleads, heq⟩ := hj
  cases heq
  exact ⟨i, hstart i hi, List.isPrefixOf_iff_prefix.mp hleads, hend⟩

theorem isMatch_of_ne {ts : List Token} (h : ts ≠ [.anyDirectories]) (text : String) :
    isMatch ts text = ((runAll (textBytes text) [0] ts).getLast? == some (textBytes text).size
      && !(speaksOfName ts && endsAbove (textBytes text))) := by
  unfold isMatch
  split
  · exact absurd rfl h
  · rfl

theorem spelledTokens_ne {cs : List Char} (hcs : cs ≠ []) (leading trailing : Bool) :
    spelledTokens leading trailing cs ≠ [.anyDirectories] := by
  obtain ⟨c, cs, rfl⟩ := List.exists_cons_of_ne_nil hcs
  cases leading <;> cases trailing <;> simp [spelledTokens]

/-- Where a spelled name matches, its bytes stand between slashes or ends of the text. -/
theorem exists_bytes_of_isMatch {text : String} {leading trailing : Bool} {cs : List Char}
    (hcs : cs ≠ []) (h : isMatch (spelledTokens leading trailing cs) text) :
    ∃ before after, (textBytes text).toList = before ++ (cs.flatMap charBytes ++ after) ∧
      (before = [] ∨ ∃ bs, before = bs ++ [slash]) ∧ (after = [] ∨ ∃ bs, after = slash :: bs) := by
  rw [isMatch_of_ne (spelledTokens_ne hcs leading trailing), Bool.and_eq_true, beq_iff_eq] at h
  obtain ⟨i, hstart, ⟨after, hafter⟩, hend⟩ :=
    exists_place_of_mem_runAll (List.mem_of_getLast? h.1)
  refine ⟨(textBytes text).toList.take i, after, ?_, ?_, ?_⟩
  · rw [hafter, List.take_append_drop]
  · rcases hstart with rfl | ⟨k, hslash, rfl⟩
    · exact .inl rfl
    · refine .inr ⟨(textBytes text).toList.take k, ?_⟩
      rw [List.take_add_one, Array.getElem?_toList, hslash]
      rfl
  · have hdrop := congrArg (List.drop (cs.flatMap charBytes).length) hafter
    rw [List.drop_left, List.drop_drop] at hdrop
    rcases hend with hsize | hslash
    · exact .inl (by rw [hdrop, hsize, ← Array.length_toList, List.drop_length])
    · refine .inr (List.head?_eq_some_iff.mp ?_)
      rw [hdrop, List.head?_drop, Array.getElem?_toList, hslash]

/-- Literals do not speak of the name of a file in particular. -/
theorem speaksOfName_literals (cs : List Char) : speaksOfName (cs.map .literal) = false := by
  have hend : isFixedEnd (cs.map .literal) = true := by
    cases cs <;> simp [isFixedEnd, afterStar, afterDirectories, isLiteral]
  have hname : isFixedName (cs.map .literal) = false := by cases cs <;> rfl
  have hextension : isFixedExtension (cs.map .literal) = false := by cases cs <;> rfl
  rw [speaksOfName, hname, hextension, hend, Bool.not_true, Bool.and_false]
  rfl

/-- Literals match the text that they spell. -/
theorem isMatch_literals_self (cs : List Char) :
    isMatch (cs.map .literal) (String.ofList cs) := by
  have hne : cs.map Token.literal ≠ [.anyDirectories] := by simp
  have hsize : (textBytes (String.ofList cs)).size = (cs.flatMap charBytes).length := by
    rw [← Array.length_toList, textBytes_ofList]
  rw [isMatch_of_ne hne, runAll_literals, speaksOfName_literals, textBytes_ofList, hsize]
  simp

end DocGate.Glob

/-
DocGate.Proofs.Path.Order — the order of paths.

Names are ordered by their bytes, components by kind and then by name, and paths by
their components.

* `StrictOrder.lex` — both steps to lists are the lexicographic order of the order below
  them, so that one statement serves for bytes and for components.
* `Component.nameLt_strictOrder`, `componentsLt_strictOrder` — the orders of names and
  of lists of components are strict and total.
* `StrictOrder.pairwise_mergeSort` — a list that is sorted by a key has no later element
  in front of an earlier one.
* `Path.eq_of_pairwise_lt` — lists of paths in strict order that have the same paths are
  equal.

Paths themselves are ordered strictly, but two of them may have the same components; the
last result is about membership of the texts, and needs no more.
-/
import DocGate.Path

namespace DocGate

/-! ## Strict orders -/

/-- A strict total order that is given by a test. -/
structure StrictOrder {α : Type} (lt : α → α → Bool) : Prop where
  irrefl : ∀ a, lt a a = false
  trans : ∀ {a b c}, lt a b → lt b c → lt a c
  connex : ∀ a b, lt a b ∨ a = b ∨ lt b a

namespace StrictOrder

variable {α β : Type} {lt : α → α → Bool}

theorem asymm (h : StrictOrder lt) {a b : α} (hab : lt a b) : lt b a = false := by
  cases hba : lt b a with
  | false => rfl
  | true =>
    have haa := h.trans hab hba
    rw [h.irrefl] at haa
    cases haa

theorem ne (h : StrictOrder lt) {a b : α} (hab : lt a b) : a ≠ b := by
  rintro rfl
  rw [h.irrefl] at hab
  cases hab

/-- What is not in front of one that is not in front of a third is not in front of that. -/
theorem not_lt_trans (h : StrictOrder lt) {a b c : α} (hba : lt b a = false)
    (hcb : lt c b = false) : lt c a = false := by
  cases hca : lt c a with
  | false => rfl
  | true =>
    rcases h.connex b c with hbc | rfl | hbc
    · rw [h.trans hbc hca] at hba
      cases hba
    · rw [hca] at hba
      cases hba
    · rw [hbc] at hcb
      cases hcb

/-- The lexicographic order of a strict total order is one. -/
theorem lex [BEq α] [LawfulBEq α] (h : StrictOrder lt) :
    StrictOrder fun as bs : List α => as.lex bs lt where
  irrefl as := by
    induction as with
    | nil => rfl
    | cons a as ih => simp [h.irrefl a, ih]
  trans {as bs cs} hab hbc := by
    induction as generalizing bs cs with
    | nil =>
      cases cs with
      | nil => cases bs <;> simp [List.lex] at hab hbc
      | cons c cs => rfl
    | cons a as ih =>
      cases bs with
      | nil => simp [List.lex] at hab
      | cons b bs =>
        cases cs with
        | nil => simp [List.lex] at hbc
        | cons c cs =>
          simp only [List.cons_lex_cons, Bool.or_eq_true, Bool.and_eq_true, beq_iff_eq] at hab hbc ⊢
          rcases hab with hab | ⟨rfl, hab⟩
          · rcases hbc with hbc | ⟨rfl, _⟩
            · exact Or.inl (h.trans hab hbc)
            · exact Or.inl hab
          · rcases hbc with hbc | ⟨rfl, hbc⟩
            · exact Or.inl hbc
            · exact Or.inr ⟨rfl, ih hab hbc⟩
  connex as bs := by
    induction as generalizing bs with
    | nil =>
      cases bs with
      | nil => exact Or.inr (Or.inl rfl)
      | cons b bs => exact Or.inl rfl
    | cons a as ih =>
      cases bs with
      | nil => exact Or.inr (Or.inr rfl)
      | cons b bs =>
        simp only [List.cons_lex_cons, Bool.or_eq_true, Bool.and_eq_true, beq_iff_eq]
        rcases h.connex a b with hab | rfl | hba
        · exact Or.inl (Or.inl hab)
        · rcases ih bs with hlt | rfl | hgt
          · exact Or.inl (Or.inr ⟨rfl, hlt⟩)
          · exact Or.inr (Or.inl rfl)
          · exact Or.inr (Or.inr (Or.inr ⟨rfl, hgt⟩))
        · exact Or.inr (Or.inr (Or.inl hba))

/-- Sorting by a key leaves nothing behind what has a later key. -/
theorem pairwise_mergeSort (h : StrictOrder lt) (key : β → α) (l : List β) :
    (l.mergeSort fun a b => !lt (key b) (key a)).Pairwise
      fun a b => lt (key b) (key a) = false := by
  have hsorted : (l.mergeSort fun a b => !lt (key b) (key a)).Pairwise
      fun a b => (!lt (key b) (key a)) = true := by
    refine List.pairwise_mergeSort ?_ ?_ l
    · intro a b c hab hbc
      simp only [Bool.not_eq_true'] at hab hbc ⊢
      exact h.not_lt_trans hab hbc
    · intro a b
      cases hba : lt (key b) (key a) with
      | false => rfl
      | true => simp [h.asymm hba]
  exact hsorted.imp fun hab => by simpa using hab

end StrictOrder

/-- A difference behind a common beginning decides. -/
theorem lex_append_cons {α : Type} [BEq α] [LawfulBEq α] {lt : α → α → Bool} {a b : α}
    (hab : lt a b) (common as bs : List α) :
    (common ++ a :: as).lex (common ++ b :: bs) lt := by
  induction common with
  | nil => simp [hab]
  | cons c common ih => simp [ih]

/-! ## Names, components and paths -/

namespace Path

namespace Component

theorem bytesLt_eq_lex (as bs : List UInt8) : bytesLt as bs = as.lex bs (· < ·) := by
  induction as generalizing bs with
  | nil => cases bs <;> rfl
  | cons a as ih =>
    cases bs with
    | nil => rfl
    | cons b bs => rw [bytesLt, List.cons_lex_cons, ih]

theorem byte_strictOrder : StrictOrder fun a b : UInt8 => decide (a < b) where
  irrefl a := by simp
  trans hab hbc := by
    simp only [decide_eq_true_eq] at hab hbc ⊢
    exact UInt8.lt_trans hab hbc
  connex a b := by
    simp only [decide_eq_true_eq]
    by_cases hab : a = b
    · exact Or.inr (Or.inl hab)
    · rcases UInt8.lt_or_lt_of_ne hab with hlt | hgt
      · exact Or.inl hlt
      · exact Or.inr (Or.inr hgt)

theorem bytes_injective {a b : String} (h : a.toUTF8.data.toList = b.toUTF8.data.toList) :
    a = b :=
  String.toByteArray_inj.mp (ByteArray.ext (Array.toList_inj.mp h))

theorem nameLt_strictOrder : StrictOrder nameLt := by
  have h := byte_strictOrder.lex
  refine ⟨?_, ?_, ?_⟩
  · intro a
    rw [nameLt, bytesLt_eq_lex]
    exact h.irrefl _
  · intro a b c hab hbc
    rw [nameLt, bytesLt_eq_lex] at hab hbc ⊢
    exact h.trans hab hbc
  · intro a b
    rw [nameLt, nameLt, bytesLt_eq_lex, bytesLt_eq_lex]
    rcases h.connex a.toUTF8.data.toList b.toUTF8.data.toList with hlt | heq | hgt
    · exact Or.inl hlt
    · exact Or.inr (Or.inl (bytes_injective heq))
    · exact Or.inr (Or.inr hgt)

theorem lt_strictOrder : StrictOrder lt where
  irrefl a := by
    cases a with
    | normal name => exact nameLt_strictOrder.irrefl name
    | _ => rfl
  trans {a b c} hab hbc := by
    cases a <;> cases b <;> cases c <;> simp [lt, rank] at hab hbc ⊢
    exact nameLt_strictOrder.trans hab hbc
  connex a b := by
    cases a <;> cases b <;> simp [lt, rank]
    exact nameLt_strictOrder.connex _ _

end Component

theorem componentsLt_eq_lex (as bs : List Component) :
    componentsLt as bs = as.lex bs Component.lt := by
  induction as generalizing bs with
  | nil => cases bs <;> rfl
  | cons a as ih =>
    cases bs with
    | nil => rfl
    | cons b bs => rw [componentsLt, List.cons_lex_cons, ih]

theorem componentsLt_strictOrder : StrictOrder componentsLt := by
  have heq : componentsLt = fun as bs => as.lex bs Component.lt := by
    funext as bs
    exact componentsLt_eq_lex as bs
  rw [heq]
  exact Component.lt_strictOrder.lex

/-- Of two paths with different components one is in front of the other. -/
theorem lt_or_lt_of_not_same {p q : Path} (h : p.same q = false) : p.lt q ∨ q.lt p := by
  rcases componentsLt_strictOrder.connex p.components q.components with hlt | heq | hgt
  · exact Or.inl hlt
  · simp [same, heq] at h
  · exact Or.inr hgt

theorem ne_of_lt {p q : Path} (h : p.lt q) : p ≠ q := by
  rintro rfl
  exact componentsLt_strictOrder.ne h rfl

/-- Paths in strict order are determined by which paths they are. -/
theorem eq_of_pairwise_lt {ps qs : List Path} (hps : ps.Pairwise fun p q => p.lt q)
    (hqs : qs.Pairwise fun p q => p.lt q) (h : ∀ p, p ∈ ps ↔ p ∈ qs) : ps = qs := by
  have hperm : ps.Perm qs :=
    (List.perm_ext_iff_of_nodup (hps.imp ne_of_lt) (hqs.imp ne_of_lt)).mpr h
  refine hperm.eq_of_pairwise ?_ hps hqs
  intro p q _ _ hpq hqp
  have hback : q.lt p = false := componentsLt_strictOrder.asymm hpq
  rw [hback] at hqp
  cases hqp

end Path

end DocGate

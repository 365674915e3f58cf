/-
DocGate.Proofs.Grammar.Walk — what a walk visits.

A walk keeps a stack, but what it visits is told without one. Every thing that is
visited has a place, the list of the turns that lead down to it. In lexicographic order
a place comes before the places below it, and these before the places below its next
sibling.

* `Descent.walk_eq_cons` — a walk is a thing, and then one after the other the walks of
  what lies just below it.
* `ListsByPlace` — a list follows the order of the places and has one member for each.
  So nothing is lost, nothing comes twice, and it is said what comes when.
* `Descent.walk_listsByPlace` — a walk lists everything below a thing in this sense.
* `ListsByPlace.filterMap` — what is kept of such a list is listed again. What is kept
  must be told by the place, and the same must be kept of one place.

The results hold for every `Descent`, be it to nodes or to nodes with those around them.
-/
import Mathlib.Data.List.Forall2
import DocGate.Grammar.Walk
import DocGate.Proofs.Grammar.Preorder

namespace DocGate.Grammar

/-! ## Lists in the order of places -/

/-- The list has one member for each place at which `R` finds something, and it is what `R`
finds there. The members stand in the lexicographic order of their places. -/
def ListsByPlace {β : Type} (R : List Nat → β → Prop) (l : List β) : Prop :=
  ∃ places : List (List Nat),
    places.Pairwise (· < ·) ∧ (∀ p, p ∈ places ↔ ∃ b, R p b) ∧ List.Forall₂ R places l

namespace ListsByPlace

variable {β γ : Type} {R S : List Nat → β → Prop} {l l' : List β}

theorem congr (h : ListsByPlace R l) (hRS : ∀ p b, R p b ↔ S p b) : ListsByPlace S l := by
  have heq : R = S := by
    funext p b
    exact propext (hRS p b)
  exact heq ▸ h

theorem nil : ListsByPlace (fun _ (_ : β) => False) [] := ⟨[], by simp⟩

theorem singleton (p : List Nat) (a : β) : ListsByPlace (fun q b => q = p ∧ b = a) [a] :=
  ⟨[p], by simp⟩

/-- Two lists follow one another if the places of the first one come first. -/
theorem append (h : ListsByPlace R l) (h' : ListsByPlace S l')
    (hlt : ∀ p b q c, R p b → S q c → p < q) :
    ListsByPlace (fun p b => R p b ∨ S p b) (l ++ l') := by
  obtain ⟨places, hsorted, hplaces, hmembers⟩ := h
  obtain ⟨places', hsorted', hplaces', hmembers'⟩ := h'
  refine ⟨places ++ places', ?_, fun p => ?_, ?_⟩
  · refine List.pairwise_append.mpr ⟨hsorted, hsorted', fun p hp q hq => ?_⟩
    obtain ⟨b, hb⟩ := (hplaces p).mp hp
    obtain ⟨c, hc⟩ := (hplaces' q).mp hq
    exact hlt p b q c hb hc
  · rw [List.mem_append, hplaces, hplaces', ← exists_or]
  · exact List.rel_append (hmembers.imp fun _ _ => .inl) (hmembers'.imp fun _ _ => .inr)

/-- What is found at the places that `f` moves, if `R` finds it where they were before. -/
def Moved (f : List Nat → List Nat) (R : List Nat → β → Prop) (p : List Nat) (b : β) : Prop :=
  ∃ q, p = f q ∧ R q b

/-- A list stays as it is when its places are moved and keep their order. -/
theorem moved {f : List Nat → List Nat} (h : ListsByPlace R l)
    (hf : ∀ p q, p < q → f p < f q) : ListsByPlace (Moved f R) l := by
  obtain ⟨places, hsorted, hplaces, hmembers⟩ := h
  refine ⟨places.map f, ?_, fun p => ?_, ?_⟩
  · exact List.pairwise_map.mpr (hsorted.imp fun hlt => hf _ _ hlt)
  · rw [List.mem_map]
    constructor
    · rintro ⟨q, hq, rfl⟩
      obtain ⟨b, hb⟩ := (hplaces q).mp hq
      exact ⟨b, q, rfl, hb⟩
    · rintro ⟨b, q, rfl, hb⟩
      exact ⟨q, (hplaces q).mpr ⟨b, hb⟩, rfl⟩
  · exact List.forall₂_map_left_iff.mpr (hmembers.imp fun q b hb => ⟨q, rfl, hb⟩)

/-- What is kept of a list is listed by the places of what it is kept from. -/
theorem filterMap {Q : List Nat → γ → Prop} (h : ListsByPlace R l)
    (hunique : ∀ p b b', R p b → R p b' → b = b') (g : β → Option γ)
    (hkept : ∀ p b c, R p b → g b = some c → Q p c)
    (hQ : ∀ p c, Q p c → ∃ b c', R p b ∧ g b = some c') : ListsByPlace Q (l.filterMap g) := by
  classical
  obtain ⟨places, hsorted, hplaces, hmembers⟩ := h
  refine ⟨places.filter fun p => ∃ c, Q p c, hsorted.filter _, fun p => ?_, ?_⟩
  · rw [List.mem_filter, decide_eq_true_eq, hplaces]
    refine ⟨And.right, fun ⟨c, hc⟩ => ⟨?_, c, hc⟩⟩
    obtain ⟨b, -, hb, -⟩ := hQ p c hc
    exact ⟨b, hb⟩
  · clear hsorted hplaces
    induction hmembers with
    | nil => exact .nil
    | @cons p b places l hb _ ih =>
      cases hg : g b with
      | none =>
        have hp : ¬ ∃ c, Q p c := by
          rintro ⟨c, hc⟩
          obtain ⟨b', c', hb', hg'⟩ := hQ p c hc
          rw [hunique p b' b hb' hb, hg] at hg'
          cases hg'
        rw [List.filterMap_cons_none hg, List.filter_cons_of_neg (by simpa using hp)]
        exact ih
      | some c =>
        have hc : Q p c := hkept p b c hb hg
        rw [List.filterMap_cons_some hg, List.filter_cons_of_pos (by simpa using ⟨c, hc⟩)]
        exact .cons hc ih

end ListsByPlace

/-! ## Walks -/

namespace Descent

variable {α : Type} (d : Descent α)

/-- What holds of the empty stack, and of a stack as soon as it holds of the next one, holds of
every stack. -/
theorem stackInduction {motive : List α → Prop} (nil : motive [])
    (cons : ∀ a stack, motive (d.below a ++ stack) → motive (a :: stack)) (stack : List α) :
    motive stack := by
  generalize hfound : ([] : List α) = found
  clear hfound
  fun_induction d.walkFrom found stack with
  | case1 _ => exact nil
  | case2 _ a stack ih => exact cons a stack ih

/-- What holds of a thing as soon as it holds of all that lies just below it holds of
everything. -/
theorem inductionOn {motive : α → Prop}
    (thing : ∀ a, (∀ b ∈ d.below a, motive b) → motive a) (a : α) : motive a := by
  have hstack : ∀ b ∈ [a], motive b := by
    refine d.stackInduction (motive := fun stack => ∀ b ∈ stack, motive b) (by simp) ?_ [a]
    intro a stack hnext b hb
    rcases List.mem_cons.mp hb with rfl | hb
    · exact thing b fun c hc => hnext c (List.mem_append_left _ hc)
    · exact hnext b (List.mem_append_right _ hb)
  exact hstack a List.mem_cons_self

theorem walkFrom_eq_append (stack found : List α) :
    d.walkFrom found stack = found.reverse ++ d.walkFrom [] stack := by
  induction stack using d.stackInduction generalizing found with
  | nil => simp [walkFrom]
  | cons a stack ih =>
    rw [walkFrom, walkFrom, ih (a :: found), ih [a], List.reverse_cons, List.append_assoc]
    rfl

theorem walkFrom_append (stack later : List α) :
    d.walkFrom [] (stack ++ later) = d.walkFrom [] stack ++ d.walkFrom [] later := by
  induction stack using d.stackInduction with
  | nil => simp [walkFrom]
  | cons a stack ih =>
    rw [List.cons_append, walkFrom, walkFrom, d.walkFrom_eq_append _ [a],
      d.walkFrom_eq_append (d.below a ++ stack) [a], ← List.append_assoc, ih, List.append_assoc]

theorem walkFrom_eq_flatMap (stack : List α) : d.walkFrom [] stack = stack.flatMap d.walk := by
  induction stack with
  | nil => simp [walkFrom]
  | cons a stack ih =>
    rw [List.flatMap_cons, ← ih, ← List.singleton_append, walkFrom_append]
    rfl

/-- A walk is the thing it starts at and then, one after the other, the walks of what lies just
below. -/
theorem walk_eq_cons (a : α) : d.walk a = a :: (d.below a).flatMap d.walk := by
  rw [walk, walkFrom, d.walkFrom_eq_append _ [a], List.append_nil, walkFrom_eq_flatMap]
  rfl

/-- A listing that starts with a thing and goes on with the listings of what lies just below is
the walk. -/
theorem walk_unique {pre : α → List α} (hpre : ∀ a, pre a = a :: (d.below a).flatMap pre)
    (a : α) : pre a = d.walk a := by
  induction a using d.inductionOn with
  | thing a ih => rw [hpre, walk_eq_cons, List.flatMap_congr ih]

/-- What is found at a place: at the root the thing itself, and else what is found further on
from the one of those just below to which the first turn leads. -/
def at? : List Nat → α → Option α
  | [], a => some a
  | i :: p, a => (d.below a)[i]?.bind (at? p)

theorem at?_concat (p : List Nat) (i : Nat) (a : α) :
    d.at? (p ++ [i]) a = (d.at? p a).bind fun b => (d.below b)[i]? := by
  induction p generalizing a with
  | nil => simp [at?]
  | cons j p ih =>
    rw [List.cons_append, at?, at?, Option.bind_assoc]
    congr 1
    funext b
    exact ih b

/-- What is found below a row of siblings. -/
def AtBelow (row : List α) (p : List Nat) (b : α) : Prop :=
  ∃ i q c, p = i :: q ∧ row[i]? = some c ∧ d.at? q c = some b

/-- The same place below a row of siblings that has one more member in front. -/
def nextTurn : List Nat → List Nat
  | [] => []
  | i :: p => (i + 1) :: p

theorem nextTurn_lt (p q : List Nat) (h : p < q) : nextTurn p < nextTurn q := by
  cases q with
  | nil => exact absurd h (List.not_lt_nil p)
  | cons j q =>
    cases p with
    | nil => exact List.nil_lt_cons (j + 1) q
    | cons i p =>
      rw [List.cons_lt_cons_iff] at h
      rw [nextTurn, nextTurn, List.cons_lt_cons_iff]
      exact h.imp Nat.succ_lt_succ (And.imp_left (congrArg Nat.succ))

theorem atBelow_cons (c : α) (row : List α) (p : List Nat) (b : α) :
    d.AtBelow (c :: row) p b ↔
      ListsByPlace.Moved (0 :: ·) (fun q b => d.at? q c = some b) p b ∨
        ListsByPlace.Moved nextTurn (d.AtBelow row) p b := by
  constructor
  · rintro ⟨i, q, c', rfl, hc', hb⟩
    cases i with
    | zero =>
      cases hc'
      exact .inl ⟨q, rfl, hb⟩
    | succ i => exact .inr ⟨i :: q, rfl, i, q, c', rfl, hc', hb⟩
  · rintro (⟨q, rfl, hb⟩ | ⟨_, rfl, i, q, c', rfl, hc', hb⟩)
    · exact ⟨0, q, c, rfl, rfl, hb⟩
    · exact ⟨i + 1, q, c', rfl, hc', hb⟩

theorem flatMap_walk_listsByPlace (row : List α)
    (hrow : ∀ c ∈ row, ListsByPlace (fun p b => d.at? p c = some b) (d.walk c)) :
    ListsByPlace (d.AtBelow row) (row.flatMap d.walk) := by
  induction row with
  | nil =>
    refine ListsByPlace.nil.congr fun p b => ⟨False.elim, ?_⟩
    rintro ⟨i, q, c, -, hc, -⟩
    simp at hc
  | cons c row ih =>
    have hfirst := (hrow c List.mem_cons_self).moved (f := (0 :: ·)) fun p q hlt =>
      List.cons_lt_cons_self.mpr hlt
    have hlater := (ih fun c' hc' => hrow c' (List.mem_cons_of_mem _ hc')).moved nextTurn_lt
    rw [List.flatMap_cons]
    refine (hfirst.append hlater ?_).congr fun p b => (d.atBelow_cons c row p b).symm
    rintro _ _ _ _ ⟨p, rfl, -⟩ ⟨_, rfl, i, q, c', rfl, -⟩
    exact List.cons_lt_cons_iff.mpr (.inl (Nat.succ_pos i))

/-- A walk lists a thing and everything below it, each once, in the order of their places. -/
theorem walk_listsByPlace (a : α) :
    ListsByPlace (fun p b => d.at? p a = some b) (d.walk a) := by
  induction a using d.inductionOn with
  | thing a ih =>
    rw [walk_eq_cons]
    refine ((ListsByPlace.singleton [] a).append (d.flatMap_walk_listsByPlace _ ih) ?_).congr
      fun p b => ?_
    · rintro _ _ _ _ ⟨rfl, -⟩ ⟨i, q, c, rfl, -⟩
      exact List.nil_lt_cons i q
    · cases p with
      | nil => simp [AtBelow, at?, eq_comm]
      | cons i q => simp [AtBelow, at?, Option.bind_eq_some_iff]

end Descent

/-! ## The walk of a tree -/

namespace ParseTree

variable {κ : Type}

theorem walk_eq_preorder (t : ParseTree κ) : visible.walk t = t.preorder :=
  (visible.walk_unique preorder_eq_cons t).symm

end ParseTree

end DocGate.Grammar

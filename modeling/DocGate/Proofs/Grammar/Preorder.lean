/-
DocGate.Proofs.Grammar.Preorder — the nodes of a tree.

* `ParseTree.preorder_eq_cons` — preorder collects onto a list that is still to come;
  here it is the plain recursive listing.
* `ParseTree.mem_preorder_trans` — what is below a node of a tree is in the tree.
* `ParseTree.occurrences` — the listing that measures go through: the nodes that are
  reached through named children only, each with the nodes around it.
* `ParseTree.occurrencesFrom_within` — the listing of a node inside a tree is one
  unbroken stretch of the listing of the tree. So what lies inside the node occurs
  there, and occurs once.

All of this holds for every tree of every language.
-/
import DocGate.Grammar.ParseTree

namespace DocGate.Grammar

namespace ParseTree

variable {κ : Type}

mutual

/-- What holds of a node whenever it holds of all its children holds of every tree. -/
@[elab_as_elim]
theorem inductionOn {motive : ParseTree κ → Prop}
    (node : ∀ (k : κ) (r : Role) (f : Option Field) (row : Nat) (s : String)
      (cs : List (ParseTree κ)), (∀ c ∈ cs, motive c) → motive (.node k r f row s cs)) :
    ∀ t : ParseTree κ, motive t
  | .node k r f row s cs => node k r f row s cs (inductionOnAll node cs)

theorem inductionOnAll {motive : ParseTree κ → Prop}
    (node : ∀ (k : κ) (r : Role) (f : Option Field) (row : Nat) (s : String)
      (cs : List (ParseTree κ)), (∀ c ∈ cs, motive c) → motive (.node k r f row s cs)) :
    ∀ cs : List (ParseTree κ), ∀ c ∈ cs, motive c
  | [], c, hc => by simp at hc
  | d :: ds, c, hc =>
    (List.mem_cons.mp hc).elim (fun h => h ▸ inductionOn node d)
      (fun h => inductionOnAll node ds c h)

end

/-! ## Visible nodes -/

mutual

theorem preorderOnto_eq_append (later : List (ParseTree κ)) :
    ∀ t : ParseTree κ, preorderOnto later t = preorderOnto [] t ++ later
  | .node k r f row s cs => by
      simp only [preorderOnto, List.cons_append]
      rw [preorderAllOnto_eq_append later cs]

theorem preorderAllOnto_eq_append (later : List (ParseTree κ)) :
    ∀ cs : List (ParseTree κ), preorderAllOnto later cs = preorderAllOnto [] cs ++ later
  | [] => rfl
  | c :: cs => by
      simp only [preorderAllOnto]
      rw [preorderAllOnto_eq_append later cs]
      split
      · rw [preorderOnto_eq_append _ c, preorderOnto_eq_append (preorderAllOnto [] cs) c,
          List.append_assoc]
      · rfl

end

theorem preorderAllOnto_nil (cs : List (ParseTree κ)) :
    preorderAllOnto [] cs = (cs.filter isVisible).flatMap preorder := by
  induction cs with
  | nil => rfl
  | cons c cs ih =>
    simp only [preorderAllOnto]
    by_cases hc : c.isVisible
    · rw [if_pos hc, preorderOnto_eq_append, ih, List.filter_cons_of_pos hc, List.flatMap_cons]
      rfl
    · rw [if_neg hc, ih, List.filter_cons_of_neg hc]

/-- The listing of a tree is its root and then the listings of the visible children. -/
theorem preorder_eq_cons (t : ParseTree κ) :
    t.preorder = t :: t.visibleChildren.flatMap preorder := by
  obtain ⟨k, r, f, row, s, cs⟩ := t
  simp only [preorder, preorderOnto]
  rw [preorderAllOnto_nil]
  rfl

theorem mem_preorder_self (t : ParseTree κ) : t ∈ t.preorder := by
  rw [preorder_eq_cons]
  exact List.mem_cons_self

theorem mem_preorder_of_child {t c v : ParseTree κ} (hc : c ∈ t.visibleChildren)
    (hv : v ∈ c.preorder) : v ∈ t.preorder := by
  rw [preorder_eq_cons]
  exact List.mem_cons_of_mem _ (List.mem_flatMap.mpr ⟨c, hc, hv⟩)

/-- What is below a node of a tree is in the tree. -/
theorem mem_preorder_trans {t u v : ParseTree κ} (hv : v ∈ u.preorder) (hu : u ∈ t.preorder) :
    v ∈ t.preorder := by
  induction t using inductionOn with
  | node k r f row s cs ih =>
    rw [preorder_eq_cons] at hu
    rcases List.mem_cons.mp hu with rfl | hu
    · exact hv
    · obtain ⟨c, hc, huc⟩ := List.mem_flatMap.mp hu
      exact mem_preorder_of_child hc (ih c (List.mem_filter.mp hc).1 huc)

theorem isVisible_of_isNamed {t : ParseTree κ} (h : t.isNamed) : t.isVisible := by
  simp only [isNamed, beq_iff_eq] at h
  simp [isVisible, h]

/-! ## Named nodes with what is around them -/

/-- A node inside a tree, with the nodes of the tree around it, the nearest first. -/
structure Occurrence (κ : Type) where
  node : ParseTree κ
  ancestors : List (ParseTree κ)

mutual

/-- The node inside `ancestors`, and then everything below it that is reached through named
children. -/
def occurrencesFrom (ancestors : List (ParseTree κ)) : ParseTree κ → List (Occurrence κ)
  | t@(.node _ _ _ _ _ cs) => ⟨t, ancestors⟩ :: occurrencesAll (t :: ancestors) cs

/-- The named ones among siblings, each followed by what is below it. -/
def occurrencesAll (ancestors : List (ParseTree κ)) : List (ParseTree κ) → List (Occurrence κ)
  | [] => []
  | c :: cs =>
    if c.isNamed then occurrencesFrom ancestors c ++ occurrencesAll ancestors cs
    else occurrencesAll ancestors cs

end

/-- The nodes of a tree that are reached through named children, a parent before its children
and siblings in source order. -/
def occurrences (t : ParseTree κ) : List (Occurrence κ) := occurrencesFrom [] t

mutual

/-- The listing of a node inside a tree is one stretch of the listing of the tree. -/
theorem occurrencesFrom_within (ancestors : List (ParseTree κ)) :
    ∀ (t : ParseTree κ) (o : Occurrence κ), o ∈ occurrencesFrom ancestors t →
      occurrencesFrom o.ancestors o.node <:+: occurrencesFrom ancestors t
  | .node k r f row s cs, o, ho => by
      rw [occurrencesFrom] at ho
      rcases List.mem_cons.mp ho with rfl | ho
      · exact List.infix_rfl
      · rw [occurrencesFrom.eq_def ancestors]
        exact (occurrencesAll_within _ cs o ho).trans (List.suffix_cons _ _).isInfix

theorem occurrencesAll_within (ancestors : List (ParseTree κ)) :
    ∀ (cs : List (ParseTree κ)) (o : Occurrence κ), o ∈ occurrencesAll ancestors cs →
      occurrencesFrom o.ancestors o.node <:+: occurrencesAll ancestors cs
  | [], o, ho => by simp [occurrencesAll] at ho
  | c :: cs, o, ho => by
      simp only [occurrencesAll] at ho ⊢
      split at ho
      · rename_i hc
        rw [if_pos hc]
        rcases List.mem_append.mp ho with ho | ho
        · exact (occurrencesFrom_within ancestors c o ho).trans (List.prefix_append _ _).isInfix
        · exact (occurrencesAll_within ancestors cs o ho).trans (List.suffix_append _ _).isInfix
      · rename_i hc
        rw [if_neg hc]
        exact occurrencesAll_within ancestors cs o ho

end

end ParseTree

end DocGate.Grammar

/-
DocGate.Proofs.Outline.Shape — scores and the shape of an outline.

A score depends on the constructs that cost something, each with the number of nesting
constructs around it (`Outline.placedFrom`), and on nothing else.

* `Outline.Reshapes` — so it does not matter in which order constructs stand, which
  nodes of no account hold them together, or which other functions are called.
* `place`, `place_listing` — the listing of an outline counts around a construct all
  constructs, not only those that nest. The nesting ones are found again: going through
  a listing from top to bottom, the constructs around an entry are the last that were
  met at each smaller depth.
* `score_of_shape` — outlines that are reshaped into one another, at any depth and any
  number of times, have the same score, and so have outlines with the same listing; with
  the sum that the score comes to.

Which calls may be forgotten depends on the name, since a call of the function itself
does cost something.
-/
import DocGate.Proofs.Outline.ExactScore
import Mathlib.Algebra.BigOperators.Group.List.Basic
import Mathlib.Logic.Relation

namespace DocGate

namespace Outline

/-! ## Changes of the shape -/

/-- One change that leaves alone what is scored in the function `name`. -/
inductive Reshapes (name : String) : Outline → Outline → Prop
  /-- The children of a node of no account take its place. -/
  | splice (k : Construct) (before cs after : List Outline) :
      Reshapes name (.node k (before ++ .node .other cs :: after))
        (.node k (before ++ (cs ++ after)))
  | permute (k : Construct) {cs cs' : List Outline} (h : cs.Perm cs') :
      Reshapes name (.node k cs) (.node k cs')
  /-- A call of something else is of no account. -/
  | call {callee : Option String} (h : callee ≠ some name) (cs : List Outline) :
      Reshapes name (.node (.call callee) cs) (.node .other cs)
  /-- A change in one of the children. -/
  | inside {c c' : Outline} (k : Construct) (before after : List Outline)
      (h : Reshapes name c c') :
      Reshapes name (.node k (before ++ c :: after)) (.node k (before ++ c' :: after))

theorem exact_other (name : String) (depth : Nat) (cs : List Outline) :
    exact name depth (.node .other cs) = exactAll name depth cs := by
  simp [exact, Construct.cost, Construct.depthInside, Construct.nests]

theorem exactAll_perm {cs cs' : List Outline} (h : cs.Perm cs') (name : String) (depth : Nat) :
    exactAll name depth cs = exactAll name depth cs' := by
  rw [exactAll_eq_sum, exactAll_eq_sum]
  exact (h.map _).sum_eq

/-- A change of the shape leaves the exact score at every depth. -/
theorem Reshapes.exact_eq {name : String} {o o' : Outline} (h : Reshapes name o o')
    (depth : Nat) : exact name depth o = exact name depth o' := by
  induction h generalizing depth with
  | splice k before cs after =>
    simp only [exact.eq_def name depth, exactAll_append, exactAll, exact_other]
  | permute k hperm => rw [exact, exact, exactAll_perm hperm]
  | call hcallee cs =>
    simp [exact, Construct.cost, Construct.depthInside, Construct.nests, hcallee]
  | inside k before after _ ih =>
    rw [exact, exact, exactAll_append, exactAll_append, exactAll, exactAll, ih]

theorem exact_eq_of_reshaped {name : String} {o o' : Outline}
    (h : Relation.EqvGen (Reshapes name) o o') : exact name 0 o = exact name 0 o' :=
  congrArg (Quot.lift (exact name 0) fun _ _ hstep => hstep.exact_eq 0) (Quot.eqvGen_sound h)

/-! ## The constructs with the nesting around them -/

mutual

/-- The nodes other than `Construct.other`, each with the number of conditionals, loops and
handlers around it, a parent before its children. -/
def placedFrom (depth : Nat) : Outline → List (Nat × Construct)
  | node .other cs => placedAll depth cs
  | node k cs => (depth, k) :: placedAll (k.depthInside depth) cs

/-- The nodes of several outlines. -/
def placedAll (depth : Nat) : List Outline → List (Nat × Construct)
  | [] => []
  | c :: cs => c.placedFrom depth ++ placedAll depth cs

end

/-- What some constructs cost, each at its depth. -/
def placedCost (name : String) (ps : List (Nat × Construct)) : Nat :=
  (ps.map fun p => p.2.cost name p.1).sum


@[simp] theorem placedCost_cons (name : String) (p : Nat × Construct)
    (ps : List (Nat × Construct)) :
    placedCost name (p :: ps) = p.2.cost name p.1 + placedCost name ps := rfl

@[simp] theorem placedCost_append (name : String) (ps qs : List (Nat × Construct)) :
    placedCost name (ps ++ qs) = placedCost name ps + placedCost name qs := by
  simp [placedCost]

theorem placedFrom_node {k : Construct} (hk : k ≠ .other) (depth : Nat) (cs : List Outline) :
    placedFrom depth (.node k cs) = (depth, k) :: placedAll (k.depthInside depth) cs := by
  cases k with
  | other => exact absurd rfl hk
  | _ => rfl

theorem listingFrom_node {k : Construct} (hk : k ≠ .other) (depth : Nat) (cs : List Outline) :
    listingFrom depth (.node k cs) = (depth, k) :: listingAll (depth + 1) cs := by
  cases k with
  | other => exact absurd rfl hk
  | _ => rfl

mutual

/-- The exact score adds up over the constructs with their nesting. -/
theorem exact_eq_placedCost (name : String) (depth : Nat) :
    ∀ o : Outline, exact name depth o = placedCost name (o.placedFrom depth)
  | node k cs => by
      by_cases hk : k = .other
      · subst hk
        rw [exact_other, placedFrom, exactAll_eq_placedCost name depth cs]
      · rw [exact, placedFrom_node hk, placedCost_cons, exactAll_eq_placedCost name _ cs]

theorem exactAll_eq_placedCost (name : String) (depth : Nat) :
    ∀ os : List Outline, exactAll name depth os = placedCost name (placedAll depth os)
  | [] => rfl
  | o :: os => by
      rw [exactAll, placedAll, placedCost_append, exact_eq_placedCost name depth o,
        exactAll_eq_placedCost name depth os]

end

/-! ## Nesting read off a listing -/

/-- The entries of a listing with the nesting around them, when `around` are the constructs around
the last entry, the nearest first, and that entry itself. -/
def place (around : List Construct) : List (Nat × Construct) → List (Nat × Construct)
  | [] => []
  | (depth, k) :: rest =>
    let kept := around.drop (around.length - depth)
    (kept.countP Construct.nests, k) :: place (k :: kept) rest

/-- An entry drops from `around` what is not around it. -/
theorem place_entry {kept around : List Construct} (h : kept <:+ around) (k : Construct)
    (rest : List (Nat × Construct)) :
    place around ((kept.length, k) :: rest)
      = (kept.countP Construct.nests, k) :: place (k :: kept) rest := by
  rw [place, ← List.suffix_iff_eq_drop.mp h]

theorem countP_nests_cons (k : Construct) (kept : List Construct) :
    (k :: kept).countP Construct.nests = k.depthInside (kept.countP Construct.nests) := by
  rw [List.countP_cons, Construct.depthInside]
  split <;> rfl

mutual

/-- The nodes of an outline inside the constructs `kept` are placed as they should, and what comes
next in the listing still has `kept` around it. -/
theorem place_listingFrom : ∀ (o : Outline) (kept around : List Construct)
    (rest : List (Nat × Construct)), kept <:+ around →
    ∃ around', kept <:+ around' ∧
      place around (o.listingFrom kept.length ++ rest)
        = o.placedFrom (kept.countP Construct.nests) ++ place around' rest
  | node k cs, kept, around, rest, h => by
      by_cases hk : k = .other
      · subst hk
        exact place_listingAll cs kept around rest h
      · obtain ⟨around', hkept, hplace⟩ :=
          place_listingAll cs (k :: kept) (k :: kept) rest List.suffix_rfl
        refine ⟨around', (List.suffix_cons k kept).trans hkept, ?_⟩
        rw [List.length_cons, countP_nests_cons] at hplace
        rw [listingFrom_node hk, placedFrom_node hk, List.cons_append, place_entry h, hplace,
          List.cons_append]

theorem place_listingAll : ∀ (os : List Outline) (kept around : List Construct)
    (rest : List (Nat × Construct)), kept <:+ around →
    ∃ around', kept <:+ around' ∧
      place around (listingAll kept.length os ++ rest)
        = placedAll (kept.countP Construct.nests) os ++ place around' rest
  | [], kept, around, rest, h => ⟨around, h, rfl⟩
  | o :: os, kept, around, rest, h => by
      obtain ⟨between, hbetween, hfirst⟩ :=
        place_listingFrom o kept around (listingAll kept.length os ++ rest) h
      obtain ⟨around', hkept, hlater⟩ := place_listingAll os kept between rest hbetween
      refine ⟨around', hkept, ?_⟩
      rw [listingAll, placedAll, List.append_assoc, hfirst, hlater, List.append_assoc]

end

theorem place_listing (o : Outline) : place [] o.listing = o.placedFrom 0 := by
  obtain ⟨around', -, hplace⟩ := place_listingFrom o [] [] [] List.suffix_rfl
  simpa [listing, place] using hplace

theorem score_eq_min_placedCost (name : String) (o : Outline) :
    o.score name = min (2 ^ 32 - 1) (placedCost name (o.placedFrom 0)) := by
  rw [score_eq_min_exact, exact_eq_placedCost]
  rfl

/-- **A score depends only on the shape of what is scored.** It is left by taking nodes of no
account out, by permuting children and by forgetting calls of other functions, at any depth and
in any number. Outlines with the same listing have the same score for every name, and so have
outlines with the same constructs under the same nesting, in whatever order: the score is what
these cost together, cut off at the largest number of 32 bits. -/
theorem score_of_shape (o o' : Outline) :
    (∀ name, Relation.EqvGen (Reshapes name) o o' → o.score name = o'.score name) ∧
    (o.listing = o'.listing → ∀ name, o.score name = o'.score name) ∧
    ((o.placedFrom 0).Perm (o'.placedFrom 0) → ∀ name, o.score name = o'.score name) ∧
    (∀ name, o.score name = min (2 ^ 32 - 1) (placedCost name (o.placedFrom 0))) := by
  refine ⟨?_, ?_, ?_, fun name => score_eq_min_placedCost name o⟩
  · intro name h
    rw [score_eq_min_exact, score_eq_min_exact, exact_eq_of_reshaped h]
  · intro h name
    rw [score_eq_min_placedCost, score_eq_min_placedCost, ← place_listing o, h, place_listing]
  · intro h name
    have hcost : placedCost name (o.placedFrom 0) = placedCost name (o'.placedFrom 0) :=
      (h.map _).sum_eq
    rw [score_eq_min_placedCost, score_eq_min_placedCost, hcost]

/-- A branch and a conditional expression in a loop. -/
def busyLoop : Outline := .node .loop [.node .conditional [], .node .ternary []]

/-- The loop in a node of no account, in front of a call of `g`. -/
def scattered : Outline := .node .other [.node .other [busyLoop], .node (.call (some "g")) []]

/-- The loop alone, with what is in it in the other order. -/
def gathered : Outline := .node .other [.node .loop [.node .ternary [], .node .conditional []]]

/-- Outside `g` the call of `g` is of no account, and neither is what holds the loop or the order
of what is in it. -/
theorem score_of_busyLoop :
    scattered.score "f" = gathered.score "f" ∧
    (Outline.node .other [busyLoop]).score "f" = busyLoop.score "f" ∧
    busyLoop.score "f" = gathered.score "f" := by
  have hcall : Reshapes "f" scattered (.node .other [.node .other [busyLoop], .node .other []]) :=
    .inside .other [.node .other [busyLoop]] [] (.call (by decide) [])
  have hholder : Reshapes "f" (.node .other [.node .other [busyLoop], .node .other []])
      (.node .other [busyLoop, .node .other []]) :=
    .splice .other [] [busyLoop] [.node .other []]
  have hempty : Reshapes "f" (.node .other [busyLoop, .node .other []])
      (.node .other [busyLoop]) :=
    .splice .other [busyLoop] [] []
  have horder : Reshapes "f" (.node .other [busyLoop]) gathered :=
    .inside .other [] [] (.permute .loop (.swap _ _ []))
  refine ⟨?_, ?_, ?_⟩
  · exact (score_of_shape scattered gathered).1 "f"
      (.trans _ _ _ (.rel _ _ hcall) (.trans _ _ _ (.rel _ _ hholder)
        (.trans _ _ _ (.rel _ _ hempty) (.rel _ _ horder))))
  · exact (score_of_shape (.node .other [busyLoop]) busyLoop).2.1 rfl "f"
  · exact (score_of_shape busyLoop gathered).2.2.1 (by decide) "f"

end Outline

end DocGate

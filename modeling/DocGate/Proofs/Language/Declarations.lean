/-
DocGate.Proofs.Language.Declarations — the units of a file.

Units are picked out of a walk. What makes a node of a tree a declaration is said here
of its place, without the walk.

* `Python.DeclaredAt` — looks at a node alone; `Script.DeclaredAt` also looks at the
  node around it, which may lend its name.
* `Python.unitsOfTree_listsByPlace`, `Script.unitsOfTree_listsByPlace` — the units of a
  tree are those of the places at which something is declared, one for each, in the
  order of the places. This holds for every tree.
* `units_follow_declarations` — the same for both families together, with the lines: in
  a tree whose nodes lie one behind the other (`ParseTree.InOrder`) the lines of units
  never decrease.

All trees that are read from a source are in order, so for the units of a text there is
no side condition.
-/
import DocGate.Language.Basic
import DocGate.Proofs.Grammar.Walk
import DocGate.Proofs.Python.Scanning
import DocGate.Proofs.Script.Scanning

namespace DocGate

open Grammar

/-- The unit shows the name, and the line and the outline of the function. -/
structure FunctionUnit.Shows {κ : Type} (u : FunctionUnit) (r : Reading κ) (f : ParseTree κ)
    (name : String) : Prop where
  name_eq : u.name = name
  line_eq : u.line = f.line
  outline_eq : u.outline = r.lower f

/-! ## Python -/

namespace Python

/-- At a place of a tree stands a function definition with a name. -/
structure DeclaredAt (t : ParseTree Kind) (p : List Nat) (f name : ParseTree Kind) : Prop where
  found : ParseTree.visible.at? p t = some f
  isFunction : f.kind = .functionDefinition
  hasName : f.child? .name = some name

/-- At a place of a tree stands a function definition with a name, and this is its unit. -/
def UnitAt (t : ParseTree Kind) (p : List Nat) (u : FunctionUnit) : Prop :=
  ∃ f name, DeclaredAt t p f name ∧ u.Shows reading f name.text

theorem shows_of_unitOf {f : ParseTree Kind} {u : FunctionUnit} (h : unitOf f = some u) :
    f.kind = .functionDefinition ∧
      ∃ name, f.child? .name = some name ∧ u.Shows reading f name.text := by
  rw [unitOf, Option.ite_none_right_eq_some] at h
  obtain ⟨hkind, h⟩ := h
  obtain ⟨name, hname, rfl⟩ := Option.map_eq_some_iff.mp h
  exact ⟨hkind, name, hname, rfl, rfl, rfl⟩

theorem unitOf_isSome {f name : ParseTree Kind} (hkind : f.kind = .functionDefinition)
    (hname : f.child? .name = some name) : ∃ u, unitOf f = some u := by
  rw [unitOf, if_pos hkind, hname]
  exact ⟨_, rfl⟩

theorem unitsOfTree_listsByPlace (t : ParseTree Kind) :
    ListsByPlace (UnitAt t) (unitsOfTree t) := by
  refine (ParseTree.visible.walk_listsByPlace t).filterMap (fun p f f' hf hf' => ?_) unitOf ?_ ?_
  · exact Option.some.inj (hf.symm.trans hf')
  · intro p f u hf hu
    obtain ⟨hkind, name, hname, hshows⟩ := shows_of_unitOf hu
    exact ⟨f, name, ⟨hf, hkind, hname⟩, hshows⟩
  · rintro p u ⟨f, name, ⟨hf, hkind, hname⟩, -⟩
    obtain ⟨u', hu'⟩ := unitOf_isSome hkind hname
    exact ⟨f, u', hf, hu'⟩

theorem pairwise_line_unitsOfTree {t : ParseTree Kind} (h : t.InOrder) :
    (unitsOfTree t).Pairwise fun u v => u.line ≤ v.line := by
  rw [unitsOfTree, ParseTree.walk_eq_preorder, List.pairwise_filterMap]
  refine h.pairwise_preorder.imp fun {f g} hrow u hu v hv => ?_
  obtain ⟨-, _, -, hshows⟩ := shows_of_unitOf hu
  obtain ⟨-, _, -, hshows'⟩ := shows_of_unitOf hv
  rw [hshows.line_eq, hshows'.line_eq]
  exact Nat.succ_le_succ hrow

end Python

/-! ## JavaScript and TypeScript -/

namespace Script

/-- The node around a place of a tree lends a name to what stands there. -/
def BorrowedAt (t : ParseTree Kind) (p : List Nat) (name : ParseTree Kind) : Prop :=
  ∃ q i parent, p = q ++ [i] ∧ ParseTree.visible.at? q t = some parent ∧
    lendsName parent.kind ∧ parent.child? .name = some name ∧ isLendable name.kind

/-- At a place of a tree stands a function with a body and a name: its own, or else the one that
it borrows from the node around it. -/
structure DeclaredAt (t : ParseTree Kind) (p : List Nat) (f name : ParseTree Kind) : Prop where
  found : ParseTree.visible.at? p t = some f
  isFunction : isFunction f.kind
  hasBody : (f.child? .body).isSome
  hasName : (namesItself f.kind ∧ f.child? .name = some name) ∨
    (¬ (namesItself f.kind ∧ (f.child? .name).isSome) ∧ BorrowedAt t p name)

/-- At a place of a tree a function is declared, and this is its unit. The name is shown without
its quotes. -/
def UnitAt (t : ParseTree Kind) (p : List Nat) (u : FunctionUnit) : Prop :=
  ∃ f name, DeclaredAt t p f name ∧ u.Shows reading f (Text.unquote name.text)

/-! ### Nodes with their surroundings -/

/-- A walk with surroundings visits the same nodes. -/
theorem map_tree_walk (n : Sited) :
    (Sited.visible.walk n).map Sited.tree = ParseTree.visible.walk n.tree := by
  induction n using Sited.visible.inductionOn with
  | thing n ih =>
    have hbelow : n.below.map Sited.tree = n.tree.visibleChildren := by
      rw [Sited.below, List.map_map]
      exact List.map_id _
    rw [Descent.walk_eq_cons, Descent.walk_eq_cons, List.map_cons, List.map_flatMap,
      List.flatMap_congr ih]
    show _ = n.tree :: n.tree.visibleChildren.flatMap _
    rw [← hbelow, List.flatMap_map]
    rfl

/-- What stands at a place does not depend on whether its surroundings are remembered. -/
theorem map_tree_at? (p : List Nat) (n : Sited) :
    (Sited.visible.at? p n).map Sited.tree = ParseTree.visible.at? p n.tree := by
  induction p generalizing n with
  | nil => rfl
  | cons i p ih =>
    rw [Descent.at?, Descent.at?]
    show Option.map _ ((n.tree.visibleChildren.map fun c => Sited.mk c (n.tree :: n.around))[i]?.bind
      _) = (n.tree.visibleChildren[i]?).bind _
    rw [List.getElem?_map]
    cases n.tree.visibleChildren[i]? with
    | none => rfl
    | some c => exact ih ⟨c, n.tree :: n.around⟩

/-- The nearest node around a place is the one that stands there without the last turn. -/
theorem head?_around {t : ParseTree Kind} {p : List Nat} {n : Sited}
    (h : Sited.visible.at? p ⟨t, []⟩ = some n) (parent : ParseTree Kind) :
    n.around.head? = some parent ↔
      ∃ q i, p = q ++ [i] ∧ ParseTree.visible.at? q t = some parent := by
  rcases List.eq_nil_or_concat p with rfl | ⟨q, i, rfl⟩
  · cases h
    simp
  · rw [List.concat_eq_append, Descent.at?_concat] at h
    obtain ⟨m, hm, hn⟩ := Option.bind_eq_some_iff.mp h
    have hq : ParseTree.visible.at? q t = some m.tree := by
      rw [← map_tree_at? q ⟨t, []⟩, hm]
      rfl
    have haround : n.around.head? = some m.tree := by
      obtain ⟨c, -, rfl⟩ := List.mem_map.mp (List.mem_of_getElem? hn)
      rfl
    rw [haround, List.concat_eq_append]
    constructor
    · rintro ⟨⟩
      exact ⟨q, i, rfl, hq⟩
    · rintro ⟨q', i', heq, hq'⟩
      obtain ⟨rfl, -⟩ := List.append_inj' heq rfl
      exact hq.symm.trans hq'

theorem borrowedName_eq_some_iff {t : ParseTree Kind} {p : List Nat} {n : Sited}
    (h : Sited.visible.at? p ⟨t, []⟩ = some n) (name : ParseTree Kind) :
    borrowedName n.around = some name ↔ BorrowedAt t p name := by
  have hparent := head?_around h
  constructor
  · intro hname
    unfold borrowedName at hname
    split at hname
    · rename_i parent rest haround
      rw [Option.ite_none_right_eq_some] at hname
      obtain ⟨hlends, hname⟩ := hname
      obtain ⟨hname, hlendable⟩ := Option.filter_eq_some_iff.mp hname
      obtain ⟨q, i, hp, hq⟩ := (hparent parent).mp (by rw [haround]; rfl)
      exact ⟨q, i, parent, hp, hq, hlends, hname, hlendable⟩
    · cases hname
  · rintro ⟨q, i, parent, hp, hq, hlends, hname, hlendable⟩
    have hhead := (hparent parent).mpr ⟨q, i, hp, hq⟩
    obtain ⟨rest, haround⟩ := List.head?_eq_some_iff.mp hhead
    rw [haround, borrowedName, if_pos hlends, hname, Option.filter_some, if_pos hlendable]

/-! ### Units -/

/-- A function with a body is called by its own name, or else by the one it borrows. -/
theorem functionName_eq_some_iff {t : ParseTree Kind} {p : List Nat} {n : Sited}
    (h : Sited.visible.at? p ⟨t, []⟩ = some n) (s : String) :
    functionName n = some s ↔
      ∃ name, DeclaredAt t p n.tree name ∧ Text.unquote name.text = s := by
  have hfound : ParseTree.visible.at? p t = some n.tree := by
    rw [← map_tree_at? p ⟨t, []⟩, h]
    rfl
  have hname (name : ParseTree Kind) :
      ((if namesItself n.tree.kind then n.tree.child? .name else none).or
          (borrowedName n.around)) = some name ↔
        (namesItself n.tree.kind ∧ n.tree.child? .name = some name) ∨
          (¬ (namesItself n.tree.kind ∧ (n.tree.child? .name).isSome) ∧
            BorrowedAt t p name) := by
    rw [Option.or_eq_some_iff, borrowedName_eq_some_iff h, Option.ite_none_right_eq_some]
    refine or_congr_right (and_congr_left fun _ => ?_)
    by_cases hself : namesItself n.tree.kind <;> simp [hself]
  rw [functionName, Option.ite_none_right_eq_some, Bool.and_eq_true, Option.map_eq_some_iff]
  constructor
  · rintro ⟨⟨hfunction, hbody⟩, name, hown, rfl⟩
    exact ⟨name, ⟨hfound, hfunction, hbody, (hname name).mp hown⟩, rfl⟩
  · rintro ⟨name, ⟨-, hfunction, hbody, hown⟩, rfl⟩
    exact ⟨⟨hfunction, hbody⟩, name, (hname name).mpr hown, rfl⟩

theorem shows_of_unitOf {lines : Array String} {n : Sited} {u : FunctionUnit}
    (h : unitOf lines n = some u) :
    ∃ s, functionName n = some s ∧ u.Shows reading n.tree s := by
  obtain ⟨s, hs, rfl⟩ := Option.map_eq_some_iff.mp h
  exact ⟨s, hs, rfl, rfl, rfl⟩

theorem unitsOfTree_listsByPlace (lines : Array String) (t : ParseTree Kind) :
    ListsByPlace (UnitAt t) (unitsOfTree lines t) := by
  refine (Sited.visible.walk_listsByPlace ⟨t, []⟩).filterMap (fun p n n' hn hn' => ?_)
    (unitOf lines) ?_ ?_
  · exact Option.some.inj (hn.symm.trans hn')
  · intro p n u hn hu
    obtain ⟨s, hs, hshows⟩ := shows_of_unitOf hu
    obtain ⟨name, hdeclared, rfl⟩ := (functionName_eq_some_iff hn s).mp hs
    exact ⟨n.tree, name, hdeclared, hshows⟩
  · rintro p u ⟨f, name, hdeclared, -⟩
    have hfound := hdeclared.found
    rw [← map_tree_at? p ⟨t, []⟩] at hfound
    obtain ⟨n, hn, rfl⟩ := Option.map_eq_some_iff.mp hfound
    have hs := (functionName_eq_some_iff hn _).mpr ⟨name, hdeclared, rfl⟩
    exact ⟨n, _, hn, by rw [unitOf, hs]; rfl⟩

theorem pairwise_line_unitsOfTree {t : ParseTree Kind} (h : t.InOrder) (lines : Array String) :
    (unitsOfTree lines t).Pairwise fun u v => u.line ≤ v.line := by
  have hwalk : (Sited.visible.walk ⟨t, []⟩).Pairwise fun m n => m.tree.row ≤ n.tree.row := by
    have hrows := h.pairwise_preorder
    rw [← ParseTree.walk_eq_preorder, ← map_tree_walk ⟨t, []⟩] at hrows
    rwa [List.pairwise_map] at hrows
  rw [unitsOfTree, List.pairwise_filterMap]
  refine hwalk.imp fun {m n} hrow u hu v hv => ?_
  obtain ⟨_, -, hshows⟩ := shows_of_unitOf hu
  obtain ⟨_, -, hshows'⟩ := shows_of_unitOf hv
  rw [hshows.line_eq, hshows'.line_eq]
  exact Nat.succ_le_succ hrow

mutual

/-- The recursive listing of the nodes with their surroundings is the walk. -/
theorem sitedOnto_eq_walk (around : List (ParseTree Kind)) (later : List Sited) :
    ∀ t : ParseTree Kind, sitedOnto around later t = Sited.visible.walk ⟨t, around⟩ ++ later
  | .node k r f row s cs => by
      rw [sitedOnto, sitedAllOnto_eq_walk _ later cs, Descent.walk_eq_cons]
      rfl

theorem sitedAllOnto_eq_walk (around : List (ParseTree Kind)) (later : List Sited) :
    ∀ cs : List (ParseTree Kind),
      sitedAllOnto around later cs
        = ((cs.filter ParseTree.isVisible).map fun c => ⟨c, around⟩).flatMap Sited.visible.walk
          ++ later
  | [] => rfl
  | c :: cs => by
      rw [sitedAllOnto, sitedAllOnto_eq_walk around later cs, List.filter_cons]
      split
      · rw [sitedOnto_eq_walk, List.map_cons, List.flatMap_cons, List.append_assoc]
      · rfl

end

theorem walk_eq_sited (t : ParseTree Kind) : Sited.visible.walk ⟨t, []⟩ = sited t := by
  rw [sited, sitedOnto_eq_walk, List.append_nil]

end Script

/-! ## All languages -/

/-- What holds of the units of every tree that may have been read, and of no units, holds of the
units of a source. -/
theorem pairwise_getD_map {κ : Type} {units : ParseTree κ → List FunctionUnit}
    {outcome : Option (ParseTree κ)}
    (h : ∀ t, outcome = some t → (units t).Pairwise fun u v => u.line ≤ v.line) :
    ((outcome.map units).getD []).Pairwise fun u v => u.line ≤ v.line := by
  cases outcome with
  | none => exact .nil
  | some t => exact h t rfl

/-- The lines of the units of a source do not decrease. -/
theorem Language.pairwise_line_units (l : Language) (text : String) :
    (l.units text).Pairwise fun u v => u.line ≤ v.line := by
  have hscript (d : Script.Dialect) :
      (Script.units d text).Pairwise fun u v => u.line ≤ v.line :=
    pairwise_getD_map fun _ ht =>
      Script.pairwise_line_unitsOfTree (Script.inOrder_of_parse? ht) _
  cases l with
  | python =>
    exact pairwise_getD_map fun _ ht =>
      Python.pairwise_line_unitsOfTree (Python.inOrder_of_parse? ht)
  | javaScript => exact hscript .javaScript
  | typeScript => exact hscript .typeScript
  | tsx => exact hscript .tsx

/-- **Which units there are, and in which order.** The walk over a tree visits what the recursive
preorder lists, which is everything at a place that is reached through visible children, once and
in the order of the places. The units of a tree are those of its declarations, one for each, in
that order. Their lines do not decrease where the nodes of the tree lie one behind the other, and
so they do not for any source. -/
theorem units_follow_declarations :
    (∀ (κ : Type) (t : ParseTree κ),
      ParseTree.visible.walk t = t.preorder ∧
      t.preorder = t :: t.visibleChildren.flatMap ParseTree.preorder ∧
      ListsByPlace (fun p v => ParseTree.visible.at? p t = some v)
        (ParseTree.visible.walk t)) ∧
    (∀ t : ParseTree Python.Kind,
      ListsByPlace (Python.UnitAt t) (Python.unitsOfTree t) ∧
      (t.InOrder → (Python.unitsOfTree t).Pairwise fun u v => u.line ≤ v.line)) ∧
    (∀ (lines : Array String) (t : ParseTree Script.Kind),
      Script.Sited.visible.walk ⟨t, []⟩ = Script.sited t ∧
      ListsByPlace (Script.UnitAt t) (Script.unitsOfTree lines t) ∧
      (t.InOrder → (Script.unitsOfTree lines t).Pairwise fun u v => u.line ≤ v.line)) ∧
    (∀ (l : Language) (text : String),
      (l.units text).Pairwise fun u v => u.line ≤ v.line) := by
  refine ⟨fun κ t => ⟨?_, ?_, ?_⟩, fun t => ⟨?_, ?_⟩, fun lines t => ⟨?_, ?_, ?_⟩, ?_⟩
  · exact t.walk_eq_preorder
  · exact t.preorder_eq_cons
  · exact ParseTree.visible.walk_listsByPlace t
  · exact Python.unitsOfTree_listsByPlace t
  · exact Python.pairwise_line_unitsOfTree
  · exact Script.walk_eq_sited t
  · exact Script.unitsOfTree_listsByPlace lines t
  · exact fun h => Script.pairwise_line_unitsOfTree h lines
  · exact Language.pairwise_line_units

/-- The tree of a file with a function `outer`, a function `inner` in it, and a function `later`
behind them. -/
def Python.nestedFunctions : ParseTree Python.Kind :=
  let function (row : Nat) (name : String) (body : List (ParseTree Python.Kind)) :=
    ParseTree.node .functionDefinition .named none row ""
      ((ParseTree.leaf .identifier .named row name).inField .name :: body)
  .node .module .named none 0 ""
    [function 0 "outer" [.node .block .named (some .body) 1 "" [function 1 "inner" []]],
      function 2 "later" []]

/-- The tree of a script that binds an arrow function to `f`, with a function `g` on the next
line inside it. -/
def Script.boundFunction : ParseTree Script.Kind :=
  .node .program .named none 0 ""
    [.node .lexicalDeclaration .named none 0 ""
      [.node .variableDeclarator .named none 0 ""
        [(ParseTree.leaf .identifier .named 0 "f").inField .name,
          .node .arrowFunction .named none 0 ""
            [.node .block .named (some .body) 0 ""
              [.node .functionDeclaration .named none 1 ""
                [(ParseTree.leaf .identifier .named 1 "g").inField .name,
                  .node .block .named (some .body) 1 "" []]]]]]]

/-- Functions inside functions come in the order of their lines, whether they have a name or
borrow one. -/
theorem units_of_nested_functions :
    (Python.nestedFunctions.InOrder ∧
      (Python.unitsOfTree Python.nestedFunctions).Pairwise fun u v => u.line ≤ v.line) ∧
    (Script.boundFunction.InOrder ∧
      (Script.unitsOfTree #[] Script.boundFunction).Pairwise fun u v => u.line ≤ v.line) ∧
    (Python.unitsOfTree Python.nestedFunctions).map (fun u => (u.name, u.line))
      = [("outer", 1), ("inner", 2), ("later", 3)] ∧
    (Script.unitsOfTree #[] Script.boundFunction).map (fun u => (u.name, u.line))
      = [("f", 1), ("g", 2)] := by
  have hpython : Python.nestedFunctions.InOrder := ⟨2, by repeat' constructor⟩
  have hscript : Script.boundFunction.InOrder := ⟨1, by repeat' constructor⟩
  exact ⟨⟨hpython, (units_follow_declarations.2.1 _).2 hpython⟩,
    ⟨hscript, (units_follow_declarations.2.2.1 #[] _).2.2 hscript⟩, by decide +kernel,
    by decide +kernel⟩

end DocGate

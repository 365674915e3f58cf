/-
DocGate.Proofs.Language.Rows — units and the lines of their file.

A parser counts rows by line feeds; the search for documentation goes through lines.
Both number what they find, and the number of a row is an index into the lines.

* `Script.StandsIn` — a tree stands in a text if every node inside it starts on the row
  of a place that holds a character. Nothing is said about which parser made the tree.
* `Script.LooksAbove` — what is to be shown of a unit: the declaration above which
  documentation is looked for is on a line of the text, and the lines above it are those
  of the text in front of its row.
* `Script.StandsIn.looksAbove` — every unit of every tree that stands in a text looks
  above in this sense.
* `rows_agree_with_lines` — the main statement. For every text, each line is the row
  with its number, and each place with a character lies in a row that has a line, at the
  column it has in the text; line ends aside, since a carriage return goes with its line
  feed. Then the statement about trees that stand in the text, and the trees of the
  parser, which do (`Script.placed_of_parse?`).
* `Language.exists_row_of_mem_units` — the line of a unit is the row of a node, plus
  one, and no such row is behind the last line feed.
-/
import DocGate.Proofs.DocComment.Search
import DocGate.Proofs.Grammar.Memory
import DocGate.Proofs.Language.Declarations
import DocGate.Proofs.Script.Placement
import DocGate.Proofs.Text.Rows

namespace DocGate

open Grammar

/-- A unit of a source is one of the tree that has been read. -/
theorem exists_of_mem_getD_map {κ : Type} {units : ParseTree κ → List FunctionUnit}
    {outcome : Option (ParseTree κ)} {u : FunctionUnit} (h : u ∈ (outcome.map units).getD []) :
    ∃ t, outcome = some t ∧ u ∈ units t := by
  cases outcome with
  | none => cases h
  | some t => exact ⟨t, rfl, h⟩

namespace Script

/-! ## Anchors -/

/-- A walk stays in the tree, and so do the nodes around those that it visits. -/
theorem mem_preorder_of_mem_walk {m n : Sited} (h : n ∈ Sited.visible.walk m) :
    n.tree ∈ m.tree.preorder ∧ ∀ v ∈ n.around, v ∈ m.around ∨ v ∈ m.tree.preorder := by
  induction m using Sited.visible.inductionOn with
  | thing m ih =>
    rw [Descent.walk_eq_cons] at h
    rcases List.mem_cons.mp h with rfl | h
    · exact ⟨n.tree.mem_preorder_self, fun v hv => .inl hv⟩
    · obtain ⟨k, hk, h⟩ := List.mem_flatMap.mp h
      obtain ⟨htree, haround⟩ := ih k hk h
      obtain ⟨c, hc, rfl⟩ := List.mem_map.mp hk
      refine ⟨ParseTree.mem_preorder_of_child hc htree, fun v hv => ?_⟩
      rcases haround v hv with hv | hv
      · exact (List.mem_cons.mp hv).elim (fun heq => .inr (heq ▸ m.tree.mem_preorder_self)) .inl
      · exact .inr (ParseTree.mem_preorder_of_child hc hv)

/-- The declaration above which documentation is looked for is the function or around it. -/
theorem Sited.anchor_cases (n : Sited) :
    n.anchor = n.tree ∨ n.anchor ∈ n.around ∧ isCarrier n.anchor.kind := by
  rw [Sited.anchor]
  cases hlast : (n.around.takeWhile fun t => isCarrier t.kind).getLast? with
  | none => exact .inl rfl
  | some v =>
    have hmem := List.mem_of_getLast? hlast
    exact .inr ⟨(List.takeWhile_sublist _).subset hmem,
      List.mem_takeWhile_imp (p := fun t : ParseTree Kind => isCarrier t.kind) hmem⟩

/-- The tree is one program, and every node inside it starts on the row of a place of the text that
holds a character. -/
def StandsIn (text : String) (t : ParseTree Kind) : Prop :=
  t.kind = .program ∧ AllPlaced (.ofString text) t.children

/-- The declaration above which the documentation of a unit is looked for is a node inside the
program. -/
theorem StandsIn.placed_anchor {text : String} {t : ParseTree Kind} {n : Sited}
    {lines : Array String} {u : FunctionUnit} (ht : StandsIn text t)
    (hn : n ∈ Sited.visible.walk ⟨t, []⟩) (hu : unitOf lines n = some u) :
    n.anchor.Placed (.ofString text) := by
  obtain ⟨hkind, hinside⟩ := ht
  obtain ⟨htree, haround⟩ := mem_preorder_of_mem_walk hn
  have hmem : n.anchor ∈ t.preorder ∧ n.anchor.kind ≠ .program := by
    rcases n.anchor_cases with heq | ⟨hmem, hcarrier⟩
    · obtain ⟨s, hs, -⟩ := shows_of_unitOf hu
      rw [functionName, Option.ite_none_right_eq_some, Bool.and_eq_true] at hs
      obtain ⟨⟨hfunction, -⟩, -⟩ := hs
      rw [heq]
      refine ⟨htree, fun hprogram => ?_⟩
      rw [hprogram] at hfunction
      cases hfunction
    · refine ⟨(haround _ hmem).resolve_left (by simp), fun hprogram => ?_⟩
      rw [hprogram] at hcarrier
      cases hcarrier
  obtain ⟨hmem, hprogram⟩ := hmem
  rw [ParseTree.preorder_eq_cons] at hmem
  rcases List.mem_cons.mp hmem with heq | hmem
  · exact absurd (heq ▸ hkind) hprogram
  · obtain ⟨c, hc, hmem⟩ := List.mem_flatMap.mp hmem
    exact (hinside c (List.mem_filter.mp hc).1).of_mem_preorder hmem

/-- The row of the declaration above a unit is that of a place that holds a character. -/
theorem StandsIn.exists_place_of_anchor {text : String} {t : ParseTree Kind} {n : Sited}
    {lines : Array String} {u : FunctionUnit} (ht : StandsIn text t)
    (hn : n ∈ Sited.visible.walk ⟨t, []⟩) (hu : unitOf lines n = some u) :
    ∃ i c, text.toList[i]? = some c ∧ (text.toList.take i).count '\n' = n.anchor.row := by
  obtain ⟨i, hi, hrow⟩ := (ht.placed_anchor hn hu).here
  rw [Source.rowAt_eq_count] at hrow
  exact ⟨i, _, List.getElem?_eq_getElem hi, hrow.symm⟩

/-- What the search for the documentation of a unit looks at: the declaration stands on a row that
has a line, the number of lines above it needs no bound, and the lines looked at are those of the
text in front of its row. -/
def LooksAbove (text : String) (n : Sited) (u : FunctionUnit) : Prop :=
  let row := n.anchor.row
  ∃ line before ending behind,
    (Text.lines text)[row]? = some line ∧
    Text.IsRow text.toList row before line.toList ending behind ∧
    min (n.anchor.line - 1) (Text.lines text).toArray.size = row ∧
    (Text.lines text).take row = Text.lines (String.ofList before) ∧
    u.documented = DocComment.precedes (Text.lines (String.ofList before)).toArray n.anchor.line

theorem StandsIn.looksAbove {text : String} {t : ParseTree Kind} {n : Sited} {u : FunctionUnit}
    (ht : StandsIn text t) (hn : n ∈ Sited.visible.walk ⟨t, []⟩)
    (hu : unitOf (Text.lines text).toArray n = some u) : LooksAbove text n u := by
  obtain ⟨i, c, hc, hrow⟩ := ht.exists_place_of_anchor hn hu
  obtain ⟨line, before, ending, behind, hline, hisRow, -⟩ := Text.exists_line_of_getElem? hc
  have htake := hisRow.take_lines
  rw [String.ofList_toList, hrow] at hline htake
  rw [hrow] at hisRow
  have hlt := (List.getElem?_eq_some_iff.mp hline).1
  have hmin : min (n.anchor.line - 1) (Text.lines text).toArray.size = n.anchor.row := by
    rw [List.size_toArray]
    exact Nat.min_eq_left hlt.le
  refine ⟨line, before, ending, behind, hline, hisRow, hmin, htake, ?_⟩
  obtain ⟨name, -, rfl⟩ := Option.map_eq_some_iff.mp hu
  rw [← htake]
  refine (DocComment.precedes_congr hmin ?_ fun j hj => ?_).symm
  · rw [List.size_toArray, List.length_take, Nat.min_eq_left hlt.le]
    exact Nat.min_self n.anchor.row
  · rw [List.getElem?_toArray, List.getElem?_toArray, List.getElem?_take_of_lt hj]

theorem exists_of_mem_units {d : Dialect} {text : String} {u : FunctionUnit}
    (h : u ∈ units d text) :
    ∃ t n, parse? d text = some t ∧ n ∈ Sited.visible.walk ⟨t, []⟩ ∧
      unitOf (Text.lines text).toArray n = some u := by
  obtain ⟨t, ht, h⟩ := exists_of_mem_getD_map h
  obtain ⟨n, hn, hu⟩ := List.mem_filterMap.mp h
  exact ⟨t, n, ht, hn, hu⟩

end Script

/-! ## The lines of units -/

/-- The line of a unit is that of the row of a node. -/
theorem Python.exists_node_of_mem_unitsOfTree {t : ParseTree Python.Kind} {u : FunctionUnit}
    (h : u ∈ Python.unitsOfTree t) : ∃ f ∈ t.preorder, u.line = f.row + 1 := by
  obtain ⟨f, hf, hu⟩ := List.mem_filterMap.mp h
  rw [ParseTree.walk_eq_preorder] at hf
  obtain ⟨-, _, -, hshows⟩ := Python.shows_of_unitOf hu
  exact ⟨f, hf, hshows.line_eq⟩

theorem Script.exists_node_of_mem_unitsOfTree {t : ParseTree Script.Kind} {lines : Array String}
    {u : FunctionUnit} (h : u ∈ Script.unitsOfTree lines t) :
    ∃ f ∈ t.preorder, u.line = f.row + 1 := by
  obtain ⟨n, hn, hu⟩ := List.mem_filterMap.mp h
  obtain ⟨_, -, hshows⟩ := Script.shows_of_unitOf hu
  exact ⟨n.tree, (Script.mem_preorder_of_mem_walk hn).1, hshows.line_eq⟩

/-- The line of a unit is that of a row of the text. -/
theorem Language.exists_row_of_mem_units {l : Language} {text : String} {u : FunctionUnit}
    (h : u ∈ l.units text) : ∃ row ≤ text.toList.count '\n', u.line = row + 1 := by
  have hscript (d : Script.Dialect) (h : u ∈ Script.units d text) :
      ∃ row ≤ text.toList.count '\n', u.line = row + 1 := by
    obtain ⟨t, ht, hu⟩ := exists_of_mem_getD_map h
    obtain ⟨f, hf, hline⟩ := Script.exists_node_of_mem_unitsOfTree hu
    exact ⟨f.row, RuleSet.row_le_count_of_parse? (g := Script.grammar d) (Script.scan_follows d) ht
      hf, hline⟩
  cases l with
  | python =>
    obtain ⟨t, ht, hu⟩ := exists_of_mem_getD_map h
    obtain ⟨f, hf, hline⟩ := Python.exists_node_of_mem_unitsOfTree hu
    exact ⟨f.row, RuleSet.row_le_count_of_parse? (g := Python.grammar) Python.scan_follows ht hf,
      hline⟩
  | javaScript => exact hscript .javaScript h
  | typeScript => exact hscript .typeScript h
  | tsx => exact hscript .tsx h

/-! ## Rows and lines -/

/-- **Rows and lines agree.** Each line of a text is the row with its number, up to the line end.
The row of a place that holds a character, which is the number of line feeds before it, has a line,
and unless the character is in the line end the line has it at its column. So in every tree whose
nodes start where a character stands, the declaration above which the documentation of a unit is
looked for is on a row that has a line, the number of lines above it needs no bound, and the lines
looked at are those of the text in front of its row. The trees of scripts are such trees, so this
holds of the units of every script. -/
theorem rows_agree_with_lines (text : String) :
    (∀ (number : Nat) (line : String), (Text.lines text)[number]? = some line →
      ∃ before ending behind, Text.IsRow text.toList number before line.toList ending behind) ∧
    (∀ (i : Nat) (c : Char), text.toList[i]? = some c →
      let row := (text.toList.take i).count '\n'
      (Source.ofString text).rowAt i = row ∧
      ∃ line before ending behind,
        (Text.lines text)[row]? = some line ∧
        Text.IsRow text.toList row before line.toList ending behind ∧
        before.length ≤ i ∧
        (c ≠ '\n' → c ≠ '\r' → line.toList[i - before.length]? = some c)) ∧
    (∀ t : ParseTree Script.Kind, Script.StandsIn text t →
      ∀ n ∈ Script.Sited.visible.walk ⟨t, []⟩, ∀ u,
        Script.unitOf (Text.lines text).toArray n = some u → Script.LooksAbove text n u) ∧
    ∀ (d : Script.Dialect), ∀ u ∈ Script.units d text, ∃ t n,
      Script.parse? d text = some t ∧ Script.StandsIn text t ∧
      n ∈ Script.Sited.visible.walk ⟨t, []⟩ ∧
      Script.unitOf (Text.lines text).toArray n = some u ∧ Script.LooksAbove text n u := by
  refine ⟨fun number line h => ?_, fun i c h => ⟨Source.rowAt_eq_count _ i, ?_⟩,
    fun t ht n hn u hu => ht.looksAbove hn hu, fun d u hu => ?_⟩
  · rw [← String.ofList_toList (s := text)] at h
    exact Text.isRow_of_getElem?_lines h
  · obtain ⟨line, before, ending, behind, hline, hrow, hle, hc⟩ := Text.exists_line_of_getElem? h
    rw [String.ofList_toList] at hline
    exact ⟨line, before, ending, behind, hline, hrow, hle,
      fun hlf hcr => hc.resolve_left (hrow.not_mem_ending hlf hcr)⟩
  · obtain ⟨t, n, hparse, hn, hunit⟩ := Script.exists_of_mem_units hu
    have ht : Script.StandsIn text t := Script.placed_of_parse? hparse
    exact ⟨t, n, hparse, ht, hn, hunit, ht.looksAbove hn hunit⟩

/-- A text with line ends of both kinds, a line that is empty, and none behind the last line
feed: the character in row 2 is in its line, and the lines above that row are the ones in which
the function finds its documentation. -/
theorem rows_of_mixed_line_ends :
    Text.lines "/** */\r\n\r\nfunction f() {}\n" = ["/** */", "", "function f() {}"] ∧
    (∃ line before ending behind,
      (Text.lines "/** */\r\n\r\nfunction f() {}\n")[2]? = some line ∧
      Text.IsRow "/** */\r\n\r\nfunction f() {}\n".toList 2 before line.toList ending behind ∧
      line.toList[19 - before.length]? = some 'f') ∧
    ∃ u ∈ Script.units .javaScript "/** */\r\n\r\nfunction f() {}\n",
      u.line = 3 ∧ u.documented = true ∧ ∃ t n,
        Script.StandsIn "/** */\r\n\r\nfunction f() {}\n" t ∧
        n ∈ Script.Sited.visible.walk ⟨t, []⟩ ∧
        Script.unitOf (Text.lines "/** */\r\n\r\nfunction f() {}\n").toArray n = some u ∧
        Script.LooksAbove "/** */\r\n\r\nfunction f() {}\n" n u := by
  obtain ⟨-, hplaces, htrees, hunits⟩ := rows_agree_with_lines "/** */\r\n\r\nfunction f() {}\n"
  obtain ⟨-, line, before, ending, behind, hline, hrow, -, hc⟩ := hplaces 19 'f' (by decide)
  have hunit : ∃ u ∈ Script.units .javaScript "/** */\r\n\r\nfunction f() {}\n",
      u.line = 3 ∧ u.documented = true := by
    rw [Script.units, Script.parse?, RuleSet.parse?_eq_runKnowing]
    decide +kernel
  obtain ⟨u, hu, hthree, hdoc⟩ := hunit
  obtain ⟨t, n, -, ht, hn, hof, -⟩ := hunits .javaScript u hu
  exact ⟨by decide, ⟨line, before, ending, behind, hline, hrow, hc (by decide) (by decide)⟩,
    u, hu, hthree, hdoc, t, n, ht, hn, hof, htrees t ht n hn u hof⟩

end DocGate

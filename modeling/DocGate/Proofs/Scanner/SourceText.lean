/-
DocGate.Proofs.Scanner.SourceText — the text of a source file.

A source file may hold bytes that are no text, and is read nevertheless. What is lost is
told by `Utf8.Decodes`; what is kept are the characters of the first block, and with
them the line ends, so that a line of the text is a line of the file.

* `Utf8.KeepsLine` — the text has a line with a number, and it is the text of the bytes
  of the file between the line feeds around it. So a line that is reported is the one
  that an editor shows.
* `Utf8.keepsLine_decode` — this is so for every line that a row of the text stands for.
* `readSource?_keeps_lines` — the text of a readable file. It is the file itself where
  its bytes are a text, and otherwise the one cutting into characters and ill-formed
  pieces; and it keeps the line of every unit of every tree whose nodes have rows in the
  text, be it a tree of this library's parsers or of another one. Those of the parsers
  have (`Language.exists_row_of_mem_units`).

The only side conditions are that the path leads to a file and that the file can be
read.
-/
import DocGate.Proofs.Language.Rows
import DocGate.Proofs.Scanner.Reports
import DocGate.Proofs.Text.LineEnds

namespace DocGate

open Grammar

/-- A line of a text is the same line of the bytes that the text was read from. -/
def Utf8.KeepsLine (content : List UInt8) (text : String) (line : Nat) : Prop :=
  1 ≤ line ∧ ∃ row, (content.splitOn 0x0A)[line - 1]? = some row ∧
    (text.toList.splitOn '\n')[line - 1]? = some (Utf8.decode row).toList

/-- Every line up to the one behind the last line feed is kept. -/
theorem Utf8.keepsLine_decode {content : List UInt8} {row : Nat}
    (h : row ≤ (Utf8.decode content).toList.count '\n') :
    KeepsLine content (Utf8.decode content) (row + 1) := by
  rw [Utf8.count_lineFeed_decode] at h
  have hlt : row < (content.splitOn 0x0A).length := by
    rw [Text.length_splitOn]
    exact Nat.lt_succ_of_le h
  refine ⟨Nat.succ_pos row, _, List.getElem?_eq_getElem hlt, ?_⟩
  rw [Nat.add_sub_cancel, Utf8.splitOn_decode, List.getElem?_map, List.getElem?_eq_getElem hlt]
  rfl

/-- **Reading keeps lines.** The text of a readable file is the one whose bytes it holds, if there
is one. In any case it is told by the one way in which the bytes are cut into characters and
maximal subparts of ill-formed sequences, with a replacement character for each of these. The text
has the characters of the first block that the file has bytes of it, in the same order, and as many
line feeds. Row by row it is the text of the rows of the file. In every tree of which no node has a
row behind the last line feed, the line that is reported for a function is the same line of the
file, and the trees that are read from the text are such trees. -/
theorem readSource?_keeps_lines {w : Workspace} {p : Path} {f : File}
    (hfind : w.find p = .ok (.file f)) (hreadable : f.readable) :
    ∃ text, w.readSource? p = some text ∧
      (∀ valid, Utf8.encode valid = f.content → text = valid) ∧
      (∃ pieces, (∀ ps, Utf8.Decodes f.content ps ↔ ps = pieces) ∧
        text.toList = pieces.map fun piece => piece.getD '\uFFFD') ∧
      Utf8.asciiOf text.toList = Utf8.asciiBytes f.content ∧
      text.toList.count '\n' = f.content.count 0x0A ∧
      text.toList.splitOn '\n'
        = (f.content.splitOn 0x0A).map (fun row => (Utf8.decode row).toList) ∧
      (∀ t : ParseTree Python.Kind, (∀ v ∈ t.preorder, v.row ≤ text.toList.count '\n') →
        ∀ u ∈ Python.unitsOfTree t, Utf8.KeepsLine f.content text u.line) ∧
      (∀ t : ParseTree Script.Kind, (∀ v ∈ t.preorder, v.row ≤ text.toList.count '\n') →
        ∀ lines, ∀ u ∈ Script.unitsOfTree lines t, Utf8.KeepsLine f.content text u.line) ∧
      ∀ language : Language, ∀ u ∈ language.units text, Utf8.KeepsLine f.content text u.line := by
  refine ⟨Utf8.decode f.content,
    Workspace.readSource?_eq_some_iff.mpr ⟨f, hfind, hreadable, rfl⟩, fun valid h => ?_,
    ⟨Utf8.pieces f.content, fun ps => Utf8.decodes_iff, Utf8.toList_decode f.content⟩,
    Utf8.asciiOf_decode f.content, Utf8.count_lineFeed_decode f.content,
    Utf8.splitOn_decode f.content, fun t ht u hu => ?_, fun t ht lines u hu => ?_,
    fun language u hu => ?_⟩
  · rw [← h, Utf8.decode_encode]
  · obtain ⟨v, hv, hline⟩ := Python.exists_node_of_mem_unitsOfTree hu
    rw [hline]
    exact Utf8.keepsLine_decode (ht v hv)
  · obtain ⟨v, hv, hline⟩ := Script.exists_node_of_mem_unitsOfTree hu
    rw [hline]
    exact Utf8.keepsLine_decode (ht v hv)
  · obtain ⟨row, hrow, hline⟩ := Language.exists_row_of_mem_units hu
    rw [hline]
    exact Utf8.keepsLine_decode hrow

/-- A source in which the line end cuts a character short. -/
def File.cutShort : File where
  content := [0x23, 0x20, 0xE2, 0x82] ++ Utf8.encode "\ndef f():\n    return 0\n"

/-- A workspace with one source. -/
def Workspace.withSource (f : File) : Workspace where
  root := .directory [("a.py", .file f)]

theorem Workspace.find_withSource (f : File) : (withSource f).find ⟨"a.py"⟩ = .ok (.file f) := by
  refine Workspace.find_eq_ok_iff.mpr ⟨["a.py"], ?_, rfl⟩
  rw [Workspace.resolve_eq_follow (by decide), show Path.names ⟨"a.py"⟩ = ["a.py"] by decide]
  exact Node.follow_of_at? 40 (by decide) rfl (by simp)

/-- The tree of a function on the second line. -/
def Python.secondLineFunction : ParseTree Python.Kind :=
  .node .module .named none 1 ""
    [.node .functionDefinition .named none 1 "" [.node .identifier .named (some .name) 1 "f" []]]

/-- The two bytes of the character become one, the line end stays, and the function is reported on
the second line, by whatever way its tree was found. -/
theorem readSource?_cutShort :
    ∃ text, (Workspace.withSource .cutShort).readSource? ⟨"a.py"⟩ = some text ∧
      text.toList.count '\n' = File.cutShort.content.count 0x0A ∧
      text = "# \uFFFD\ndef f():\n    return 0\n" ∧
      (Language.python.units text).map FunctionUnit.line = [2] ∧
      (Python.unitsOfTree Python.secondLineFunction).map FunctionUnit.line = [2] ∧
      Utf8.KeepsLine File.cutShort.content text 2 := by
  obtain ⟨text, htext, -, -, -, hcount, -, htrees, -, -⟩ :=
    readSource?_keeps_lines (Workspace.find_withSource .cutShort) rfl
  have heq : text = "# \uFFFD\ndef f():\n    return 0\n" := by
    obtain ⟨_, hfind, -, hdecode⟩ := Workspace.readSource?_eq_some_iff.mp htext
    rw [Workspace.find_withSource] at hfind
    cases hfind
    rw [← hdecode]
    decide +kernel
  have hunit : ∃ u ∈ Python.unitsOfTree Python.secondLineFunction, u.line = 2 := by decide +kernel
  have hrows : ∀ v ∈ Python.secondLineFunction.preorder, v.row ≤ text.toList.count '\n' := by
    rw [heq]
    decide +kernel
  obtain ⟨u, hu, hline⟩ := hunit
  refine ⟨text, htext, hcount, heq, ?_, by decide +kernel, hline ▸ htrees _ hrows u hu⟩
  rw [heq]
  decide +kernel

end DocGate

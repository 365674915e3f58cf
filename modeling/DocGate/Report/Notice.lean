/-
DocGate.Report.Notice — notices of failure: what kind of failure, what happened, and
possibly why and what to do about it.

* `Notice.lines` — a notice as painted lines, with a line for the cause and one for the
  advice where there are any.
* `Notice.coloured`, `Notice.uncoloured` — the two texts of a notice, written out one
  beside the other.
* `Notice.render_true`, `Notice.render_false` — rendering the lines with colours and
  without them gives these two texts, for every notice.
-/
import DocGate.Report.Painted

namespace DocGate

/-- A notice of failure. -/
structure Notice where
  title : String
  message : String
  detail : Option String := none
  suggestion : Option String := none
  deriving DecidableEq, Repr

namespace Notice

/-- The lines of a notice, with the paints of their parts. -/
def lines (n : Notice) : List PaintedLine :=
  [[⟨"✖ " ++ n.title ++ ":", [.bold, .red]⟩, ⟨" " ++ n.message, []⟩]]
    ++ (n.detail.toList.map fun d => [⟨"  ", []⟩, ⟨"× " ++ d, [.dim]⟩])
    ++ (n.suggestion.toList.map fun s => [⟨"  ", []⟩, ⟨"help:", [.cyan]⟩, ⟨" " ++ s, []⟩])

def render (colours : Bool) (n : Notice) : String := PaintedLine.renderAll colours n.lines

/-! ## The two texts of a notice -/

/-- The text of a notice with colours. -/
def coloured (n : Notice) : String :=
  let head :=
    Paint.bold.code ++ Paint.red.code ++ "✖ " ++ n.title ++ ":" ++ Paint.reset ++ " " ++ n.message
      ++ "\n"
  let detail := match n.detail with
    | some d => "  " ++ Paint.dim.code ++ "× " ++ d ++ Paint.reset ++ "\n"
    | none => ""
  let suggestion := match n.suggestion with
    | some s => "  " ++ Paint.cyan.code ++ "help:" ++ Paint.reset ++ " " ++ s ++ "\n"
    | none => ""
  head ++ detail ++ suggestion

/-- The text of a notice without colours. -/
def uncoloured (n : Notice) : String :=
  let head := "✖ " ++ n.title ++ ": " ++ n.message ++ "\n"
  let detail := match n.detail with
    | some d => "  × " ++ d ++ "\n"
    | none => ""
  let suggestion := match n.suggestion with
    | some s => "  help: " ++ s ++ "\n"
    | none => ""
  head ++ detail ++ suggestion

theorem render_true (n : Notice) : n.render true = n.coloured := by
  obtain ⟨title, message, detail, suggestion⟩ := n
  apply String.toList_injective
  cases detail <;> cases suggestion <;>
    simp [render, coloured, lines, PaintedLine.renderAll, PaintedLine.render, Span.render]

theorem render_false (n : Notice) : n.render false = n.uncoloured := by
  obtain ⟨title, message, detail, suggestion⟩ := n
  apply String.toList_injective
  cases detail <;> cases suggestion <;>
    simp [render, uncoloured, lines, PaintedLine.renderAll, PaintedLine.render, Span.render]

end Notice

end DocGate

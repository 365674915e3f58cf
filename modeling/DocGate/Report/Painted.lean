/-
DocGate.Report.Painted — painted text: a list of lines, and a line a list of spans, some
of which are painted.

Whether colours are shown is decided only when the lines are rendered. So what a report
says is written down once, and its two texts cannot differ in anything but codes.

* `Paint`, `Paint.code`, `reset` — the kinds of paint, and the codes in front of a
  painted span and behind it.
* `Span`, `PaintedLine`, `renderAll` — spans, lines, and their text. Every line ends
  with a line feed.
* `ColourChoice.shows` — whether a choice of colours shows them. What an automatic
  choice comes to is found out by the tool.

A span may hold codes of its own. `DocGate.Proofs.Report.Colours` says what it takes
that the codes can be told from the text.
-/

namespace DocGate

/-- A way to show text on a terminal. -/
inductive Paint where
  | red
  | green
  | yellow
  | cyan
  | bold
  | dim
  deriving DecidableEq, Repr

namespace Paint

/-- What switches the paint on. -/
def code : Paint → String
  | red => "\x1b[31m"
  | green => "\x1b[32m"
  | yellow => "\x1b[33m"
  | cyan => "\x1b[36m"
  | bold => "\x1b[1m"
  | dim => "\x1b[2m"

/-- What switches all paint off. -/
def reset : String := "\x1b[0m"

end Paint

/-- A text and the paints it is shown in. -/
structure Span where
  text : String
  paints : List Paint := []
  deriving DecidableEq, Repr

namespace Span

/-- The text between the codes of its paints, if colours are shown. -/
def render (colours : Bool) (s : Span) : String :=
  if colours && !s.paints.isEmpty then
    String.join (s.paints.map Paint.code) ++ s.text ++ Paint.reset
  else s.text

end Span

/-- A line of a painted text. -/
abbrev PaintedLine := List Span

namespace PaintedLine

/-- A line without paint. -/
def plain (text : String) : PaintedLine := [⟨text, []⟩]

/-- A line in one paint. -/
def all (paint : Paint) (text : String) : PaintedLine := [⟨text, [paint]⟩]

def render (colours : Bool) (l : PaintedLine) : String :=
  String.join (l.map (Span.render colours)) ++ "\n"

/-- Lines one below the other. -/
def renderAll (colours : Bool) (ls : List PaintedLine) : String :=
  String.join (ls.map (render colours))

end PaintedLine

/-- When to show colours. -/
inductive ColourChoice where
  /-- On a terminal; output that is captured is none. -/
  | auto
  | always
  | never
  deriving DecidableEq, Repr

/-- Whether captured output has colours. -/
def ColourChoice.shows : ColourChoice → Bool
  | .always => true
  | _ => false

end DocGate

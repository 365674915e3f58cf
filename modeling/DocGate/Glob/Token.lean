/-
DocGate.Glob.Token — globs: lists of tokens that must match a whole path.

A star and a question mark also match a slash; two stars stand for any directories where
they fill a whole component. Matching is on bytes: a character beyond the first block of
the character set stands for its bytes one after the other, also in a class.

* `Token` — one part of a glob; the branches of a group are lists of tokens again.
* `Flaw`, `Error` — what can be wrong with a text that is to be a glob, and the text of
  the message.
-/

namespace DocGate.Glob

/-- A part of a glob. -/
inductive Token where
  /-- This character. -/
  | literal (c : Char)
  /-- Any one byte. -/
  | any
  /-- Any bytes. -/
  | star
  /-- One byte of the class, or of its complement. -/
  | charClass (negated : Bool) (ranges : List (Char × Char))
  /-- Any directories in front of what follows, or none. -/
  | anyDirectories
  /-- A slash, possibly followed by directories. -/
  | anyBetween
  /-- Everything below a directory. -/
  | anyBelow
  /-- One of the branches. A branch that matches nothing but the empty text does not count. -/
  | alternatives (branches : List (List Token))
  deriving Repr, Inhabited

/-- Why a text is no glob. -/
inductive Flaw where
  | unclosedClass
  | invalidRange (first last : Char)
  | unopenedGroup
  | unclosedGroup
  | danglingEscape
  deriving DecidableEq, Repr

namespace Flaw

/-- The reason in words. -/
def reason : Flaw → String
  | unclosedClass => "unclosed character class; missing ']'"
  | invalidRange a b =>
    "invalid range; '" ++ String.singleton a ++ "' > '" ++ String.singleton b ++ "'"
  | unopenedGroup => "unopened alternate group; missing '\x7b' (maybe escape '\x7d' with '[\x7d]'?)"
  | unclosedGroup => "unclosed alternate group; missing '\x7d' (maybe escape '\x7b' with '[\x7b]'?)"
  | danglingEscape => "dangling '\\'"

end Flaw

/-- A text that is no glob, and why. -/
structure Error where
  glob : String
  flaw : Flaw
  deriving DecidableEq, Repr

/-- The error in words. -/
def Error.message (e : Error) : String :=
  "error parsing glob '" ++ e.glob ++ "': " ++ e.flaw.reason

end DocGate.Glob

/-
DocGate.Glob.Reader — reading globs, character by character.

What a star means is known only after the next characters, so the reader has a `Mode`
for each place at which a decision is open.

* `State.step` — one character; it fails where no glob can begin as the text does.
* `State.finish` — the end of the text; what is still open then is a flaw.
* `compile` — the tokens of a text, or what is wrong with it.

Which texts compile does not depend on the tokens, and is told apart from them in
`DocGate.Proofs.Glob.Validity`.
-/
import DocGate.Glob.Token

namespace DocGate.Glob

/-- A class whose end has not been read. -/
structure OpenClass where
  negated : Bool
  /-- The last range first. -/
  ranges : List (Char × Char) := []
  /-- The last character was a dash that may join its neighbours. -/
  joining : Bool := false
  deriving Repr

/-- Which decision is open. -/
inductive Mode where
  | plain
  /-- Behind a backslash. -/
  | escape
  /-- Behind a star. -/
  | star (before : Option Char)
  /-- Behind two stars, in front of which stood the character `before`. -/
  | stars (before : Option Char)
  /-- Behind an opening bracket. -/
  | classStart
  /-- Inside a class. -/
  | inClass (c : OpenClass)
  deriving Repr

/-- A group whose end has not been read: the tokens before it and the finished branches, the
last one first. -/
structure OpenGroup where
  before : List Token
  branches : List (List Token)
  deriving Repr

/-- What has been read. -/
structure State where
  mode : Mode := .plain
  /-- The tokens of the current branch, the last one first. -/
  tokens : List Token := []
  /-- The open groups, the innermost first. -/
  groups : List OpenGroup := []
  /-- The last character. -/
  last : Option Char := none
  deriving Repr

namespace State

def push (s : State) (t : Token) : State := { s with tokens := t :: s.tokens }

/-- Two stars that do not fill a component are just stars. -/
def pushStars (s : State) : State := (s.push .star).push .star

/-- Replaces the token before two stars, a slash as a rule, by what the stars mean with it. -/
def fold (s : State) (meaning : Token) : State :=
  match s.tokens with
  | .anyDirectories :: _ => s
  | .anyBelow :: _ => s
  | _ :: before => { s with tokens := meaning :: before }
  | [] => s

/-- A character where no decision is open. -/
def plainStep (s : State) (c : Char) : Except Flaw State :=
  let s := { s with mode := .plain, last := some c }
  match c with
  | '?' => .ok (s.push .any)
  | '[' => .ok { s with mode := .classStart }
  | '\x7b' => .ok { s with tokens := [], groups := ⟨s.tokens, []⟩ :: s.groups }
  | '\x7d' =>
    match s.groups with
    | [] => .error .unopenedGroup
    | g :: groups =>
      let branches := (s.tokens.reverse :: g.branches).reverse
      .ok { s with tokens := .alternatives branches :: g.before, groups := groups }
  | ',' =>
    match s.groups with
    | [] => .ok (s.push (.literal ','))
    | g :: groups =>
      .ok { s with
        tokens := []
        groups := { g with branches := s.tokens.reverse :: g.branches } :: groups }
  | '\\' => .ok { s with mode := .escape }
  | c => .ok (s.push (.literal c))

/-- A character where no decision is open, or a first star. -/
def freshStep (s : State) (c : Char) : Except Flaw State :=
  if c = '*' then .ok { s with mode := .star s.last, last := some c } else s.plainStep c

/-- Whether two stars behind `before` start a component. Inside a group an escaped comma or brace
counts like the mark itself. -/
def startsComponent (s : State) (before : Option Char) : Bool :=
  before == some '/' || (!s.groups.isEmpty && (before == some ',' || before == some '\x7b'))

/-- The character behind two stars. -/
def starsStep (s : State) (before : Option Char) (c : Char) : Except Flaw State :=
  if s.tokens.isEmpty then
    if c = '/' then .ok { s.push .anyDirectories with mode := .plain, last := some c }
    else s.pushStars.freshStep c
  else if !s.startsComponent before then s.pushStars.freshStep c
  else if c = '/' then .ok { s.fold .anyBetween with mode := .plain, last := some c }
  else if (c = ',' || c = '\x7d') && !s.groups.isEmpty then (s.fold .anyBelow).freshStep c
  else s.pushStars.freshStep c

/-- Extends the last range of a class up to a character. -/
def extendRange (k : OpenClass) (c : Char) : Except Flaw OpenClass :=
  match k.ranges with
  | (a, _) :: ranges =>
    if c < a then .error (.invalidRange a c)
    else .ok { k with ranges := (a, c) :: ranges, joining := false }
  | [] => .ok k

/-- A character inside a class that does not end it. -/
def classStep (k : OpenClass) (c : Char) : Except Flaw OpenClass :=
  if k.joining then extendRange k c
  else if c = '-' && !k.ranges.isEmpty then .ok { k with joining := true }
  else .ok { k with ranges := (c, c) :: k.ranges }

/-- Ends a class; a dash in front of its end stands for itself. -/
def closeClass (s : State) (k : OpenClass) : State :=
  let ranges := if k.joining then ('-', '-') :: k.ranges else k.ranges
  { s.push (.charClass k.negated ranges.reverse) with mode := .plain, last := some ']' }

/-- One more character. -/
def step (s : State) (c : Char) : Except Flaw State :=
  match s.mode with
  | .plain => s.freshStep c
  | .escape => .ok { s.push (.literal c) with mode := .plain, last := some c }
  | .star before =>
    if c = '*' then .ok { s with mode := .stars before, last := some c }
    else (s.push .star).plainStep c
  | .stars before => s.starsStep before c
  | .classStart =>
    if c = '!' || c = '^' then .ok { s with mode := .inClass ⟨true, [], false⟩, last := some c }
    else
      (classStep ⟨false, [], false⟩ c).map fun k =>
        { s with mode := .inClass k, last := some c }
  | .inClass k =>
    if c = ']' && !k.ranges.isEmpty then .ok (s.closeClass k)
    else (classStep k c).map fun k => { s with mode := .inClass k, last := some c }

/-- The tokens after the last character. -/
def finish (s : State) : Except Flaw (List Token) :=
  let closed (s : State) : Except Flaw (List Token) :=
    if s.groups.isEmpty then .ok s.tokens.reverse else .error .unclosedGroup
  match s.mode with
  | .plain => closed s
  | .escape => .error .danglingEscape
  | .star _ => closed (s.push .star)
  | .stars before =>
    if s.tokens.isEmpty then closed (s.push .anyDirectories)
    else if s.startsComponent before then closed (s.fold .anyBelow)
    else closed s.pushStars
  | .classStart => .error .unclosedClass
  | .inClass _ => .error .unclosedClass

end State

/-- The tokens of a glob. -/
def tokens (text : String) : Except Flaw (List Token) :=
  text.toList.foldlM State.step {} >>= State.finish

/-- The tokens of a glob, or the error that names it. -/
def compile (text : String) : Except Error (List Token) :=
  (tokens text).mapError fun flaw => ⟨text, flaw⟩

end DocGate.Glob

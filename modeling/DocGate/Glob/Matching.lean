/-
DocGate.Glob.Matching — matching globs against paths.

A token leads from places in a text to the places behind what it matches. The places are
kept in increasing order, so that each token costs no more than the length of the text,
however many ways there are to match it.

* `Token.run`, `runAll` — where one token and a list of tokens lead.
* `isMatch` — whether a list of tokens matches a whole text.
* `speaksOfName`, `endsAbove` — the one exception: a glob that fixes the name of a file
  or its extension (`isFixedName`, `isFixedExtension`, `endsInExtension`) does not match
  a path whose last name is the directory above.

Texts are lists of bytes here (`textBytes`): a question mark and a class stand for one
byte each.
-/
import DocGate.Glob.Token

namespace DocGate.Glob

/-- The bytes of a character. -/
def charBytes (c : Char) : List UInt8 := (String.singleton c).toUTF8.data.toList

/-- The bytes of a text. -/
def textBytes (s : String) : Array UInt8 := s.toUTF8.data

def slash : UInt8 := 47

/-- Whether a byte belongs to a range of characters: to the bytes of the first one, to those of
the last one, or between the byte that ends the one and the byte that starts the other. -/
def inRange (b : UInt8) (first last : Char) : Bool :=
  let head := charBytes first
  let tail := charBytes last
  head.contains b || tail.contains b ||
    (first != last && head.getLastD 0 ≤ b && b ≤ tail.headD 0)

def inClass (negated : Bool) (ranges : List (Char × Char)) (b : UInt8) : Bool :=
  (ranges.any fun (first, last) => inRange b first last) != negated

/-- The union of two increasing lists. -/
def merge (as bs : List Nat) : List Nat :=
  match as, bs with
  | [], bs => bs
  | as, [] => as
  | a :: as, b :: bs =>
    if a < b then a :: merge as (b :: bs)
    else if b < a then b :: merge (a :: as) bs
    else a :: merge as bs
termination_by as.length + bs.length

/-- The places behind one byte that satisfies `p`. -/
def afterByte (text : Array UInt8) (p : UInt8 → Bool) (places : List Nat) : List Nat :=
  places.filterMap fun i =>
    match text[i]? with
    | some b => if p b then some (i + 1) else none
    | none => none

/-- The places from `i` to the end. -/
def placesFrom (text : Array UInt8) (i : Nat) : List Nat := List.range' i (text.size + 1 - i)

/-- The places behind a slash at or after `i`. -/
def afterSlashes (text : Array UInt8) (i : Nat) : List Nat :=
  afterByte text (· == slash) (placesFrom text i)

/-- The first of the places at which a slash stands. -/
def firstSlash (text : Array UInt8) (places : List Nat) : Option Nat :=
  places.find? fun i => text[i]? == some slash

mutual

/-- Whether a token matches only the empty text because all its branches do. -/
def Token.isVoid : Token → Bool
  | .alternatives branches => allVoid branches
  | _ => false

/-- Whether all tokens are void. -/
def branchVoid : List Token → Bool
  | [] => true
  | t :: ts => t.isVoid && branchVoid ts

/-- Whether all branches are void. -/
def allVoid : List (List Token) → Bool
  | [] => true
  | b :: bs => branchVoid b && allVoid bs

end

mutual

/-- The places behind what a token matches from one of the places. -/
def Token.run (text : Array UInt8) (places : List Nat) : Token → List Nat
  | .literal c => (charBytes c).foldl (fun ps b => afterByte text (· == b) ps) places
  | .any => afterByte text (fun _ => true) places
  | .star =>
    match places with
    | [] => []
    | i :: _ => placesFrom text i
  | .charClass negated ranges => afterByte text (inClass negated ranges) places
  | .anyDirectories =>
    match places with
    | [] => []
    | i :: _ => merge places (afterSlashes text i)
  | .anyBetween =>
    match firstSlash text places with
    | none => []
    | some i => afterSlashes text i
  | .anyBelow =>
    match firstSlash text places with
    | none => []
    | some i => placesFrom text (i + 1)
  | .alternatives branches => if allVoid branches then places else runBranches text places branches

/-- The places behind what the tokens match one after the other. -/
def runAll (text : Array UInt8) (places : List Nat) : List Token → List Nat
  | [] => places
  | t :: ts => runAll text (t.run text places) ts

/-- The places behind what one of the branches matches. -/
def runBranches (text : Array UInt8) (places : List Nat) : List (List Token) → List Nat
  | [] => []
  | b :: bs =>
    let others := runBranches text places bs
    if branchVoid b then others else merge (runAll text places b) others

end

/-! ## Names -/

def isLiteral : Token → Bool
  | .literal _ => true
  | _ => false

def isLiteralOf (c : Char) : Token → Bool
  | .literal d => d == c
  | _ => false

/-- Without two stars in front. -/
def afterDirectories : List Token → List Token
  | .anyDirectories :: ts => ts
  | ts => ts

/-- Without a star in front. -/
def afterStar : List Token → List Token
  | .star :: ts => ts
  | ts => ts

/-- Any directories and then a fixed name. -/
def isFixedName : List Token → Bool
  | .anyDirectories :: ts =>
    !ts.isEmpty && ts.all fun t => isLiteral t && !isLiteralOf '/' t
  | _ => false

/-- A star and then a fixed extension. -/
def isFixedExtension (ts : List Token) : Bool :=
  match afterDirectories ts with
  | .star :: .literal '.' :: ts =>
    ts.all fun t => isLiteral t && !isLiteralOf '.' t && !isLiteralOf '/' t
  | _ => false

/-- A fixed end behind anything. -/
def isFixedEnd (ts : List Token) : Bool := (afterStar (afterDirectories ts)).all isLiteral

/-- Anything, at last a fixed extension. -/
def endsInExtension (ts : List Token) : Bool :=
  match ts.reverse.dropWhile fun t => isLiteral t && !isLiteralOf '.' t && !isLiteralOf '/' t with
  | .literal '.' :: _ => true
  | _ => false

/-- Whether the glob speaks of the name of a file: it fixes the name or its extension. -/
def speaksOfName (ts : List Token) : Bool :=
  isFixedName ts || isFixedExtension ts || (endsInExtension ts && !isFixedEnd ts)

/-- Whether the last name of a path is the directory above, which is the name of no file. -/
def endsAbove (text : Array UInt8) : Bool :=
  (text.toList.reverse.takeWhile (· != slash)) == [46, 46]

/-- Whether the tokens match a whole text. Two stars alone match every text. -/
def isMatch (ts : List Token) (text : String) : Bool :=
  let bytes := textBytes text
  match ts with
  | [.anyDirectories] => true
  | ts =>
    (runAll bytes [0] ts).getLast? == some bytes.size && !(speaksOfName ts && endsAbove bytes)

end DocGate.Glob

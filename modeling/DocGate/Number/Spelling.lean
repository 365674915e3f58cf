/-
DocGate.Number.Spelling — spelling numbers.

How the shortest digits of a number are laid out is a matter of style. Two styles are in
use: messages spell every number without a power of ten, and structured reports always
mark a number as no whole number and switch to powers of ten for very large and very
small ones. Percentages have one place, with a half going to the even neighbour.

* `Style`, `messageStyle`, `reportStyle` — where powers of ten begin and how a whole
  number ends.
* `Binary64.spell` — a number in a style.
* `Binary64.percent` — a hundred times a number, rounded as a number, with one place.
-/
import DocGate.Number.Shortest

namespace DocGate.Binary64

/-- A way to lay out digits. -/
structure Style where
  /-- What is written behind the digits of a whole number. -/
  wholeEnd : String
  /-- Whether to write a number without a power of ten, if its point stands behind so many
  digits. -/
  positional : Int → Bool

/-- Numbers in messages. -/
def messageStyle : Style := ⟨"", fun _ => true⟩

/-- Numbers in structured reports. -/
def reportStyle : Style := ⟨".0", fun point => -5 < point && point ≤ 16⟩

def zeros (n : Nat) : String := String.ofList (List.replicate n '0')

/-- Digits with a point behind the first `point` of them. -/
def layOut (style : Style) (digits : List Char) (exponent : Int) : String :=
  let size := digits.length
  let point : Int := size + exponent
  if style.positional point then
    if point ≤ 0 then "0." ++ zeros (-point).toNat ++ String.ofList digits
    else if (size : Int) ≤ point then
      String.ofList digits ++ zeros (point - size).toNat ++ style.wholeEnd
    else
      String.ofList (digits.take point.toNat) ++ "." ++ String.ofList (digits.drop point.toNat)
  else
    let fraction := if size = 1 then "" else "." ++ String.ofList (digits.drop 1)
    String.ofList (digits.take 1) ++ fraction ++ "e" ++ toString (point - 1)

def signText (negative : Bool) : String := if negative then "-" else ""

/-- A number in a style. -/
def spell (style : Style) : Binary64 → String
  | .nan => "NaN"
  | .infinite negative => signText negative ++ "inf"
  | .finite negative units =>
    signText negative ++
      if units = 0 then "0" ++ style.wholeEnd
      else
        let d := shortest units
        layOut style (Nat.toDigits 10 d.digits) d.exponent

/-- A finite number with one place behind the point. -/
def spellTenths : Binary64 → String
  | .finite negative units =>
    let tenths := roundQuotient (units * 10) unitsOfOne
    signText negative ++ toString (tenths / 10) ++ "." ++ toString (tenths % 10)
  | x => spell messageStyle x

/-- A ratio as a percentage with one place behind the point. -/
def percent (x : Binary64) : String := (x.scale 100).spellTenths

end DocGate.Binary64

/-
DocGate.Number.Decimal — reading decimals.

A decimal is read exactly, as whole digits and a power of ten, and then rounded once.
Only a power of ten that is far out of range is not computed.

* `Decimal.toBinary64` — the nearest number; one that is too large becomes infinite.
* `Binary64.read?` — the text of a number with or without a fraction and an exponent,
  and the words for what is infinite and for what is no number.
-/
import DocGate.Number.Binary64

namespace DocGate

/-- The number `±digits · 10 ^ exponent`. -/
structure Decimal where
  negative : Bool
  digits : Nat
  exponent : Int
  deriving DecidableEq, Repr

namespace Decimal

/-- The number that decimal digits denote, behind those of `n`. -/
def digitsValue (n : Nat) (cs : List Char) : Nat :=
  cs.foldl (fun n c => 10 * n + (c.toNat - '0'.toNat)) n

/-- The number of double precision nearest to a decimal. A power of ten far out of range is not
computed. -/
def toBinary64 (d : Decimal) : Binary64 :=
  let size : Int := (Nat.log2 d.digits / 3 + 1 : Nat) + d.exponent
  if d.digits = 0 || size < -400 then .finite d.negative 0
  else if 400 < d.exponent then .infinite d.negative
  else if 0 ≤ d.exponent then .ofRatio d.negative (d.digits * Nat.pow 10 d.exponent.toNat) 1
  else .ofRatio d.negative d.digits (Nat.pow 10 (-d.exponent).toNat)

/-- The sign in front, which may be missing. -/
def takeSign : List Char → Bool × List Char
  | '-' :: cs => (true, cs)
  | '+' :: cs => (false, cs)
  | cs => (false, cs)

/-- The exponent that the rest of a number gives, if it gives one and nothing else. -/
def readExponent : List Char → Option Int
  | [] => some 0
  | c :: cs =>
    if c == 'e' || c == 'E' then
      let (negative, cs) := takeSign cs
      if cs.isEmpty || !cs.all Char.isDigit then none
      else
        let n : Nat := digitsValue 0 cs
        some (if negative then -n else n)
    else none

/-- The decimal that a text without a sign spells: digits, of which some may stand behind a
point, and possibly a power of ten. -/
def readUnsigned (negative : Bool) (cs : List Char) : Option Decimal :=
  let whole := cs.takeWhile Char.isDigit
  let rest := cs.dropWhile Char.isDigit
  let (fraction, rest) := match rest with
    | '.' :: rest => (rest.takeWhile Char.isDigit, rest.dropWhile Char.isDigit)
    | rest => ([], rest)
  if whole.isEmpty && fraction.isEmpty then none
  else
    (readExponent rest).map fun e =>
      { negative := negative
        digits := digitsValue (digitsValue 0 whole) fraction
        exponent := e - fraction.length }

end Decimal

namespace Binary64

/-- The number that a text spells. Besides decimals there are words for what is infinite and for
what is no number, in any case. -/
def read? (s : String) : Option Binary64 :=
  let (negative, cs) := Decimal.takeSign s.toList
  let word := String.ofList (cs.map Char.toLower)
  if word = "inf" || word = "infinity" then some (.infinite negative)
  else if word = "nan" then some .nan
  else (Decimal.readUnsigned negative cs).map Decimal.toBinary64

end Binary64

end DocGate

/-
DocGate.Number.Binary64 — numbers of double precision.

A finite number of double precision is a whole number of units of `2 ^ (-1074)`, its
least distance from zero. In units every comparison and every rounding is one of natural
numbers. Rounding is to the nearest such number, and to the even one of two that are
equally near.

* `Binary64` — a number of units with a sign, or what is infinite, or no number.
* `roundQuotient`, `Binary64.ofRatio` — the nearest number to a quotient.
* `Binary64.scale` — a number times a whole one, rounded.
* `Binary64.le`, `Binary64.lt` — comparison; what is no number compares with nothing.
-/

namespace DocGate

/-- A number of double precision. -/
inductive Binary64 where
  /-- So many units of `2 ^ (-1074)`, on one side of zero. -/
  | finite (negative : Bool) (units : Nat)
  | infinite (negative : Bool)
  | nan
  deriving DecidableEq, Repr

namespace Binary64

/-- The units in the number one. -/
def unitsOfOne : Nat := Nat.pow 2 1074

/-- The least number of units that is out of range. -/
def unitsLimit : Nat := Nat.pow 2 2098

/-- The distance, in units, from a number to the next larger one. -/
def gap (units : Nat) : Nat := Nat.pow 2 (units.log2 - 52)

/-- The quotient rounded to the nearest whole number, a half to the even one. -/
def roundQuotient (num den : Nat) : Nat :=
  let whole := num / den
  let rest := 2 * (num % den)
  if den < rest || (den == rest && whole % 2 == 1) then whole + 1 else whole

/-- The number nearest to `num / den` units. -/
def ofUnits (negative : Bool) (num den : Nat) : Binary64 :=
  let step := gap (num / den)
  let units := roundQuotient num (den * step) * step
  if unitsLimit ≤ units then .infinite negative else .finite negative units

/-- The number nearest to `num / den`. -/
def ofRatio (negative : Bool) (num den : Nat) : Binary64 :=
  ofUnits negative (num * unitsOfOne) den

def zero : Binary64 := .finite false 0

def one : Binary64 := .finite false unitsOfOne

/-- The product with a whole number. -/
def scale (n : Nat) : Binary64 → Binary64
  | .finite negative units => ofUnits negative (units * n) 1
  | x => x

/-- The signed units of a finite number. -/
def signedUnits (negative : Bool) (units : Nat) : Int := if negative then -units else units

/-- The order of numbers; a number that is none compares with nothing. -/
def le : Binary64 → Binary64 → Bool
  | .nan, _ | _, .nan => false
  | .infinite true, _ => true
  | _, .infinite false => true
  | .infinite false, .finite _ _ => false
  | .infinite false, .infinite true => false
  | .finite _ _, .infinite true => false
  | .finite s a, .finite t b => signedUnits s a ≤ signedUnits t b

/-- The strict order of numbers. -/
def lt (x y : Binary64) : Bool := x.le y && !y.le x

/-- Whether a number lies between zero and one, both included. -/
def isRatio (x : Binary64) : Bool := zero.le x && x.le one

end Binary64

end DocGate

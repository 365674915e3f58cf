/-
DocGate.Number.Shortest — shortest decimals: of all decimals that round to a given
number, the one with the fewest digits, and of these the nearest.

The decimals that round to a number fill an interval around it; on the grid of all
decimals with a given number of digits only the two neighbours of the number itself need
to be looked at.

* `bounds`, `Digits.roundsTo` — the interval of a number, and whether a decimal lies in
  it. Its ends belong to it exactly if the number is an even multiple of its distance to
  the next one.
* `shortestFrom` — the search from some number of digits on; seventeen are always enough
  (`mostDigits`).
* `shortest` — the digits and the exponent for a number of units, without zeros at the
  end.
-/
import DocGate.Number.Binary64

namespace DocGate.Binary64

/-- How many decimal digits a natural number has. -/
def digitCount (n : Nat) : Nat := (Nat.toDigits 10 n).length

/-- The power of ten of the first digit of a number that is not zero. -/
def leadingExponent (units : Nat) : Int :=
  if unitsOfOne ≤ units then (digitCount (units / unitsOfOne) : Int) - 1
  else -(digitCount ((unitsOfOne + units - 1) / units - 1) : Int)

/-- The ends of the interval of what rounds to a number, in half units. -/
def bounds (units : Nat) : Nat × Nat := (2 * units - gap (units - 1), 2 * units + gap units)

/-- A decimal `digits · 10 ^ exponent`. -/
structure Digits where
  digits : Nat
  exponent : Int
  deriving DecidableEq, Repr

namespace Digits

/-- The decimal in half units, as a quotient. -/
def halfUnits (d : Digits) : Nat × Nat :=
  if 0 ≤ d.exponent then (d.digits * Nat.pow 10 d.exponent.toNat * (2 * unitsOfOne), 1)
  else (d.digits * (2 * unitsOfOne), Nat.pow 10 (-d.exponent).toNat)

/-- Whether the decimal rounds to a number. The ends of the interval belong to it if the number
is an even multiple of its distance to the next one. -/
def roundsTo (d : Digits) (units : Nat) : Bool :=
  let (num, den) := d.halfUnits
  let (low, high) := bounds units
  if units / gap units % 2 = 0 then low * den ≤ num && num ≤ high * den
  else low * den < num && num < high * den

/-- Without the zeros at the end; `fuel` bounds their number. -/
def dropZeros : Nat → Digits → Digits
  | 0, d => d
  | fuel + 1, d =>
    if d.digits % 10 = 0 && d.digits != 0 then dropZeros fuel ⟨d.digits / 10, d.exponent + 1⟩
    else d

end Digits

/-- The neighbour below a number among the multiples of a power of ten, and whether the number is
nearer to the one above. -/
def neighbour (units : Nat) (exponent : Int) : Digits × Bool :=
  let (num, den) : Nat × Nat :=
    if 0 ≤ exponent then (units, unitsOfOne * Nat.pow 10 exponent.toNat)
    else (units * Nat.pow 10 (-exponent).toNat, unitsOfOne)
  (⟨num / den, exponent⟩, den < 2 * (num % den))

/-- The first of the grids with `count`, `count + 1`, … digits that has a decimal that rounds to
the number. -/
def shortestFrom (units : Nat) (lead : Int) : (fuel count : Nat) → Digits
  | 0, count => (neighbour units (lead - count)).1
  | fuel + 1, count =>
    let (below, upper) := neighbour units (lead - count)
    let above : Digits := ⟨below.digits + 1, below.exponent⟩
    let (first, second) := if upper then (above, below) else (below, above)
    if first.roundsTo units then first
    else if second.roundsTo units then second
    else shortestFrom units lead fuel (count + 1)

/-- The most digits that are ever needed. -/
def mostDigits : Nat := 17

/-- The shortest decimal of a number that is not zero. -/
def shortest (units : Nat) : Digits :=
  (shortestFrom units (leadingExponent units) mostDigits 0).dropZeros mostDigits

end DocGate.Binary64

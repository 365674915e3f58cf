/-
DocGate.Toml.Scalar — numbers of TOML.

Digits may be grouped by single underscores between them. An integer has no leading
zero, or a letter behind the zero gives its base. A number with a fraction or an
exponent is a float, and so are the words for what is infinite and for what is no
number.

* `integer?` — an integer; one that fits into no word of 64 bits, with a sign or
  without, is none.
* `float?` — a float, rounded to double precision; one that is too large is none.
* `scalar?` — the value of a word: a truth value or a number.
-/
import DocGate.Number.Decimal
import DocGate.Toml.Basic

namespace DocGate.Toml

/-- The digits of a number without the underscores that group them, if there is a digit on
either side of each underscore. -/
def digits? (isDigit : Char → Bool) : List Char → Option (List Char)
  | [] => none
  | [c] => if isDigit c then some [c] else none
  | c :: '_' :: d :: cs => if isDigit c then (digits? isDigit (d :: cs)).map (c :: ·) else none
  | c :: d :: cs => if isDigit c then (digits? isDigit (d :: cs)).map (c :: ·) else none

/-- What a digit counts in bases up to sixteen. -/
def digitValue (c : Char) : Nat :=
  if c.isDigit then c.toNat - '0'.toNat
  else if 'a' ≤ c && c ≤ 'f' then c.toNat - 'a'.toNat + 10
  else if 'A' ≤ c && c ≤ 'F' then c.toNat - 'A'.toNat + 10
  else 16

def isDigitOf (base : Nat) (c : Char) : Bool := digitValue c < base

/-- The number that digits denote. -/
def valueOf (base : Nat) (cs : List Char) : Nat :=
  cs.foldl (fun n c => base * n + digitValue c) 0

/-- Whether an integer fits into a word of 64 bits, with a sign or without. -/
def fitsWord (n : Int) : Bool := Int64.minValue.toInt ≤ n && n < UInt64.size

def integer? (n : Int) : Option Value := if fitsWord n then some (.integer n) else none

/-- An integer in a base that a letter gave. -/
def readBased (base : Nat) (cs : List Char) : Option Value :=
  (digits? (isDigitOf base) cs).bind fun ds => integer? (valueOf base ds)

/-- Whole digits, without a leading zero. -/
def readWhole (cs : List Char) : Option (List Char) :=
  (digits? Char.isDigit cs).bind fun ds =>
    if ds.head? == some '0' && ds.length != 1 then none else some ds

def isExponentMark (c : Char) : Bool := c == 'e' || c == 'E'

/-- The exponent behind its mark, or zero if there is no mark. -/
def readExponent : List Char → Option Int
  | [] => some 0
  | _ :: cs =>
    let (negative, cs) := Decimal.takeSign cs
    (digits? Char.isDigit cs).map fun ds =>
      let n : Nat := valueOf 10 ds
      if negative then -n else n

/-- A finite float; one that is too large is none. -/
def float? (d : Decimal) : Option Value :=
  match d.toBinary64 with
  | .infinite _ => none
  | x => some (.float x)

/-- A float: whole digits, digits behind a point if there is one, and the exponent. -/
def readFloat (negative : Bool) (cs : List Char) : Option Value := do
  let mantissa := cs.takeWhile fun c => !isExponentMark c
  let exponent ← readExponent (cs.dropWhile fun c => !isExponentMark c)
  let whole ← readWhole (mantissa.takeWhile (· != '.'))
  match mantissa.dropWhile (· != '.') with
  | [] => float? ⟨negative, valueOf 10 whole, exponent⟩
  | _ :: fraction =>
    let fraction ← digits? Char.isDigit fraction
    float? ⟨negative, valueOf 10 (whole ++ fraction), exponent - fraction.length⟩

/-- A decimal number behind its sign. -/
def readDecimal (negative : Bool) (cs : List Char) : Option Value :=
  if cs.any fun c => c == '.' || isExponentMark c then readFloat negative cs
  else
    (readWhole cs).bind fun ds =>
      let n : Nat := valueOf 10 ds
      integer? (if negative then -n else n)

/-- A word or a number. -/
def scalar? (cs : List Char) : Option Value :=
  match cs with
  | '0' :: 'x' :: ds => readBased 16 ds
  | '0' :: 'o' :: ds => readBased 8 ds
  | '0' :: 'b' :: ds => readBased 2 ds
  | cs =>
    if cs = "true".toList then some (.boolean true)
    else if cs = "false".toList then some (.boolean false)
    else
      let (negative, cs) := Decimal.takeSign cs
      if cs = "inf".toList then some (.float (.infinite negative))
      else if cs = "nan".toList then some (.float .nan)
      else readDecimal negative cs

end DocGate.Toml

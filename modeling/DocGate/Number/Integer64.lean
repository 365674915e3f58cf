/-
DocGate.Number.Integer64 — reading integers of 64 bits.

An integer is a sign, which may be missing, and digits. The first character that is no
digit, or that makes the number leave the range, decides what is wrong with the text.

* `Fault` — what can be wrong, with its message.
* `read` — the integer of a text, or the first fault.
-/

namespace DocGate.Integer64

/-- Why a text is no integer of 64 bits. -/
inductive Fault where
  | empty
  | invalidDigit
  | tooLarge
  | tooSmall
  deriving DecidableEq, Repr

namespace Fault

def message : Fault → String
  | empty => "cannot parse integer from empty string"
  | invalidDigit => "invalid digit found in string"
  | tooLarge => "number too large to fit in target type"
  | tooSmall => "number too small to fit in target type"

end Fault

/-- Reads digits behind the number `n`. -/
def readDigits (negative : Bool) (n : Nat) : List Char → Except Fault Nat
  | [] => .ok n
  | c :: cs =>
    if !c.isDigit then .error .invalidDigit
    else
      let n := 10 * n + (c.toNat - '0'.toNat)
      if negative && UInt64.size / 2 < n then .error .tooSmall
      else if !negative && UInt64.size / 2 ≤ n then .error .tooLarge
      else readDigits negative n cs

/-- The integer that a text spells. -/
def read (s : String) : Except Fault Int :=
  match s.toList with
  | [] => .error .empty
  | ['+'] | ['-'] => .error .invalidDigit
  | '-' :: cs => (readDigits true 0 cs).map fun n => -n
  | '+' :: cs => (readDigits false 0 cs).map fun n => n
  | cs => (readDigits false 0 cs).map fun n => n

end DocGate.Integer64

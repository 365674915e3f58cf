/-
DocGate.Json.Reader — reading JSON: a reader of the whole format.

Numbers keep their text. An escaped character beyond the first plane is written as a
pair of surrogates; a surrogate that stands alone is read as the replacement character.

* `readValue`, `readItems`, `readFields` — a value, the rest of an array and the rest of
  an object, with what is left of the text. They count down, so that they end on every
  text.
* `Json.read?` — the value that a whole text is of, with blanks around it.

That the reader reads every text of the format, and what it may be given to count down
from, is proved in `DocGate.Proofs.Json.Reading`. Of texts that are no JSON it may
accept some; nothing is said about these.
-/
import DocGate.Json.Basic

namespace DocGate.Json

def isSpace (c : Char) : Bool := c == ' ' || c == '\n' || c == '\t' || c == '\r'

def skipSpace (cs : List Char) : List Char := cs.dropWhile isSpace

def hexValue (c : Char) : Option Nat :=
  if c.isDigit then some (c.toNat - 48)
  else if 'a' ≤ c && c ≤ 'f' then some (c.toNat - 87)
  else if 'A' ≤ c && c ≤ 'F' then some (c.toNat - 55)
  else none

/-- Four hexadecimal digits. -/
def readUnit : List Char → Option (Nat × List Char)
  | a :: b :: c :: d :: cs => do
    let a ← hexValue a
    let b ← hexValue b
    let c ← hexValue c
    let d ← hexValue d
    return (((a * 16 + b) * 16 + c) * 16 + d, cs)
  | _ => none

def isHighSurrogate (n : Nat) : Bool := 0xD800 ≤ n && n < 0xDC00

def isLowSurrogate (n : Nat) : Bool := 0xDC00 ≤ n && n < 0xE000

/-- The character that a unit stands for by itself. -/
def unitChar (n : Nat) : Char :=
  if isHighSurrogate n || isLowSurrogate n then '\uFFFD' else Char.ofNat n

/-- The character behind `\u`. -/
def readEscapedUnit (cs : List Char) : Option (Char × List Char) := do
  let (high, rest) ← readUnit cs
  if isHighSurrogate high then
    match rest with
    | '\\' :: 'u' :: more =>
      match readUnit more with
      | some (low, more) =>
        if isLowSurrogate low then
          return (Char.ofNat (0x10000 + (high - 0xD800) * 0x400 + (low - 0xDC00)), more)
        else return (unitChar high, rest)
      | none => none
    | _ => return (unitChar high, rest)
  else return (unitChar high, rest)

/-- The character behind a backslash. -/
def readEscape : List Char → Option (Char × List Char)
  | '"' :: cs => some ('"', cs)
  | '\\' :: cs => some ('\\', cs)
  | '/' :: cs => some ('/', cs)
  | 'b' :: cs => some ('\x08', cs)
  | 'f' :: cs => some ('\x0c', cs)
  | 'n' :: cs => some ('\n', cs)
  | 'r' :: cs => some ('\r', cs)
  | 't' :: cs => some ('\t', cs)
  | 'u' :: cs => readEscapedUnit cs
  | _ => none

/-- The rest of a string, behind what has been read of it, last character first. -/
def readString (fuel : Nat) (read : List Char) (cs : List Char) : Option (String × List Char) :=
  match fuel, cs with
  | 0, _ => none
  | _, [] => none
  | _ + 1, '"' :: cs => some (String.ofList read.reverse, cs)
  | fuel + 1, '\\' :: cs =>
    match readEscape cs with
    | some (c, cs) => readString fuel (c :: read) cs
    | none => none
  | fuel + 1, c :: cs => if c < ' ' then none else readString fuel (c :: read) cs

def isNumberChar (c : Char) : Bool :=
  c.isDigit || c == '-' || c == '+' || c == '.' || c == 'e' || c == 'E'

/-- A word or a number. -/
def readPlain (cs : List Char) : Option (Json × List Char) :=
  match cs with
  | 'n' :: 'u' :: 'l' :: 'l' :: cs => some (.null, cs)
  | 't' :: 'r' :: 'u' :: 'e' :: cs => some (.bool true, cs)
  | 'f' :: 'a' :: 'l' :: 's' :: 'e' :: cs => some (.bool false, cs)
  | cs =>
    let text := cs.takeWhile isNumberChar
    if text.isEmpty then none
    else some (.number (String.ofList text), cs.dropWhile isNumberChar)

mutual

/-- A value at the start of the characters. -/
def readValue (fuel : Nat) (cs : List Char) : Option (Json × List Char) :=
  match fuel with
  | 0 => none
  | fuel + 1 =>
    match skipSpace cs with
    | '"' :: cs => (readString fuel [] cs).map fun (s, cs) => (.string s, cs)
    | '[' :: cs =>
      match skipSpace cs with
      | ']' :: cs => some (.array [], cs)
      | cs => readItems fuel [] cs
    | '\x7b' :: cs =>
      match skipSpace cs with
      | '\x7d' :: cs => some (.object [], cs)
      | cs => readFields fuel [] cs
    | cs => readPlain cs

/-- The rest of an array, behind the items read, last one first. -/
def readItems (fuel : Nat) (read : List Json) (cs : List Char) : Option (Json × List Char) :=
  match fuel with
  | 0 => none
  | fuel + 1 =>
    match readValue fuel cs with
    | none => none
    | some (item, cs) =>
      match skipSpace cs with
      | ',' :: cs => readItems fuel (item :: read) cs
      | ']' :: cs => some (.array (item :: read).reverse, cs)
      | _ => none

/-- The rest of an object, behind the fields read, last one first. -/
def readFields (fuel : Nat) (read : List (String × Json)) (cs : List Char) :
    Option (Json × List Char) :=
  match fuel with
  | 0 => none
  | fuel + 1 =>
    match skipSpace cs with
    | '"' :: cs =>
      match readString fuel [] cs with
      | none => none
      | some (name, cs) =>
        match skipSpace cs with
        | ':' :: cs =>
          match readValue fuel cs with
          | none => none
          | some (value, cs) =>
            match skipSpace cs with
            | ',' :: cs => readFields fuel ((name, value) :: read) cs
            | '\x7d' :: cs => some (.object ((name, value) :: read).reverse, cs)
            | _ => none
        | _ => none
    | _ => none

end

/-- The value that a text holds, if it holds one and nothing else. -/
def read? (s : String) : Option Json :=
  let cs := s.toList
  match readValue (cs.length + 1) cs with
  | some (v, rest) => if (skipSpace rest).isEmpty then some v else none
  | none => none

end DocGate.Json

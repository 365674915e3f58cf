/-
DocGate.Toml.Reader — reading TOML.

A document is a list of lines, each with a key and its value or with nothing, and
possibly a comment at its end. Between the brackets of an array, lines may end anywhere
between the items. A line ends with a line feed, which may have a carriage return in
front.

* `readString`, `readValue`, `readItems` — strings in their four forms, values, and what
  is left of an array.
* `readEntry`, `readEntries` — one line and the lines of a document.
* `read?` — the document that a text is of. A mark of the byte order in front is
  skipped, and a key that is given twice makes the text malformed.

Readers count down from the length of the text, so that they end on every text. Where a
text is malformed is not told.
-/
import DocGate.Toml.Scalar

namespace DocGate.Toml

def isBlank (c : Char) : Bool := c == ' ' || c == '\t'

/-- Whether a character may stand in a comment or a text: control characters other than a tab
may not. -/
def isText (c : Char) : Bool := c == '\t' || (' ' ≤ c && c != '\x7f')

def skipBlank (cs : List Char) : List Char := cs.dropWhile isBlank

/-- What comes behind blanks, line ends and comments. -/
def skipGap (inComment : Bool) : List Char → Option (List Char)
  | [] => some []
  | '\n' :: cs => skipGap false cs
  | '\r' :: '\n' :: cs => skipGap false cs
  | c :: cs =>
    if inComment then if isText c then skipGap true cs else none
    else if isBlank c then skipGap false cs
    else if c == '#' then skipGap true cs
    else some (c :: cs)

/-- Whether a line ends here, but for a comment. -/
def atLineEnd : List Char → Bool
  | [] => true
  | '\n' :: _ => true
  | '\r' :: '\n' :: _ => true
  | '#' :: _ => true
  | _ => false

/-! ## Texts -/

/-- The character that a number stands for. -/
def scalarChar? (n : Nat) : Option Char := if n.isValidChar then some (Char.ofNat n) else none

/-- The character with a number of so many hexadecimal digits. -/
def readCode (count : Nat) (cs : List Char) : Option (Char × List Char) :=
  let digits := cs.take count
  if digits.length = count && digits.all (isDigitOf 16) then
    (scalarChar? (valueOf 16 digits)).map fun c => (c, cs.drop count)
  else none

/-- The character behind a backslash. -/
def readEscape : List Char → Option (Char × List Char)
  | '"' :: cs => some ('"', cs)
  | '\\' :: cs => some ('\\', cs)
  | 'b' :: cs => some ('\x08', cs)
  | 't' :: cs => some ('\t', cs)
  | 'n' :: cs => some ('\n', cs)
  | 'f' :: cs => some ('\x0c', cs)
  | 'r' :: cs => some ('\r', cs)
  | 'e' :: cs => some ('\x1b', cs)
  | 'x' :: cs => readCode 2 cs
  | 'u' :: cs => readCode 4 cs
  | 'U' :: cs => readCode 8 cs
  | _ => none

/-- The rest of a text on one line in which a backslash escapes, behind what has been read of it,
last character first. -/
def readQuoted (fuel : Nat) (read : List Char) (cs : List Char) : Option (String × List Char) :=
  match fuel, cs with
  | 0, _ => none
  | _, [] => none
  | _ + 1, '"' :: cs => some (String.ofList read.reverse, cs)
  | fuel + 1, '\\' :: cs =>
    match readEscape cs with
    | some (c, cs) => readQuoted fuel (c :: read) cs
    | none => none
  | fuel + 1, c :: cs => if isText c then readQuoted fuel (c :: read) cs else none

/-- The rest of a text on one line in which a backslash is a character like any other. -/
def readLiteral (read : List Char) : List Char → Option (String × List Char)
  | [] => none
  | '\x27' :: cs => some (String.ofList read.reverse, cs)
  | c :: cs => if isText c then readLiteral (c :: read) cs else none

/-- The end of a text of several lines: three quotes, of which up to two may stand in front that
belong to the text. -/
def closing? (quote : Char) (cs : List Char) : Option (List Char × List Char) :=
  let quotes := min 5 (cs.takeWhile (· == quote)).length
  if 3 ≤ quotes then some (List.replicate (quotes - 3) quote, cs.drop quotes) else none

/-- A line end right behind the opening quotes does not belong to the text. -/
def skipFirstLineEnd : List Char → List Char
  | '\n' :: cs => cs
  | '\r' :: '\n' :: cs => cs
  | cs => cs

/-- What comes behind a backslash at the end of a line: blanks up to the line end, and behind it
all blanks and line ends. -/
def skipContinued (sawLineEnd : Bool) : List Char → Option (List Char)
  | [] => if sawLineEnd then some [] else none
  | '\n' :: cs => skipContinued true cs
  | '\r' :: '\n' :: cs => skipContinued true cs
  | c :: cs =>
    if isBlank c then skipContinued sawLineEnd cs
    else if sawLineEnd then some (c :: cs)
    else none

/-- The rest of a text of several lines in which a backslash escapes. -/
def readQuotedLines (fuel : Nat) (read : List Char) (cs : List Char) :
    Option (String × List Char) :=
  match fuel with
  | 0 => none
  | fuel + 1 =>
    match closing? '"' cs with
    | some (quotes, cs) => some (String.ofList (quotes ++ read).reverse, cs)
    | none =>
      match cs with
      | [] => none
      | '\\' :: cs =>
        match readEscape cs with
        | some (c, cs) => readQuotedLines fuel (c :: read) cs
        | none => (skipContinued false cs).bind fun cs => readQuotedLines fuel read cs
      | '\n' :: cs => readQuotedLines fuel ('\n' :: read) cs
      | '\r' :: '\n' :: cs => readQuotedLines fuel ('\n' :: '\r' :: read) cs
      | c :: cs => if isText c then readQuotedLines fuel (c :: read) cs else none

/-- The rest of a text of several lines in which a backslash is a character like any other. -/
def readLiteralLines (fuel : Nat) (read : List Char) (cs : List Char) :
    Option (String × List Char) :=
  match fuel with
  | 0 => none
  | fuel + 1 =>
    match closing? '\x27' cs with
    | some (quotes, cs) => some (String.ofList (quotes ++ read).reverse, cs)
    | none =>
      match cs with
      | [] => none
      | '\n' :: cs => readLiteralLines fuel ('\n' :: read) cs
      | '\r' :: '\n' :: cs => readLiteralLines fuel ('\n' :: '\r' :: read) cs
      | c :: cs => if isText c then readLiteralLines fuel (c :: read) cs else none

/-- A text, which starts with a quote. -/
def readString (cs : List Char) : Option (String × List Char) :=
  match cs with
  | '"' :: '"' :: '"' :: cs =>
    let cs := skipFirstLineEnd cs
    readQuotedLines (cs.length + 1) [] cs
  | '\x27' :: '\x27' :: '\x27' :: cs =>
    let cs := skipFirstLineEnd cs
    readLiteralLines (cs.length + 1) [] cs
  | '"' :: cs => readQuoted (cs.length + 1) [] cs
  | '\x27' :: cs => readLiteral [] cs
  | _ => none

/-! ## Values and keys -/

def isScalarChar (c : Char) : Bool :=
  c.isAlphanum || c == '_' || c == '+' || c == '-' || c == '.'

mutual

/-- A value at the start of the characters. -/
def readValue (fuel : Nat) (cs : List Char) : Option (Value × List Char) :=
  match fuel with
  | 0 => none
  | fuel + 1 =>
    match cs with
    | '[' :: cs => readItems fuel [] cs
    | '"' :: _ => (readString cs).map fun (s, cs) => (.string s, cs)
    | '\x27' :: _ => (readString cs).map fun (s, cs) => (.string s, cs)
    | cs => (scalar? (cs.takeWhile isScalarChar)).map fun v => (v, cs.dropWhile isScalarChar)

/-- The rest of an array, behind the items read, last one first, and a comma. -/
def readItems (fuel : Nat) (read : List Value) (cs : List Char) : Option (Value × List Char) :=
  match fuel with
  | 0 => none
  | fuel + 1 =>
    match skipGap false cs with
    | none => none
    | some (']' :: cs) => some (.array read.reverse, cs)
    | some cs =>
      match readValue fuel cs with
      | none => none
      | some (item, cs) =>
        match skipGap false cs with
        | some (',' :: cs) => readItems fuel (item :: read) cs
        | some (']' :: cs) => some (.array (item :: read).reverse, cs)
        | _ => none

end

def isKeyChar (c : Char) : Bool := c.isAlphanum || c == '_' || c == '-'

/-- A key: letters, digits, underscores and hyphens, or a text on one line. -/
def readKey (cs : List Char) : Option (String × List Char) :=
  match cs with
  | '"' :: cs => readQuoted (cs.length + 1) [] cs
  | '\x27' :: cs => readLiteral [] cs
  | cs =>
    let name := cs.takeWhile isKeyChar
    if name.isEmpty then none else some (String.ofList name, cs.dropWhile isKeyChar)

/-- A key and its value, up to the end of their line. -/
def readEntry (cs : List Char) : Option ((String × Value) × List Char) := do
  let (key, cs) ← readKey cs
  match skipBlank cs with
  | '=' :: cs =>
    let (value, cs) ← readValue (cs.length + 1) (skipBlank cs)
    let cs := skipBlank cs
    if atLineEnd cs then some ((key, value), cs) else none
  | _ => none

/-- The rest of a document, behind the entries read, last one first. -/
def readEntries (fuel : Nat) (read : Document) (cs : List Char) : Option Document :=
  match fuel with
  | 0 => none
  | fuel + 1 =>
    match skipGap false cs with
    | none => none
    | some [] => some read.reverse
    | some cs =>
      match readEntry cs with
      | none => none
      | some ((key, value), cs) =>
        if read.any (·.1 == key) then none else readEntries fuel ((key, value) :: read) cs

/-- A mark of the byte order in front of a text does not belong to it. -/
def skipByteOrderMark : List Char → List Char
  | '\uFEFF' :: cs => cs
  | cs => cs

/-- The document that a text holds. No key may occur twice. -/
def read? (s : String) : Option Document :=
  let cs := skipByteOrderMark s.toList
  readEntries (cs.length + 1) [] cs

end DocGate.Toml

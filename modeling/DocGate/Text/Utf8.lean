/-
DocGate.Text.Utf8 — decoding bytes.

Bytes are read as a sequence of well-formed characters and ill-formed pieces. An
ill-formed piece is as long as the bytes could still have become a character. A text has
one replacement character for each of them, so every byte of the first block stands for
itself, and line ends stay where they are.

* `Begun`, `Lead` — what has been read of a character, and what a first byte tells.
* `pieces` — characters and ill-formed pieces, one after the other.
* `decode` — the text of any bytes; `decode?` — the text of bytes without ill-formed
  pieces.
* `encode` — the bytes of a text.

What the pieces are is said without the machine by `Utf8.Decodes`, in
`DocGate.Proofs.Text.Decoding`.
-/

namespace DocGate.Utf8

/-- A character of which some bytes have been read. -/
structure Begun where
  /-- The number that the bytes read give so far. -/
  value : Nat
  /-- The least and the greatest next byte. -/
  low : UInt8
  high : UInt8
  /-- How many bytes come behind the next one. -/
  more : Nat
  deriving DecidableEq, Repr

/-- A byte at the start of a character. -/
inductive Lead where
  /-- The byte is a character. -/
  | whole (c : Char)
  | begins (b : Begun)
  /-- No character starts with the byte. -/
  | illFormed
  deriving DecidableEq, Repr

/-- What a byte is at the start of a character. Forms that are longer than they need be, that
stand for surrogates or that are out of range are excluded by the second byte. -/
def Lead.ofByte (b : UInt8) : Lead :=
  let n := b.toNat
  if n < 0x80 then .whole (Char.ofNat n)
  else if n < 0xC2 then .illFormed
  else if n < 0xE0 then .begins ⟨n - 0xC0, 0x80, 0xBF, 0⟩
  else if n = 0xE0 then .begins ⟨0, 0xA0, 0xBF, 1⟩
  else if n = 0xED then .begins ⟨0xD, 0x80, 0x9F, 1⟩
  else if n < 0xF0 then .begins ⟨n - 0xE0, 0x80, 0xBF, 1⟩
  else if n = 0xF0 then .begins ⟨0, 0x90, 0xBF, 2⟩
  else if n < 0xF4 then .begins ⟨n - 0xF0, 0x80, 0xBF, 2⟩
  else if n = 0xF4 then .begins ⟨4, 0x80, 0x8F, 2⟩
  else .illFormed

/-- A character, or nothing for an ill-formed piece. -/
abbrev Piece := Option Char

/-- Reads a byte at the start of a character, behind the pieces read, last one first. -/
def readLead (read : List Piece) (b : UInt8) : List Piece × Option Begun :=
  match Lead.ofByte b with
  | .whole c => (some c :: read, none)
  | .begins p => (read, some p)
  | .illFormed => (none :: read, none)

/-- Reads a byte behind the bytes of a character. If it does not belong to the character, what
has been read of the character is an ill-formed piece. -/
def readNext (read : List Piece) (p : Begun) (b : UInt8) : List Piece × Option Begun :=
  if p.low ≤ b && b ≤ p.high then
    let value := p.value * 64 + (b.toNat - 0x80)
    match p.more with
    | 0 => (some (Char.ofNat value) :: read, none)
    | more + 1 => (read, some ⟨value, 0x80, 0xBF, more⟩)
  else readLead (none :: read) b

/-- Reads a byte. -/
def readByte (read : List Piece) (begun : Option Begun) (b : UInt8) : List Piece × Option Begun :=
  match begun with
  | none => readLead read b
  | some p => readNext read p b

/-- The pieces of the bytes behind what has been read. -/
def piecesOnto (read : List Piece) (begun : Option Begun) : List UInt8 → List Piece
  | [] => if begun.isSome then (none :: read).reverse else read.reverse
  | b :: bs =>
    let (read, begun) := readByte read begun b
    piecesOnto read begun bs

/-- The characters and ill-formed pieces of bytes. -/
def pieces (bytes : List UInt8) : List Piece := piecesOnto [] none bytes

/-- The text of bytes, with a replacement character for each ill-formed piece. -/
def decode (bytes : List UInt8) : String :=
  String.ofList ((pieces bytes).map fun p => p.getD '\uFFFD')

/-- The text of bytes that have no ill-formed piece. -/
def decode? (bytes : List UInt8) : Option String :=
  let ps := pieces bytes
  if ps.all Option.isSome then some (String.ofList (ps.filterMap id)) else none

/-- The bytes of a text. -/
def encode (s : String) : List UInt8 := s.toUTF8.data.toList

end DocGate.Utf8

/-
DocGate.Grammar.Rule — grammars as data: a grammar is a table of rules.

A rule says which lexemes and which other symbols follow one another, with ordered
choice where several could, and which part of what it reads becomes one node of the
tree. Because a rule is data, one small machine (`DocGate.Grammar.Machine`) reads every
language, and what it does can be stated once for all of them.

* `Rule` — the forms of rules; `maybe`, `many1` and `sepBy1` are put together from them.
* `Lexeme` — what a lexical rule finds: the comments before it, the leaf it leaves if it
  leaves one, and the cursor behind it.
* `RuleSet` — a grammar: its rules, its lexical rules, and which symbols are remembered.
-/
import DocGate.Grammar.Source

namespace DocGate.Grammar

/-- What to read: `σ` names the symbols of the grammar, `τ` its lexemes, `κ` the kinds of the
nodes it builds. -/
inductive Rule (σ τ κ : Type) where
  /-- One lexeme. -/
  | token (t : τ)
  /-- All the rules, one after the other. -/
  | seq (rules : List (Rule σ τ κ))
  /-- The first rule that can be read here. -/
  | choice (rules : List (Rule σ τ κ))
  /-- The rule as often as it can be read. -/
  | many (rule : Rule σ τ κ)
  /-- What a symbol stands for. -/
  | ref (symbol : σ)
  /-- The rule that the spelling of the next lexeme selects. -/
  | lead (table : List (String × Rule σ τ κ)) (otherwise : Rule σ τ κ)
  /-- Go on only if the rule could be read here; nothing is consumed. -/
  | ahead (rule : Rule σ τ κ)
  /-- Go on only if the rule could not be read here. -/
  | unless (rule : Rule σ τ κ)
  /-- Go on only if the kind of the node read last satisfies the test. -/
  | after (test : κ → Bool)
  /-- What the rule reads becomes one node. -/
  | node (kind : κ) (rule : Rule σ τ κ)
  /-- Like `node`, and the node keeps its source text. -/
  | quote (kind : κ) (rule : Rule σ τ κ)
  /-- What the rule reads becomes one node together with the node before it, which fills the
  given field. -/
  | wrap (kind : κ) (field : Option Field) (rule : Rule σ τ κ)
  /-- What the rule reads fills a field of the node around it. -/
  | fill (field : Field) (rule : Rule σ τ κ)

namespace Rule

variable {σ τ κ : Type}

/-- The rule that reads nothing. -/
def nothing : Rule σ τ κ := .seq []

/-- The rule that cannot be read. -/
def never : Rule σ τ κ := .choice []

def maybe (r : Rule σ τ κ) : Rule σ τ κ := .choice [r, nothing]

def many1 (r : Rule σ τ κ) : Rule σ τ κ := .seq [r, .many r]

/-- One or more times `r`, with `separator` between. -/
def sepBy1 (r separator : Rule σ τ κ) : Rule σ τ κ := .seq [r, .many (.seq [separator, r])]

end Rule

/-- A lexeme found at a cursor: the comments before it, the leaf for it if it leaves one, and
the cursor behind it. -/
structure Lexeme (κ μ : Type) where
  comments : List (ParseTree κ) := []
  leaf : Option (ParseTree κ) := none
  next : Cursor μ

/-- The rules of a grammar over symbols `σ`, lexemes `τ`, kinds `κ` and lexical memory `μ`. -/
structure RuleSet (σ τ κ μ : Type) where
  /-- The symbol for a whole source. -/
  start : σ
  /-- What each symbol stands for. -/
  rule : σ → Rule σ τ κ
  /-- The lexeme `τ` at a cursor, if it stands there. -/
  scan : τ → Source → Cursor μ → Option (Lexeme κ μ)
  /-- The spelling of the lexeme that starts exactly at a place. -/
  spelling : Source → Nat → String
  /-- Whether the outcome of a symbol at a place is remembered. -/
  remembers : σ → Bool
  /-- The lexical memory at the start of a source. -/
  initial : μ

end DocGate.Grammar

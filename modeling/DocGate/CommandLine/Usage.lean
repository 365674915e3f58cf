/-
DocGate.CommandLine.Usage — the words of a command line: the options that each level
knows, how their values are read, and what can be wrong.

The level of a command knows the options that hold for every command besides its own.

* `Flag`, `Field` — options without and with a value; `long?` and `short?` find the one
  that a level has under a name.
* `readThreshold`, `readRatio`, `readFormat`, `readColour`, `readPath` — a value from
  its text, or what is wrong with it. A threshold is a number of 32 bits here; whether
  it is in range is for the settings to say.
* `UsageError` — what is wrong with a command line, with its exit code. The version and
  a value that cannot be read have a `message?` of this library; the texts of the others
  are not part of it.
-/
import DocGate.CommandLine.Basic
import DocGate.Number.Decimal
import DocGate.Number.Integer64

namespace DocGate.CommandLine

/-- The part of a command line in front of the command, or behind it. -/
inductive Level where
  | top
  | check
  | scan
  deriving DecidableEq, Repr

/-- An option without a value. -/
inductive Flag where
  | verbose
  | quiet
  | defaultsOnly
  | staged
  | help
  | version
  deriving DecidableEq, Repr

/-- An option with a value. -/
inductive Field where
  | colour
  | config
  | threshold
  | failUnder
  | format
  | output
  deriving DecidableEq, Repr

/-- What a name of an option stands for. -/
inductive Item where
  | flag (f : Flag)
  | field (f : Field)
  deriving DecidableEq, Repr

namespace Field

/-- A field as messages show it. -/
def label : Field → String
  | colour => "--color <COLOR>"
  | config => "--config <CONFIG>"
  | threshold => "--threshold <THRESHOLD>"
  | failUnder => "--fail-under <FAIL_UNDER>"
  | format => "--format <FORMAT>"
  | output => "--output <OUTPUT>"

end Field

namespace Level

/-- The options with a long name that hold for every command. -/
def commonLong? : String → Option Item
  | "verbose" => some (.flag .verbose)
  | "quiet" => some (.flag .quiet)
  | "no-config" => some (.flag .defaultsOnly)
  | "color" => some (.field .colour)
  | "help" => some (.flag .help)
  | _ => none

/-- The options with a long name that a command has. -/
def reportLong? : String → Option Item
  | "config" => some (.field .config)
  | "format" => some (.field .format)
  | "output" => some (.field .output)
  | _ => none

/-- The option with a long name. -/
def long? (level : Level) (name : String) : Option Item :=
  commonLong? name <|>
    match level, name with
    | top, "version" => some (.flag .version)
    | top, _ => none
    | check, "staged" => some (.flag .staged)
    | check, "threshold" => some (.field .threshold)
    | scan, "fail-under" => some (.field .failUnder)
    | _, name => reportLong? name

/-- The option with a short name. -/
def short? (level : Level) (c : Char) : Option Item :=
  match level, c with
  | _, 'v' => some (.flag .verbose)
  | _, 'q' => some (.flag .quiet)
  | _, 'h' => some (.flag .help)
  | top, 'V' => some (.flag .version)
  | top, _ => none
  | _, 'c' => some (.field .config)
  | _, 'f' => some (.field .format)
  | _, 'o' => some (.field .output)
  | _, _ => none

end Level

/-- Why a command line is not carried out. -/
inductive UsageError where
  /-- It asks for help. -/
  | help
  /-- It asks for the version. -/
  | version
  /-- Nothing is given. -/
  | nothing
  | missingCommand
  | unknownCommand
  | unknownArgument
  /-- A value is missing, or it is not one of those there are. -/
  | invalidValue
  /-- A value cannot be read. -/
  | unreadableValue (field : Field) (value reason : String)
  /-- An option is given twice. -/
  | repeatedOption
  /-- An option has a value that takes none. -/
  | surplusValue
  deriving DecidableEq, Repr

namespace UsageError

/-- Only what was asked for is no failure. -/
def exitCode : UsageError → Nat
  | help | version => 0
  | _ => 2

/-- The text to show, where this library has one. -/
def message? : UsageError → Option String
  | version => some "cognitive-guard 0.1.0\n"
  | unreadableValue field value reason =>
    some ("error: invalid value '" ++ value ++ "' for '" ++ field.label ++ "': " ++ reason
      ++ "\n\nFor more information, try '--help'.\n")
  | _ => none

end UsageError

/-! ## Values -/

/-- A choice of colours. -/
def readColour (s : String) : Except UsageError ColourChoice :=
  match s with
  | "auto" => .ok .auto
  | "always" => .ok .always
  | "never" => .ok .never
  | _ => .error .invalidValue

/-- A path, which is never empty. -/
def readPath (s : String) : Except UsageError Path :=
  if s.isEmpty then .error .invalidValue else .ok ⟨s⟩

def readFormat (s : String) : Except UsageError ReportFormat :=
  (ReportFormat.ofName s).mapError (.unreadableValue .format s)

/-- A threshold of 32 bits. -/
def readThreshold (s : String) : Except UsageError Nat :=
  match Integer64.read s with
  | .error fault => .error (.unreadableValue .threshold s fault.message)
  | .ok n =>
    if 0 ≤ n && n < UInt32.size then .ok n.toNat
    else .error (.unreadableValue .threshold s (toString n ++ " is not in 0..=4294967295"))

/-- A part of a whole. -/
def readRatio (s : String) : Except UsageError Binary64 :=
  match Binary64.read? s with
  | none => .error (.unreadableValue .failUnder s ("'" ++ s ++ "' is not a number"))
  | some x =>
    if x.isRatio then .ok x
    else
      .error (.unreadableValue .failUnder s
        (x.spell Binary64.messageStyle ++ " is not between 0.0 and 1.0"))

end DocGate.CommandLine

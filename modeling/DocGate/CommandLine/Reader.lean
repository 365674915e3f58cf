/-
DocGate.CommandLine.Reader — reading a command line, word by word.

Words are read from the left. An option that takes a value and has none attached waits
for the next word; its value is read only when the next option or path settles it, or at
the end. So of two mistakes the one that is noticed first counts. Behind two hyphens
every word is a path.

* `Word.ofString` — what kind of word a text is; several short options may share one
  word.
* `Given` — what has been read so far, with the option that waits for its value
  (`Pending`); `settle` reads that value and puts it in its place.
* `readOptions` — the words of one level of the command line, down to the word that
  names a command; `readTop` and `read` join the two levels.

`read` answers every list of words, with an invocation or with a `UsageError`. There is
no side condition on the words: texts that are no option of the level, values that are
out of place and options given twice are all errors of their own.
-/
import DocGate.CommandLine.Usage

namespace DocGate.CommandLine

/-- A word in front of two hyphens. -/
inductive Word where
  /-- Two hyphens. -/
  | separator
  | long (name : String) (value : Option String)
  /-- Options with short names, of which the last may have its value attached. -/
  | short (cs : List Char)
  | plain (text : String)
  deriving DecidableEq, Repr

/-- What a word looks like. One hyphen is a plain word. -/
def Word.ofString (s : String) : Word :=
  match s.toList with
  | ['-', '-'] => .separator
  | '-' :: '-' :: cs =>
    .long (String.ofList (cs.takeWhile (· != '=')))
      (match cs.dropWhile (· != '=') with
      | [] => none
      | _ :: value => some (String.ofList value))
  | '-' :: c :: cs => .short (c :: cs)
  | _ => .plain s

/-- What waits to be settled. -/
inductive Pending where
  | field (f : Field) (value : Option String)
  | path (value : String)
  deriving DecidableEq, Repr

/-- What one level of a command line gives. -/
structure Given where
  verbose : Option Nat := none
  quiet : Bool := false
  defaultsOnly : Bool := false
  staged : Bool := false
  colour : Option ColourChoice := none
  config : Option Path := none
  threshold : Option Nat := none
  failUnder : Option Binary64 := none
  format : Option ReportFormat := none
  output : Option Path := none
  path : Option Path := none
  pending : Option Pending := none
  deriving DecidableEq, Repr

namespace Given

/-- Whether an option waits for its value. -/
def awaitsValue (g : Given) : Bool := g.pending matches some (.field _ none)

/-- Whether a path has been given. -/
def hasPath (g : Given) : Bool := g.path.isSome || g.pending matches some (.path _)

/-- The value of an option, unless the option has one already. -/
def once {α : Type} (old : Option α) (new : Except UsageError α) :
    Except UsageError (Option α) :=
  if old.isSome then .error .repeatedOption else new.map some

/-- Stores the value of a field. -/
def store (g : Given) (value : String) : Field → Except UsageError Given
  | .colour => do return { g with colour := ← once g.colour (readColour value) }
  | .config => do return { g with config := ← once g.config (readPath value) }
  | .threshold => do return { g with threshold := ← once g.threshold (readThreshold value) }
  | .failUnder => do return { g with failUnder := ← once g.failUnder (readRatio value) }
  | .format => do return { g with format := ← once g.format (readFormat value) }
  | .output => do return { g with output := ← once g.output (readPath value) }

/-- Settles what is pending. -/
def settle (g : Given) : Except UsageError Given :=
  match g.pending with
  | none => .ok g
  | some (.field _ none) => .error .invalidValue
  | some (.field f (some value)) => { g with pending := none }.store value f
  | some (.path value) => do return { g with pending := none, path := some (← readPath value) }

/-- Sets a flag that may be given once. -/
def setOnce (old : Bool) (new : Given) : Except UsageError Given :=
  if old then .error .repeatedOption else .ok new

/-- Adds a flag. -/
def addFlag (g : Given) (f : Flag) : Except UsageError Given := do
  let g ← g.settle
  match f with
  | .verbose => return { g with verbose := some (min 255 (g.verbose.getD 0 + 1)) }
  | .quiet => setOnce g.quiet { g with quiet := true }
  | .defaultsOnly => setOnce g.defaultsOnly { g with defaultsOnly := true }
  | .staged => setOnce g.staged { g with staged := true }
  | .help => .error .help
  | .version => .error .version

/-- Adds a field, whose value may be attached. -/
def addField (g : Given) (f : Field) : Option String → Except UsageError Given
  | some value => do (← g.settle).store value f
  | none => do return { (← g.settle) with pending := some (.field f none) }

/-- Adds an option with a long name. -/
def addLong (level : Level) (g : Given) (name : String) (value : Option String) :
    Except UsageError Given :=
  match level.long? name with
  | none => .error .unknownArgument
  | some (.field f) => g.addField f value
  | some (.flag f) => if value.isSome then .error .surplusValue else g.addFlag f

/-- What is attached to a short name, behind an equals sign if there is one. -/
def attached : List Char → Option String
  | [] => none
  | '=' :: cs => some (String.ofList cs)
  | cs => some (String.ofList cs)

/-- Adds options with short names. -/
def addShorts (level : Level) (g : Given) : List Char → Except UsageError Given
  | [] => .ok g
  | c :: cs =>
    match level.short? c with
    | none => .error .unknownArgument
    | some (.field f) => g.addField f (attached cs)
    | some (.flag f) => do addShorts level (← g.addFlag f) cs

/-- Gives the option that waits its value. -/
def supply (g : Given) (value : String) : Given :=
  match g.pending with
  | some (.field f none) => { g with pending := some (.field f (some value)) }
  | _ => g

/-- Adds a path. There may be one. -/
def addPath (g : Given) (value : String) : Except UsageError Given :=
  if g.hasPath then .error .unknownArgument
  else do return { (← g.settle) with pending := some (.path value) }

/-- Whether nothing has been given. -/
def isNothing (g : Given) : Bool :=
  g.verbose.isNone && !g.quiet && !g.defaultsOnly && g.colour.isNone

end Given

/-- Reads the words behind a command; `plainOnly` says that two hyphens have been read. -/
def readOptions (level : Level) (g : Given) (plainOnly : Bool) :
    List String → Except UsageError Given
  | [] => g.settle
  | w :: ws =>
    if plainOnly then do readOptions level (← g.addPath w) true ws
    else
      match Word.ofString w with
      | .separator => readOptions level g true ws
      | .long name value => do readOptions level (← g.addLong level name value) false ws
      | .short cs => do readOptions level (← g.addShorts level cs) false ws
      | .plain text =>
        if g.awaitsValue then readOptions level (g.supply text) false ws
        else do readOptions level (← g.addPath text) false ws

/-- The level of a command with a name. -/
def Level.ofCommand? : String → Option Level
  | "check" => some .check
  | "scan" => some .scan
  | _ => none

/-- What a request for help is answered with: help, unless a word names no command. -/
def helpOn : List String → UsageError
  | [] => .help
  | ["check"] | ["scan"] | ["help"] => .help
  | _ => .unknownCommand

/-- Reads the words in front of a command and, behind the command, its words. -/
def readTop (g : Given) (plainOnly : Bool) :
    List String → Except UsageError (Given × Level × Given)
  | [] => do
    let g ← g.settle
    .error (if g.isNothing then .nothing else .missingCommand)
  | w :: ws =>
    if plainOnly then
      .error (if (Level.ofCommand? w).isSome || w == "help" then .unknownArgument
        else .unknownCommand)
    else
      match Word.ofString w with
      | .separator => readTop g true ws
      | .long name value => do readTop (← g.addLong .top name value) false ws
      | .short cs => do readTop (← g.addShorts .top cs) false ws
      | .plain text =>
        if g.awaitsValue then readTop (g.supply text) false ws
        else if text == "help" then .error (helpOn ws)
        else
          match Level.ofCommand? text with
          | none => .error .unknownCommand
          | some level => do
            let inner ← readOptions level {} false ws
            return (← g.settle, level, inner)

/-- What holds for every command. What is given behind the command counts more than what is given
in front of it. -/
def commonOptions (outer inner : Given) : CommonOptions where
  verbosity := (inner.verbose <|> outer.verbose).getD 0
  quiet := inner.quiet || outer.quiet
  defaultsOnly := inner.defaultsOnly || outer.defaultsOnly
  colour := (inner.colour <|> outer.colour).getD .auto

/-- The command of a level. -/
def commandOf (level : Level) (g : Given) : Command :=
  let path : Path := g.path.getD ⟨"."⟩
  let format := g.format.getD .text
  match level with
  | .scan => .scan
      { path, format, config := g.config, failUnder := g.failUnder, output := g.output }
  | _ => .check
      { path, format, config := g.config, staged := g.staged, threshold := g.threshold
        output := g.output }

/-- Reads a command line. -/
def read (args : List String) : Except UsageError Invocation := do
  let (outer, level, inner) ← readTop {} false args
  return { common := commonOptions outer inner, command := commandOf level inner }

end DocGate.CommandLine

/-
DocGate.Problem — why a command can fail.

A problem has a message; if another failure caused it, that one is told as a detail.
Problems that better settings would solve are told apart from the others.

* `FileFault` — why a file could not be read or written, with the text of the system.
* `Problem` — why a command fails. That a report cannot be printed is none of them: it
  aborts the command (`Workspace.abort`).
* `Problem.concernsSettings` — whether better settings would help. A root that is no
  directory counts among these.

Of settings that are malformed the message does not say where, since its text belongs to
the reader of the format.
-/
import DocGate.IgnoreFilter
import DocGate.Number.Spelling

namespace DocGate

/-- Why a file could not be read or written. -/
inductive FileFault where
  | missing
  | notDirectory
  | isDirectory
  | tooManyLinks
  /-- The bytes are no text. -/
  | notText
  /-- The access is not granted. -/
  | denied
  /-- A fault that the holder of the files describes. -/
  | other (text : String)
  deriving DecidableEq, Repr

namespace FileFault

def message : FileFault → String
  | missing => "No such file or directory (os error 2)"
  | notDirectory => "Not a directory (os error 20)"
  | isDirectory => "Is a directory (os error 21)"
  | tooManyLinks => "Too many levels of symbolic links (os error 40)"
  | notText => "stream did not contain valid UTF-8"
  | denied => "Permission denied (os error 13)"
  | other text => text

end FileFault

/-- Why a command fails. -/
inductive Problem where
  | thresholdOutOfRange (threshold : Nat)
  | targetOutOfRange (target : Binary64)
  | rootNotDirectory (root : Path)
  | invalidPattern (error : PatternError)
  /-- The text of the settings is not in their format, or sets what there is not. -/
  | malformedSettings
  | unreadable (path : Path) (fault : FileFault)
  | unwritable (fault : FileFault)
  deriving DecidableEq, Repr

namespace Problem

/-- Whether better settings would solve the problem. -/
def concernsSettings : Problem → Bool
  | thresholdOutOfRange _ | targetOutOfRange _ | rootNotDirectory _ => true
  | invalidPattern _ | malformedSettings => true
  | unreadable .. | unwritable _ => false

def message : Problem → String
  | thresholdOutOfRange n =>
    "Configuration error: complexity_threshold must be between 1 and 20, got " ++ toString n
  | targetOutOfRange x =>
    "Configuration error: target_coverage must be between 0.0 and 1.0, got "
      ++ x.spell Binary64.messageStyle
  | rootNotDirectory root => "Configuration error: Scan root is not a directory: " ++ root.text
  | invalidPattern e => "Invalid glob pattern: " ++ e.pattern
  | malformedSettings => "TOML parse error"
  | unreadable path _ => "Failed to read file: " ++ path.text
  | unwritable fault => "IO error: " ++ fault.message

/-- What caused the problem, if it has a cause of its own. -/
def detail? : Problem → Option String
  | invalidPattern e => some e.error.message
  | unreadable _ fault => some fault.message
  | unwritable fault => some fault.message
  | _ => none

end Problem

end DocGate

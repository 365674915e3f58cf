/-
DocGate.Config.Loading — which settings are used.

Settings may be given in a file that is named; otherwise in a file in the working
directory; otherwise in a file in the settings directory of the user; otherwise there
are only the defaults. Once a file has been chosen, nothing else is looked at, even if
the file is of no use.

* `Surroundings` — what decides on the choice: two directories, which files there are,
  and how a file is read.
* `Config.candidates`, `Config.chosen?` — the places that are looked at, and the first
  of them at which there is a file.
* `Config.loadWith` — the settings of a command, where `read` reads the text of a file;
  `Config.load` takes the reader of `DocGate.Config.Reader`.

What holds of `loadWith` for every reader is proved in `DocGate.Proofs.Run.Settings`.
-/
import DocGate.Config.Reader

namespace DocGate

/-- What of the world around a command decides which settings it uses. -/
structure Surroundings where
  /-- The working directory, if it is known. -/
  workingDirectory : Option Path
  /-- The directory for the settings of the user, if there is one. -/
  settingsDirectory : Option Path
  hasFile : Path → Bool
  readText : Path → Except FileFault String

namespace Config

/-- The name of the file in a working directory. -/
def localName : Path := ⟨".cognitive-guard.toml"⟩

/-- The name of the file in the settings directory of a user. -/
def userName : Path := ⟨"config.toml"⟩

/-- The settings that a text gives, if they are valid; `read` reads the text. -/
def ofTextWith (read : String → Option Settings) (text : String) : Except Problem Config :=
  match read text with
  | some s => (ofSettings s).validated
  | none => .error .malformedSettings

/-- The settings in a file. -/
def loadFileWith (read : String → Option Settings) (s : Surroundings) (path : Path) :
    Except Problem Config :=
  match s.readText path with
  | .ok text => ofTextWith read text
  | .error fault => .error (.unreadable path fault)

/-- Where files of settings may be that nobody named, best place first. -/
def candidates (s : Surroundings) : List Path :=
  (s.workingDirectory.map (·.join localName)).toList
    ++ (s.settingsDirectory.map (·.join userName)).toList

/-- The file of settings to use: the named one, or the first one there is. -/
def chosen? (s : Surroundings) (named : Option Path) : Option Path :=
  named <|> (candidates s).find? s.hasFile

/-- The settings to use; `read` reads their text. -/
def loadWith (read : String → Option Settings) (s : Surroundings) (named : Option Path)
    (defaultsOnly : Bool) : Except Problem Config :=
  if defaultsOnly then .ok default
  else
    match chosen? s named with
    | some path => loadFileWith read s path
    | none => .ok default

/-- The settings to use. -/
def load (s : Surroundings) (named : Option Path) (defaultsOnly : Bool) : Except Problem Config :=
  loadWith Settings.read? s named defaultsOnly

end Config

end DocGate

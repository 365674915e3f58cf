/-
DocGate.Main — the command line tool.

A command works on a picture of the files it may look at: those below its path, and the
files of settings. It comes to its verdict on the picture; then the report is delivered
to the disk or to the output. A picture has no repositories, so a check of staged files
finds none on the disk.

* `look`, `readNode?` — the picture of what a path leads to. What cannot be listed or
  read is missing from it.
* `deliver` — as `Workspace.deliver`, on the disk: a file that cannot be written is a
  failure, and an output that cannot be printed to aborts the command.
* `carryOut` — a command from its invocation to its exit code.

Everything that is decided is decided by `Workspace.judge`; this module reads, writes
and nothing else.
-/
import DocGate.CommandLine.Reader
import DocGate.Run

namespace DocGate.Tool

/-- The tree at a place of the disk, unless there is something else than files, directories and
links. A link is kept as one to the place where it leads. -/
partial def readNode? (e : IO.FS.DirEntry) : IO (Option Node) := do
  try
    match (← e.path.symlinkMetadata).type with
    | .file =>
      let bytes ← IO.FS.readBinFile e.path
      return some (.file { content := bytes.data.toList })
    | .dir =>
      let mut entries : List (String × Node) := []
      for child in ← e.path.readDir do
        if let some n ← readNode? child then entries := (child.fileName, n) :: entries
      return some (.directory entries)
    | .symlink => return some (.link ⟨toString (← IO.FS.realPath e.path)⟩)
    | .other => return none
  catch _ => return none

/-- Adds to a picture what a path leads to. The directories on the way are added empty. -/
def look (w : Workspace) (p : Path) : IO Workspace := do
  let mut w := w
  for k in List.range p.names.length do
    let way : Path := ⟨"/".intercalate (p.names.take k)⟩
    if let some l := w.nominal? way then
      if (w.root.at? l).isNone then w := { w with root := w.root.put l .empty }
  try
    let place ← IO.FS.realPath p.text
    match w.nominal? p, ← readNode? ⟨place, "."⟩ with
    | some l, some n => return { w with root := w.root.put l n }
    | _, _ => return w
  catch _ => return w

/-- The directory for the settings of the user. -/
def settingsDirectory? : IO (Option Location) := do
  match ← IO.getEnv "XDG_CONFIG_HOME", ← IO.getEnv "HOME" with
  | some base, _ => return some (Path.locate ⟨base ++ "/cognitive-guard"⟩)
  | none, some home => return some (Path.locate ⟨home ++ "/.config/cognitive-guard"⟩)
  | none, none => return none

/-- The paths that a command may look at. -/
def pathsOf (w : Workspace) (c : Command) : List Path :=
  let (path, config) := match c with
    | .check o => (o.path, o.config)
    | .scan o => (o.path, o.config)
  path :: config.toList ++ Config.candidates w.surroundings

/-- Whether colours are shown is known once it is known where the output goes. -/
def decideColour (i : Invocation) : IO Invocation := do
  let colour ← match i.common.colour with
    | .auto =>
      let plain := (← IO.getEnv "NO_COLOR").isSome || !(← (← IO.getStdout).isTty)
      pure (if plain then ColourChoice.never else .always)
    | c => pure c
  return { i with common := { i.common with colour } }

def faultOf : IO.Error → FileFault
  | .noFileOrDirectory .. => .missing
  | .permissionDenied .. => .denied
  | e => .other (toString e)

/-- Prints a report, or tells why it cannot be printed. -/
def print (report : String) : IO (Option FileFault) := do
  try
    let out ← IO.getStdout
    out.putStr report
    out.flush
    return none
  catch e => return some (faultOf e)

/-- Delivers a verdict and yields the exit code. -/
def deliver (w : Workspace) (common : CommonOptions) (v : Verdict) :
    IO (Except Problem Nat) := do
  match v.destination with
  | some p =>
    try
      IO.FS.writeFile p.text v.report
    catch e => return .error (.unwritable (faultOf e))
  | none =>
    if !common.quiet then
      if let some fault ← print v.report then
        let aborted := w.abort fault
        IO.eprintln (aborted.abortion.getD "")
        return .ok aborted.exitCode
  IO.eprint v.remark
  return .ok v.exitCode

/-- Tells of a problem. -/
def fail (common : CommonOptions) (p : Problem) : IO UInt32 := do
  IO.eprint (p.notice.render common.colour.shows)
  return 2

/-- Carries out a command on the disk. -/
def carryOut (i : Invocation) : IO UInt32 := do
  let i ← decideColour i
  let here : Path := ⟨toString (← IO.currentDir)⟩
  let w : Workspace :=
    { workingDirectory := here.locate, settingsDirectory := ← settingsDirectory? }
  let w ← (pathsOf w i.command).foldlM look { w with root := w.root.put here.locate .empty }
  match w.judge i with
  | .error p => fail i.common p
  | .ok v =>
    match ← deliver w i.common v with
    | .ok exitCode => return exitCode.toUInt32
    | .error p => fail i.common p

/-- What is said about a command line that is not carried out. -/
def explain (e : CommandLine.UsageError) : String :=
  e.message?.getD "usage: cognitive-guard [OPTIONS] <check|scan> [PATH]\n"

end DocGate.Tool

open DocGate in
def main (args : List String) : IO UInt32 := do
  match CommandLine.read args with
  | .ok i => Tool.carryOut i
  | .error e =>
    if e.exitCode = 0 then IO.print (Tool.explain e) else IO.eprint (Tool.explain e)
    return e.exitCode.toUInt32

/-
DocGate.Workspace.Basic — what a command finds around it.

A workspace is a tree of files, the place where it works, the place for the settings of
the user, and the repositories in the tree. A path leads to a place by following the
links on the way.

* `Node.follow`, `Workspace.resolve`, `Workspace.find` — where names and paths lead, and
  what is there. At most `Path.maxLinks` links are followed.
* `Workspace.readSource?` — the text of a source file, be its bytes a text or not.
* `Workspace.write` — a file written or made anew. Only the directory that holds it must
  be there.
* `Workspace.discover`, `Workspace.stagedFiles` — the repository that a path belongs to,
  and its staged files.
* `Workspace.outputFault` — why the standard output takes nothing, if it takes nothing.

A directory can always be listed and searched, and only files can be unreadable. Names
are texts. The error output takes everything.
-/
import DocGate.Problem
import DocGate.Repository
import DocGate.Text.Utf8

namespace DocGate

/-- What a command finds around it. -/
structure Workspace where
  /-- The tree from the root. -/
  root : Node := .empty
  workingDirectory : Location := []
  /-- The directory for the settings of the user. -/
  settingsDirectory : Option Location := none
  repositories : List (Location × Repository) := []
  /-- Why the standard output takes nothing, if it takes nothing. -/
  outputFault : Option FileFault := none
  deriving Repr

/-- How many links a path may lead through. -/
def Path.maxLinks : Nat := 40

namespace Node

/-- Where names lead from a directory. A name of nothing and a dot stay in the directory, two dots
lead to the directory above, and a link leads on from the directory that holds it. -/
def follow (root : Node) (links : Nat) (here : Location) :
    List String → Except FileFault Location
  | [] => .ok here
  | name :: names =>
    match root.at? here with
    | some (.directory es) =>
      if name = "" || name = "." then follow root links here names
      else if name = ".." then follow root links here.dropLast names
      else
        match es.lookup name with
        | none => .error .missing
        | some (.link target) =>
          match links with
          | 0 => .error .tooManyLinks
          | links + 1 =>
            follow root links (if target.isAbsolute then [] else here) (target.names ++ names)
        | some _ => follow root links (here ++ [name]) names
    | _ => .error .notDirectory
termination_by names => (links, names.length)

/-- Where names lead from a directory if a file is to be written there, which need not exist yet.
Behind the name of a file there may be nothing, not even a slash. -/
def followForWriting (root : Node) (links : Nat) (here : Location) :
    List String → Except FileFault Location
  | [] => .error .isDirectory
  | name :: names =>
    match root.at? here with
    | some (.directory es) =>
      if name = "" || name = "." then followForWriting root links here names
      else if name = ".." then followForWriting root links here.dropLast names
      else
        match es.lookup name with
        | none =>
          if names.isEmpty then .ok (here ++ [name])
          else if names.all String.isEmpty then .error .isDirectory
          else .error .missing
        | some (.link target) =>
          match links with
          | 0 => .error .tooManyLinks
          | links + 1 =>
            followForWriting root links (if target.isAbsolute then [] else here)
              (target.names ++ names)
        | some (.file _) =>
          if names.isEmpty then .ok (here ++ [name])
          else if names.all String.isEmpty then .error .isDirectory
          else .error .notDirectory
        | some (.directory _) => followForWriting root links (here ++ [name]) names
    | _ => .error .notDirectory
termination_by names => (links, names.length)

end Node

namespace Workspace

/-- Where a path starts. -/
def start (w : Workspace) (p : Path) : Location := if p.isAbsolute then [] else w.workingDirectory

/-- Where a path leads to. -/
def resolve (w : Workspace) (p : Path) : Except FileFault Location :=
  if p.text.isEmpty then .error .missing
  else w.root.follow Path.maxLinks (w.start p) p.names

/-- What a path leads to. -/
def find (w : Workspace) (p : Path) : Except FileFault Node :=
  match w.resolve p with
  | .ok l =>
    match w.root.at? l with
    | some n => .ok n
    | none => .error .missing
  | .error fault => .error fault

/-- Whether a path leads to anything. -/
def has (w : Workspace) (p : Path) : Bool := (w.find p).isOk

/-- Whether a path leads to a file. -/
def hasFile (w : Workspace) (p : Path) : Bool :=
  match w.find p with
  | .ok n => n.isFile
  | .error _ => false

/-- The bytes of a file. -/
def readBytes (w : Workspace) (p : Path) : Except FileFault (List UInt8) :=
  match w.find p with
  | .ok (.file f) => if f.readable then .ok f.content else .error .denied
  | .ok _ => .error .isDirectory
  | .error fault => .error fault

/-- The text of a file whose bytes are a text. -/
def readText (w : Workspace) (p : Path) : Except FileFault String :=
  match w.readBytes p with
  | .ok bytes =>
    match Utf8.decode? bytes with
    | some s => .ok s
    | none => .error .notText
  | .error fault => .error fault

/-- The text of a source file, with replacement characters where its bytes are no text. -/
def readSource? (w : Workspace) (p : Path) : Option String :=
  match w.readBytes p with
  | .ok bytes => some (Utf8.decode bytes)
  | .error _ => none

/-- Writes a file, which may be new. -/
def write (w : Workspace) (p : Path) (content : List UInt8) : Except FileFault Workspace :=
  if p.text.isEmpty then .error .missing
  else
    match w.root.followForWriting Path.maxLinks (w.start p) p.names with
    | .ok l =>
      let file : File := match w.root.at? l with
        | some (.file old) => { old with content }
        | _ => { content }
      .ok { w with root := w.root.put l (.file file) }
    | .error fault => .error fault

/-! ## Repositories -/

/-- Where a path leads to by its names alone, links being directories like others. -/
def nominal? (w : Workspace) (p : Path) : Option Location :=
  p.names.foldlM
    (fun here name =>
      if name = "" || name = "." then some here
      else if name = ".." then if here.isEmpty then none else some here.dropLast
      else some (here ++ [name]))
    (w.start p)

/-- A location and all those above it, the location first. -/
def upwards (l : Location) : List Location := (List.range (l.length + 1)).reverse.map l.take

/-- The repository at a place. -/
def repositoryAt? (w : Workspace) (l : Location) : Option (Location × Repository) :=
  match w.resolve l.absolute with
  | .ok l => (w.repositories.lookup l).map fun r => (l, r)
  | .error _ => none

/-- The repository that a directory belongs to, with its place. -/
def discover (w : Workspace) (p : Path) : Except RepositoryFault (Location × Repository) :=
  match w.find p, w.nominal? p with
  | .ok (.directory _), some l =>
    match (upwards l).findSome? w.repositoryAt? with
    | some (l, r) => if r.bare then .error .bare else .ok (l, r)
    | none => .error .notFound
  | _, _ => .error .noDirectory

/-- The staged files of the repository that a directory belongs to. -/
def stagedFiles (w : Workspace) (p : Path) : Except RepositoryFault (Location × List Path) := do
  let (l, r) ← w.discover p
  return (l, ← r.staged)

end Workspace

end DocGate

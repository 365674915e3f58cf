/-
DocGate.Workspace.Edit — changing a workspace: what can be done to it between commands.

* `makeDirectory`, `store`, `modify`, `link`, `remove` — directories, files and links.
* `makeRepository`, `stage`, `unstage`, `conflict`, `commit` — repositories and their
  state.

None of this is done by a command. A change that cannot be made leaves the workspace as
it is.
-/
import DocGate.Workspace.Basic

namespace DocGate.Workspace

/-- Makes a directory in one that exists. -/
def makeDirectory (w : Workspace) (p : Path) : Workspace :=
  match w.root.followForWriting Path.maxLinks (w.start p) p.names with
  | .ok l => if (w.root.at? l).isSome then w else { w with root := w.root.put l .empty }
  | .error _ => w

/-- Makes a directory and those that lead to it, given by its names. -/
def makeDirectories (w : Workspace) (names : List String) : Workspace :=
  (List.range names.length).foldl
    (fun w k => w.makeDirectory ⟨"/".intercalate (names.take (k + 1))⟩) w

/-- Writes a file and makes the directories that lead to it. -/
def store (w : Workspace) (p : Path) (content : List UInt8) : Workspace :=
  let w := w.makeDirectories p.names.dropLast
  match w.write p content with
  | .ok w => w
  | .error _ => w

/-- Changes what a path leads to. -/
def modify (w : Workspace) (p : Path) (change : Node → Node) : Workspace :=
  match w.resolve p with
  | .ok l =>
    match w.root.at? l with
    | some n => { w with root := w.root.put l (change n) }
    | none => w
  | .error _ => w

/-- The place that a path names, links on the way followed and the last one not. -/
def place? (w : Workspace) (p : Path) : Option Location :=
  match p.locate.getLast?, w.root.follow Path.maxLinks (w.start p) p.locate.dropLast with
  | some name, .ok l => some (l ++ [name])
  | _, _ => none

/-- Makes a link. -/
def link (w : Workspace) (p target : Path) : Workspace :=
  let w := w.makeDirectories p.names.dropLast
  match w.place? p with
  | some l => { w with root := w.root.put l (.link target) }
  | none => w

/-- Lets a file be run. -/
def makeExecutable (w : Workspace) (p : Path) : Workspace :=
  w.modify p fun n =>
    match n with
    | .file f => .file { f with executable := true }
    | n => n

/-- Takes away a file, a link, or a directory with all that is in it. -/
def remove (w : Workspace) (p : Path) : Workspace :=
  match w.place? p with
  | some l => { w with root := w.root.erase l }
  | none => w

/-! ## Repositories -/

/-- Makes a repository in a directory, which may be new. -/
def makeRepository (w : Workspace) (p : Path) (bare : Bool) : Workspace :=
  let w := w.makeDirectories p.names
  match w.resolve p with
  | .ok l =>
    if (w.repositories.lookup l).isSome then w
    else { w with repositories := (l, { bare }) :: w.repositories }
  | .error _ => w

/-- Changes the repository of the working directory, given the files it looks after. -/
def modifyRepository (w : Workspace) (change : Node → Repository → Repository) : Workspace :=
  match w.discover ⟨"."⟩ with
  | .ok (l, r) =>
    let files := (w.root.at? l).getD .empty
    { w with repositories := w.repositories.map fun e =>
        if e.1 == l then (l, change files r) else e }
  | .error _ => w

/-- Puts what is at or below paths into the index. -/
def stage (w : Workspace) (ps : List Path) : Workspace :=
  w.modifyRepository fun files r => ps.foldl (fun r p => r.add files p.locate) r

/-- Drops what is at or below paths from the index. -/
def unstage (w : Workspace) (ps : List Path) : Workspace :=
  w.modifyRepository fun _ r => ps.foldl (fun r p => r.drop p.locate) r

/-- Makes a file conflict. -/
def conflict (w : Workspace) (p : Path) (versions : List (List UInt8)) : Workspace :=
  w.modifyRepository fun _ r => r.conflict p.locate versions

/-- Commits the index. -/
def commit (w : Workspace) : Workspace := w.modifyRepository fun _ r => r.commit

end DocGate.Workspace

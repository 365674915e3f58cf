/-
DocGate.Repository — repositories and their staged files.

A repository keeps a snapshot of its last commit and an index of what the next one will
hold. A file is staged if the index holds a version of it that the snapshot does not. Of
the entries of a snapshot only files are known: a link or another repository counts as
absent from it.

* `Snapshot`, `Snapshot.files` — what a commit holds, as a tree, and its files with
  their locations.
* `IndexEntry` — an entry of the index. While a merge is not settled there may be
  several entries of one path.
* `Repository.staged` — the staged files, each path once, in the order of paths; or why
  they cannot be told (`RepositoryFault`).
* `Repository.add`, `drop`, `conflict`, `commit` — how a repository comes to its state.

An entry of a snapshot is a node of a tree, and its name a text. A name whose bytes are
no text is outside this library.
-/
import DocGate.Workspace.Node

namespace DocGate

/-- What identifies an object of a repository: its bytes. -/
structure ObjectId where
  bytes : List UInt8
  deriving DecidableEq, Repr

/-- A snapshot of a directory. -/
inductive Snapshot where
  | file (id : ObjectId) (executable : Bool)
  | link (id : ObjectId)
  /-- Another repository at this place. -/
  | submodule (id : ObjectId)
  | directory (entries : List (String × Snapshot))
  deriving Repr, Inhabited

namespace Snapshot

mutual

/-- The files of a snapshot with their objects, behind `here`. -/
def filesFrom (here : Location) : Snapshot → List (Location × ObjectId)
  | .file id _ => [(here, id)]
  | .link _ => []
  | .submodule _ => []
  | .directory es => entryFiles here es

/-- The files of the entries of a snapshot. -/
def entryFiles (here : Location) : List (String × Snapshot) → List (Location × ObjectId)
  | [] => []
  | e :: es => pairFiles here e ++ entryFiles here es

/-- The files of an entry of a snapshot. -/
def pairFiles (here : Location) : String × Snapshot → List (Location × ObjectId)
  | (name, s) => filesFrom (here ++ [name]) s

end

/-- The files of a snapshot with their objects. -/
def files (s : Snapshot) : List (Location × ObjectId) := filesFrom [] s

/-- The entries of a directory; nothing else has any. -/
def entries : Snapshot → List (String × Snapshot)
  | directory es => es
  | _ => []

/-- Gives an entry another snapshot, or adds the entry. -/
def setEntry (name : String) (s : Snapshot) : List (String × Snapshot) → List (String × Snapshot)
  | [] => [(name, s)]
  | e :: es => if e.1 == name then (name, s) :: es else e :: setEntry name s es

/-- Puts a snapshot to a location. -/
def put : Snapshot → Location → Snapshot → Snapshot
  | _, [], new => new
  | s, name :: rest, new =>
    .directory
      (setEntry name (((s.entries.lookup name).getD (.directory [])).put rest new) s.entries)

end Snapshot

/-- What kind of thing an index entry holds. -/
inductive EntryKind where
  | file
  | executable
  | link
  deriving DecidableEq, Repr

/-- An entry of an index. A path that two commits changed in different ways has an entry for each
stage of their merge; any other path has one of stage zero. -/
structure IndexEntry where
  location : Location
  stage : Nat := 0
  kind : EntryKind := .file
  id : ObjectId
  deriving DecidableEq, Repr

namespace IndexEntry

def path (e : IndexEntry) : Path := e.location.relative

/-- The entry as a part of a snapshot. -/
def snapshot (e : IndexEntry) : Snapshot :=
  match e.kind with
  | .file => .file e.id false
  | .executable => .file e.id true
  | .link => .link e.id

/-- The entry for a file or a link. -/
def ofLeaf? : Location × Node → Option IndexEntry
  | (l, .file f) =>
    some { location := l, kind := if f.executable then .executable else .file, id := ⟨f.content⟩ }
  | (l, .link target) =>
    some { location := l, kind := .link, id := ⟨target.text.toUTF8.data.toList⟩ }
  | (_, .directory _) => none

end IndexEntry

/-- Why a repository cannot tell its staged files. -/
inductive RepositoryFault where
  /-- The place to look for a repository is no directory. -/
  | noDirectory
  /-- There is no repository here or above. -/
  | notFound
  /-- The repository has no files of its own. -/
  | bare
  /-- Nothing has been put into the index yet, so there is none. -/
  | noIndex
  deriving DecidableEq, Repr

/-- A repository. -/
structure Repository where
  bare : Bool := false
  /-- The snapshot of the last commit. -/
  head : Option Snapshot := none
  index : Option (List IndexEntry) := none
  deriving Repr

namespace Repository

/-- The objects of the files of the last commit. -/
def headFiles (r : Repository) : List (Location × ObjectId) :=
  match r.head with
  | some s => s.files
  | none => []

/-- Whether the last commit holds another version of a file, or none. -/
def isChanged (known : List (Location × ObjectId)) (e : IndexEntry) : Bool :=
  match known.find? fun k => k.1.relative.same e.path with
  | some (_, id) => id != e.id
  | none => true

/-- Drops paths behind `p` that are the same as the last one kept. -/
def dropRepeatedFrom (p : Path) : List Path → List Path
  | [] => []
  | q :: qs => if p.same q then dropRepeatedFrom p qs else q :: dropRepeatedFrom q qs

/-- Drops paths that are the same as the one before. -/
def dropRepeated : List Path → List Path
  | [] => []
  | p :: ps => p :: dropRepeatedFrom p ps

/-- Paths in order, without repetition. -/
def sorted (ps : List Path) : List Path := dropRepeated (ps.mergeSort fun p q => !q.lt p)

/-- The staged files, in the order of their paths. -/
def staged (r : Repository) : Except RepositoryFault (List Path) :=
  match r.index with
  | none => .error .noIndex
  | some entries =>
    let known := r.headFiles
    .ok (sorted ((entries.filter (isChanged known)).map IndexEntry.path))

/-! ## Changing the index and committing it -/

/-- The entries of the index, if there is one. -/
def entries (r : Repository) : List IndexEntry := r.index.getD []

/-- Puts an entry into an index. A path that leads to another one cannot be a file. -/
def putEntry (es : List IndexEntry) (e : IndexEntry) : List IndexEntry :=
  (es.filter fun old => !old.location.isPrefixOf e.location) ++ [e]

/-- Makes the index hold at and below a location what the tree `files` holds there. -/
def add (files : Node) (r : Repository) (l : Location) : Repository :=
  let leaves := match files.at? l with
    | some n => n.leavesFrom l
    | none => []
  let kept := r.entries.filter fun e => !l.isPrefixOf e.location
  { r with index := some ((leaves.filterMap IndexEntry.ofLeaf?).foldl putEntry kept) }

/-- Drops what the index holds at and below a location. -/
def drop (r : Repository) (l : Location) : Repository :=
  { r with index := some (r.entries.filter fun e => !l.isPrefixOf e.location) }

/-- Makes a file conflict: the index holds a version for each stage of a merge. -/
def conflict (r : Repository) (l : Location) (versions : List (List UInt8)) : Repository :=
  let kept := r.entries.filter fun e => e.location != l
  let stages := versions.mapIdx fun i bytes =>
    ({ location := l, stage := i + 1, id := ⟨bytes⟩ } : IndexEntry)
  { r with index := some (kept ++ stages) }

/-- Commits what the index holds without conflict. -/
def commit (r : Repository) : Repository :=
  let merged := r.entries.filter fun e => e.stage == 0
  let head := merged.foldl (fun s e => s.put e.location e.snapshot) (.directory [])
  { r with head := some head, index := some r.entries }

end Repository

end DocGate

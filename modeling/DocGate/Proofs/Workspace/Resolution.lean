/-
DocGate.Proofs.Workspace.Resolution — where paths lead.

* `Node.follow_append` — following names is one step after the other: names that lead to
  a place can be followed by more, which are then followed from there, with the links
  that are left.
* `Node.follow_of_at?` — names of entries that are no links lead where the location of
  the same names is.
* `Workspace.resolve_join` — hence a path to a directory, joined with the path of a
  place below it, leads to that place, however many links the directory was reached
  through. The place must be no link, and the way to it names of files.
* `Workspace.resolve_congr`, `Workspace.stagedFiles_congr` — where a path leads to
  depends on the shape of the tree (`Node.SameShape`), not on what its files hold, and
  so does which files are staged.
-/
import DocGate.Proofs.Path.Join
import DocGate.Proofs.Workspace.Tree
import DocGate.Workspace.Basic

namespace DocGate

namespace Node

/-! ## Locations -/

theorem at?_append (n : Node) (l m : Location) :
    n.at? (l ++ m) = (n.at? l).bind fun c => c.at? m := by
  induction l generalizing n with
  | nil => rfl
  | cons name l ih =>
    rw [List.cons_append, at?, at?, Option.bind_assoc]
    cases n.child? name with
    | none => rfl
    | some c => exact ih c

theorem at?_below {n c : Node} {l : Location} (h : n.at? l = some c) (rest : Location) :
    n.at? (l ++ rest) = c.at? rest := by
  rw [at?_append, h, Option.bind_some]

theorem at?_snoc {n : Node} {here : Location} {es : List (String × Node)}
    (h : n.at? here = some (.directory es)) (name : String) :
    n.at? (here ++ [name]) = es.lookup name := by
  rw [at?_below h, at?]
  cases hc : child? (.directory es) name with
  | none => exact hc.symm
  | some c => exact hc.symm

theorem wellFormed_of_at? {n m : Node} (hn : n.WellFormed) {l : Location}
    (h : n.at? l = some m) : m.WellFormed := by
  induction l generalizing n with
  | nil =>
    cases h
    exact hn
  | cons name l ih =>
    rw [at?, Option.bind_eq_some_iff] at h
    obtain ⟨c, hc, hat⟩ := h
    cases hn with
    | file f => cases hc
    | link target => cases hc
    | directory es hnames hdistinct hbelow =>
      exact ih (hbelow _ ((lookup_eq_some_iff hdistinct).mp hc)) hat

/-- What is at a place with names is in a directory. -/
theorem directory_of_at?_cons {n m : Node} {name : String} {rest : Location}
    (h : n.at? (name :: rest) = some m) :
    ∃ es c, n = .directory es ∧ es.lookup name = some c ∧ c.at? rest = some m := by
  rw [at?, Option.bind_eq_some_iff] at h
  obtain ⟨c, hc, hat⟩ := h
  cases n with
  | file f => cases hc
  | link target => cases hc
  | directory es => exact ⟨es, c, rfl, hc, hat⟩

/-! ## Following names -/

/-- What the first of some names does, if it does not fail: how many links are left, where to go
on from, and which names come in front of the others. -/
def step (root : Node) (links : Nat) (here : Location) (name : String) :
    Except FileFault (Nat × Location × List String) :=
  match root.at? here with
  | some (.directory es) =>
    if name = "" || name = "." then .ok (links, here, [])
    else if name = ".." then .ok (links, here.dropLast, [])
    else
      match es.lookup name, links with
      | none, _ => .error .missing
      | some (.link _), 0 => .error .tooManyLinks
      | some (.link target), links + 1 =>
        .ok (links, if target.isAbsolute then [] else here, target.names)
      | some _, links => .ok (links, here ++ [name], [])
  | _ => .error .notDirectory

theorem follow_cons (root : Node) (links : Nat) (here : Location) (name : String)
    (names : List String) :
    root.follow links here (name :: names)
      = match root.step links here name with
        | .error fault => .error fault
        | .ok (left, there, front) => root.follow left there (front ++ names) := by
  rw [follow, step]
  cases root.at? here with
  | none => rfl
  | some n =>
    cases n with
    | file f => rfl
    | link target => rfl
    | directory es =>
      simp only
      split
      · rfl
      · split
        · rfl
        · cases es.lookup name with
          | none => rfl
          | some c =>
            cases c with
            | file f => rfl
            | directory ds => rfl
            | link target => cases links <;> rfl

/-- A step uses up a link or puts no names in front. -/
theorem step_decreases {root : Node} {links left : Nat} {here there : Location} {name : String}
    {front : List String} (h : root.step links here name = .ok (left, there, front)) :
    left < links ∨ left = links ∧ front = [] := by
  unfold step at h
  split at h
  · split at h
    · cases h
      exact Or.inr ⟨rfl, rfl⟩
    · split at h
      · cases h
        exact Or.inr ⟨rfl, rfl⟩
      · split at h
        · cases h
        · cases h
        · cases h
          exact Or.inl (Nat.lt_succ_self left)
        · cases h
          exact Or.inr ⟨rfl, rfl⟩
  · cases h

/-- What holds where names end, and holds in front of a step whenever it holds behind it, holds
all along. -/
theorem follow_induction (root : Node) {motive : Nat → Location → List String → Prop}
    (done : ∀ links here, motive links here [])
    (more : ∀ links here name names,
      (∀ left there front, root.step links here name = .ok (left, there, front) →
        motive left there (front ++ names)) → motive links here (name :: names)) :
    ∀ links here names, motive links here names
  | links, here, [] => done links here
  | links, here, name :: names =>
    more links here name names fun left there front _ =>
      follow_induction root done more left there (front ++ names)
termination_by links _ names => (links, names.length)
decreasing_by
  rename_i hstep
  rcases step_decreases hstep with hlt | ⟨rfl, rfl⟩
  · exact Prod.Lex.left _ _ hlt
  · exact Prod.Lex.right _ (by simp)

/-- Either names fail, whatever comes behind them, or they lead to a place from which what comes
behind them is followed. -/
theorem follow_append (root : Node) (links : Nat) (here : Location) (names : List String) :
    (∃ fault, ∀ rest, root.follow links here (names ++ rest) = .error fault) ∨
      ∃ left l, ∀ rest, root.follow links here (names ++ rest) = root.follow left l rest := by
  induction links, here, names using follow_induction root with
  | done links here => exact Or.inr ⟨links, here, fun rest => rfl⟩
  | more links here name names ih =>
    simp only [List.cons_append, follow_cons]
    cases hstep : root.step links here name with
    | error fault => exact Or.inl ⟨fault, fun rest => rfl⟩
    | ok next =>
      obtain ⟨left, there, front⟩ := next
      simpa only [List.append_assoc] using ih left there front hstep

/-- The name of an entry that is no link leads into the entry. -/
theorem step_of_lookup {root c : Node} {links : Nat} {here : Location} {name : String}
    {es : List (String × Node)} (hat : root.at? here = some (.directory es))
    (hname : IsFileName name) (hlook : es.lookup name = some c) (hc : ∀ target, c ≠ .link target) :
    root.step links here name = .ok (links, here ++ [name], []) := by
  rw [step, hat]
  simp only [hname.1, hname.2.1, hname.2.2.1, hlook, decide_false, Bool.or_self]
  cases c with
  | file f => rfl
  | directory ds => rfl
  | link target => exact absurd rfl (hc target)

/-- Names of entries lead where the location is, unless a link is there. -/
theorem follow_of_at? {root m : Node} (links : Nat) {here rest : Location}
    (hnames : ∀ name ∈ rest, IsFileName name) (h : root.at? (here ++ rest) = some m)
    (hm : ∀ target, m ≠ .link target) : root.follow links here rest = .ok (here ++ rest) := by
  induction rest generalizing here with
  | nil => rw [follow, List.append_nil]
  | cons name rest ih =>
    have hsplit := h
    rw [at?_append, Option.bind_eq_some_iff] at hsplit
    obtain ⟨n, hat, hbelow⟩ := hsplit
    obtain ⟨es, c, rfl, hlook, hrest⟩ := directory_of_at?_cons hbelow
    have hc : ∀ target, c ≠ .link target := by
      rintro target rfl
      -- nothing is below a link, so it would be what is at the end
      obtain ⟨-, heq⟩ := (at?_of_not_directory rfl rest).mp hrest
      exact hm target heq.symm
    rw [follow_cons, step_of_lookup hat (hnames name List.mem_cons_self) hlook hc]
    have hassoc : here ++ name :: rest = (here ++ [name]) ++ rest := by
      rw [List.append_assoc, List.singleton_append]
    rw [hassoc] at h ⊢
    exact ih (fun a ha => hnames a (List.mem_cons_of_mem name ha)) h

/-- An empty name leads nowhere else. -/
theorem follow_empty_name {root : Node} {links : Nat} {here l : Location}
    (h : root.follow links here [""] = .ok l) : here = l := by
  rw [follow_cons, step] at h
  cases hat : root.at? here with
  | none => simp [hat] at h
  | some n =>
    cases n with
    | file f => simp [hat] at h
    | link target => simp [hat] at h
    | directory es =>
      simp only [hat, decide_true, Bool.true_or, if_true, List.nil_append, follow,
        Except.ok.injEq] at h
      exact h

/-! ## Shapes -/

/-- What of a node matters for where names lead: whether it is a file or a directory, or which
link it is. -/
def shape : Node → Node
  | file _ => file { content := [] }
  | link target => link target
  | directory _ => empty

theorem cases_of_shape {a b : Option Node} (h : a.map shape = b.map shape) :
    (a = none ∧ b = none) ∨
      (∃ f g, a = some (.file f) ∧ b = some (.file g)) ∨
      (∃ target, a = some (.link target) ∧ b = some (.link target)) ∨
      ∃ es ds, a = some (.directory es) ∧ b = some (.directory ds) := by
  cases a with
  | none =>
    cases b with
    | none => exact Or.inl ⟨rfl, rfl⟩
    | some d => simp at h
  | some c =>
    cases b with
    | none => simp at h
    | some d => cases c <;> cases d <;> simp_all [shape, empty]

/-- Two trees have files, directories and the same links at the same places. -/
def SameShape (n m : Node) : Prop :=
  ∀ l, (n.at? l).map shape = (m.at? l).map shape

theorem SameShape.directory_iff {n m : Node} (h : n.SameShape m) (l : Location) :
    (∃ es, n.at? l = some (.directory es)) ↔ ∃ es, m.at? l = some (.directory es) := by
  rcases cases_of_shape (h l) with ⟨hn, hm⟩ | ⟨f, g, hn, hm⟩ | ⟨t, hn, hm⟩ | ⟨es, ds, hn, hm⟩ <;>
    simp [hn, hm]

theorem SameShape.file_iff {n m : Node} (h : n.SameShape m) (l : Location) :
    (∃ f, n.at? l = some (.file f)) ↔ ∃ f, m.at? l = some (.file f) := by
  rcases cases_of_shape (h l) with ⟨hn, hm⟩ | ⟨f, g, hn, hm⟩ | ⟨t, hn, hm⟩ | ⟨es, ds, hn, hm⟩ <;>
    simp [hn, hm]

/-- A step looks at nothing but shapes. -/
theorem step_congr {n m : Node} (h : n.SameShape m) (links : Nat) (here : Location)
    (name : String) : n.step links here name = m.step links here name := by
  unfold step
  rcases cases_of_shape (h here) with
    ⟨hn, hm⟩ | ⟨f, g, hn, hm⟩ | ⟨t, hn, hm⟩ | ⟨es, ds, hn, hm⟩
  · rw [hn, hm]
  · rw [hn, hm]
  · rw [hn, hm]
  · have hentry := h (here ++ [name])
    rw [at?_snoc hn, at?_snoc hm] at hentry
    rw [hn, hm]
    rcases cases_of_shape hentry with
      ⟨hn, hm⟩ | ⟨f, g, hn, hm⟩ | ⟨t, hn, hm⟩ | ⟨es, ds, hn, hm⟩ <;> simp only [hn, hm]

theorem follow_congr {n m : Node} (h : n.SameShape m) (links : Nat) (here : Location)
    (names : List String) : n.follow links here names = m.follow links here names := by
  induction links, here, names using follow_induction n with
  | done links here => rw [follow, follow]
  | more links here name names ih =>
    rw [follow_cons, follow_cons, ← step_congr h]
    cases hstep : n.step links here name with
    | error fault => rfl
    | ok next =>
      obtain ⟨left, there, front⟩ := next
      exact ih left there front hstep

end Node

namespace Workspace

/-! ## Paths -/

theorem text_ne_of_resolve {w : Workspace} {p : Path} {l : Location} (h : w.resolve p = .ok l) :
    p.text ≠ "" := by
  intro hempty
  simp [resolve, hempty] at h

theorem resolve_eq_follow {w : Workspace} {p : Path} (h : p.text ≠ "") :
    w.resolve p = w.root.follow Path.maxLinks (w.start p) p.names := by
  have hnonempty : p.text.isEmpty = false := by simpa using h
  simp [resolve, hnonempty]

theorem find_eq_ok_iff {w : Workspace} {p : Path} {n : Node} :
    w.find p = .ok n ↔ ∃ l, w.resolve p = .ok l ∧ w.root.at? l = some n := by
  unfold find
  cases w.resolve p with
  | error fault => simp
  | ok l => cases hat : w.root.at? l <;> simp [hat]

theorem at?_of_find {w : Workspace} {p : Path} {l : Location} {n : Node}
    (hresolve : w.resolve p = .ok l) (hfind : w.find p = .ok n) : w.root.at? l = some n := by
  obtain ⟨l', hresolve', hat⟩ := find_eq_ok_iff.mp hfind
  rw [hresolve] at hresolve'
  cases hresolve'
  exact hat

/-- A path to a directory, joined with the path of a place below it, leads to that place unless
a link is there. -/
theorem resolve_join {w : Workspace} {base : Path} {l rest : Location} {m : Node}
    (hbase : w.resolve base = .ok l) (hrest : rest ≠ [])
    (hnames : ∀ name ∈ rest, IsFileName name) (h : w.root.at? (l ++ rest) = some m)
    (hm : ∀ target, m ≠ .link target) :
    w.resolve (base.join rest.relative) = .ok (l ++ rest) := by
  obtain ⟨a, rest, rfl⟩ := List.exists_cons_of_ne_nil hrest
  have ha := hnames a List.mem_cons_self
  have hrelative := Location.isAbsolute_relative (l := rest) ha
  have htext := text_ne_of_resolve hbase
  obtain ⟨hjoin, habsolute⟩ := Path.isAbsolute_join htext hrelative
  rw [resolve_eq_follow htext] at hbase
  rw [resolve_eq_follow hjoin, start, habsolute, ← start]
  have hgo := fun links => Node.follow_of_at? links hnames h hm
  rcases Path.names_join htext hrelative with hn | ⟨front, -, hfront, hn⟩
  · rw [hn, Location.names_relative hnames]
    rcases w.root.follow_append Path.maxLinks (w.start base) base.names with
      ⟨fault, hfail⟩ | ⟨left, there, hlead⟩
    · have hnone := hfail []
      rw [List.append_nil, hbase] at hnone
      cases hnone
    · have hthere := hlead []
      rw [List.append_nil, hbase, Node.follow] at hthere
      cases hthere
      rw [hlead, hgo]
  · -- the directory ends with a slash, behind which it has an empty name
    rw [hn, Location.names_relative hnames]
    rw [hfront] at hbase
    rcases w.root.follow_append Path.maxLinks (w.start base) front with
      ⟨fault, hfail⟩ | ⟨left, there, hlead⟩
    · rw [hfail] at hbase
      cases hbase
    · rw [hlead] at hbase
      cases Node.follow_empty_name hbase
      rw [hlead, hgo]

theorem find_join {w : Workspace} {base : Path} {l rest : Location} {m : Node}
    (hbase : w.resolve base = .ok l) (hrest : rest ≠ [])
    (hnames : ∀ name ∈ rest, IsFileName name) (h : w.root.at? (l ++ rest) = some m)
    (hm : ∀ target, m ≠ .link target) : w.find (base.join rest.relative) = .ok m :=
  find_eq_ok_iff.mpr ⟨_, resolve_join hbase hrest hnames h hm, h⟩

/-- The path of a directory from the root leads to the directory. -/
theorem resolve_absolute {w : Workspace} {l : Location} {es : List (String × Node)}
    (hnames : ∀ name ∈ l, IsFileName name) (h : w.root.at? l = some (.directory es)) :
    w.resolve l.absolute = .ok l := by
  have htext : l.absolute.text ≠ "" := by
    intro hempty
    have htext := congrArg String.toList hempty
    simp [Location.absolute] at htext
  have hstart : w.start l.absolute = [] := by
    rw [start, Location.isAbsolute_absolute]
    rfl
  have hroot : ∃ ds, w.root.at? [] = some (.directory ds) := by
    cases l with
    | nil => exact ⟨es, h⟩
    | cons a l =>
      obtain ⟨ds, -, hds, -⟩ := Node.directory_of_at?_cons h
      exact ⟨ds, congrArg some hds⟩
  obtain ⟨ds, hroot⟩ := hroot
  have hstay : ∀ names, w.root.follow Path.maxLinks [] ("" :: names)
      = w.root.follow Path.maxLinks [] names := by
    intro names
    rw [Node.follow_cons, Node.step, hroot]
    rfl
  rw [resolve_eq_follow htext, hstart, Location.names_absolute, hstay]
  cases l with
  | nil =>
    have hempty : (Location.relative []).names = [""] := by decide
    rw [hempty, hstay, Node.follow]
  | cons a l =>
    rw [Location.names_relative hnames]
    exact Node.follow_of_at? Path.maxLinks hnames h (by simp)

/-- A file in a directory has a name there. -/
theorem file_below {w : Workspace} (hw : w.root.WellFormed) {l rest : Location}
    {es : List (String × Node)} {f : File} (hat : w.root.at? l = some (.directory es))
    (h : w.root.at? (l ++ rest) = some (.file f)) :
    rest ≠ [] ∧ ∀ name ∈ rest, IsFileName name := by
  rw [Node.at?_below hat] at h
  refine ⟨?_, Node.isFileName_of_at? (Node.wellFormed_of_at? hw hat) h⟩
  rintro rfl
  cases h

theorem hasFile_iff {w : Workspace} {p : Path} :
    w.hasFile p ↔ ∃ f, w.find p = .ok (.file f) := by
  unfold hasFile
  cases w.find p with
  | error fault => simp
  | ok n => cases n <;> simp [Node.isFile]

/-- The root, seen from there. -/
theorem resolve_here {w : Workspace} {es : List (String × Node)}
    (hroot : w.root = .directory es) (hhere : w.workingDirectory = []) :
    w.resolve ⟨"."⟩ = .ok [] := by
  have hat : w.root.at? [] = some (.directory es) := by rw [hroot, Node.at?]
  have hnames : (⟨"."⟩ : Path).names = ["."] := by decide
  have hstart : w.start ⟨"."⟩ = [] := by rw [← hhere]; rfl
  rw [resolve_eq_follow (by decide), hnames, hstart, Node.follow_cons, Node.step, hat]
  simp [Node.follow]

/-- The repository of the root, seen from there. -/
theorem discover_here {w : Workspace} {es : List (String × Node)} {r : Repository}
    (hroot : w.root = .directory es) (hhere : w.workingDirectory = [])
    (hrepo : w.repositories.lookup [] = some r) (hbare : r.bare = false) :
    w.resolve ⟨"."⟩ = .ok [] ∧ w.discover ⟨"."⟩ = .ok ([], r) := by
  have hat : w.root.at? [] = some (.directory es) := by rw [hroot, Node.at?]
  have hresolve := resolve_here hroot hhere
  refine ⟨hresolve, ?_⟩
  have hfind := find_eq_ok_iff.mpr ⟨[], hresolve, hat⟩
  have hnominal : w.nominal? ⟨"."⟩ = some [] := by
    have hstart : w.start ⟨"."⟩ = [] := by rw [← hhere]; rfl
    rw [nominal?, hstart]
    decide
  have hrepository : w.repositoryAt? [] = some ([], r) := by
    rw [repositoryAt?, resolve_absolute (by simp) hat]
    simp [hrepo]
  rw [discover, hfind, hnominal]
  simp [upwards, hrepository, hbare]

/-! ## Trees of the same shape -/

section SameShape

variable {w : Workspace} {m : Node}

theorem resolve_congr (h : w.root.SameShape m) (p : Path) :
    resolve { w with root := m } p = w.resolve p := by
  unfold resolve
  rw [Node.follow_congr h]
  rfl

theorem find_directory_congr (h : w.root.SameShape m) (p : Path) :
    (∃ es, find { w with root := m } p = .ok (.directory es))
      ↔ ∃ es, w.find p = .ok (.directory es) := by
  simp only [find_eq_ok_iff, resolve_congr h]
  rw [exists_comm, exists_comm (α := List (String × Node))]
  refine exists_congr fun l => ?_
  rw [exists_and_left, exists_and_left, h.directory_iff l]

theorem hasFile_congr (h : w.root.SameShape m) (p : Path) :
    hasFile { w with root := m } p = w.hasFile p := by
  rw [Bool.eq_iff_iff, hasFile_iff, hasFile_iff]
  simp only [find_eq_ok_iff, resolve_congr h]
  rw [exists_comm, exists_comm (α := File)]
  refine exists_congr fun l => ?_
  rw [exists_and_left, exists_and_left, h.file_iff l]

theorem discover_of_not_directory {p : Path} (h : ¬ ∃ es, w.find p = .ok (.directory es)) :
    w.discover p = .error .noDirectory := by
  unfold discover
  split
  · rename_i es l hfind hnominal
    exact absurd ⟨es, hfind⟩ h
  · rfl

/-- Which repository a directory belongs to is not a question of what files hold. -/
theorem discover_congr (h : w.root.SameShape m) (p : Path) :
    discover { w with root := m } p = w.discover p := by
  have hrepository : repositoryAt? { w with root := m } = w.repositoryAt? := by
    funext l
    rw [repositoryAt?, resolve_congr h, repositoryAt?]
  by_cases hdir : ∃ es, w.find p = .ok (.directory es)
  · obtain ⟨ds, hds⟩ := (find_directory_congr h p).mpr hdir
    obtain ⟨es, hes⟩ := hdir
    have hnominal : nominal? { w with root := m } p = w.nominal? p := rfl
    rw [discover, discover, hds, hes, hrepository, hnominal]
    cases w.nominal? p <;> rfl
  · rw [discover_of_not_directory hdir,
      discover_of_not_directory (mt (find_directory_congr h p).mp hdir)]

theorem stagedFiles_congr (h : w.root.SameShape m) (p : Path) :
    stagedFiles { w with root := m } p = w.stagedFiles p := by
  rw [stagedFiles, discover_congr h, stagedFiles]

end SameShape

end Workspace

end DocGate

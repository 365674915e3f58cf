/-
DocGate.Proofs.Glob.Validity — which texts are globs.

Whether a text is a glob does not depend on the tokens that are read, nor on what stars
mean. It depends on the `Standing` of the reader: whether it is in plain text, behind a
backslash or in a class, and how many groups are open.

* `map_standing_step`, `map_standing_foldlM` — a standing moves on its own, and the
  reader moves along with it.
* `compile_isOk` — a text is a glob exactly if its standing can be finished.
* `validFrom_stars_slash`, `validFrom_slash_stars` — a leading `**/` makes no
  difference, nor does a `/**`, both in plain text and at any depth of groups. In a
  class they do make one.
-/
import DocGate.Glob.Reader

namespace DocGate.Glob

/-! ## Where the reader stands -/

/-- In what kind of text the reader is. -/
inductive Phase where
  | plain
  /-- Behind a backslash. -/
  | escape
  /-- Behind an opening bracket. -/
  | classStart
  | inClass (c : OpenClass)

/-- What of a state decides whether the text can be a glob. -/
structure Standing where
  phase : Phase
  /-- How many groups are open. -/
  depth : Nat

namespace Standing

/-- A character in plain text. -/
def plainStep (depth : Nat) (c : Char) : Except Flaw Standing :=
  if c = '[' then .ok ⟨.classStart, depth⟩
  else if c = '\x7b' then .ok ⟨.plain, depth + 1⟩
  else if c = '\x7d' then
    match depth with
    | 0 => .error .unopenedGroup
    | depth + 1 => .ok ⟨.plain, depth⟩
  else if c = '\\' then .ok ⟨.escape, depth⟩
  else .ok ⟨.plain, depth⟩

/-- One more character. -/
def step (k : Standing) (c : Char) : Except Flaw Standing :=
  match k.phase with
  | .plain => plainStep k.depth c
  | .escape => .ok ⟨.plain, k.depth⟩
  | .classStart =>
    if c = '!' || c = '^' then .ok ⟨.inClass ⟨true, [], false⟩, k.depth⟩
    else (State.classStep ⟨false, [], false⟩ c).map fun o => ⟨.inClass o, k.depth⟩
  | .inClass o =>
    if c = ']' && !o.ranges.isEmpty then .ok ⟨.plain, k.depth⟩
    else (State.classStep o c).map fun o => ⟨.inClass o, k.depth⟩

/-- What is wrong after the last character. -/
def finish (k : Standing) : Except Flaw Unit :=
  match k.phase with
  | .plain => if k.depth = 0 then .ok () else .error .unclosedGroup
  | .escape => .error .danglingEscape
  | .classStart => .error .unclosedClass
  | .inClass _ => .error .unclosedClass

end Standing

/-- The standing of a reader; an undecided star is plain text. -/
def State.standing (s : State) : Standing where
  phase := match s.mode with
    | .plain => .plain
    | .escape => .escape
    | .star _ => .plain
    | .stars _ => .plain
    | .classStart => .classStart
    | .inClass c => .inClass c
  depth := s.groups.length

/-! ## The reader moves along -/

namespace State

/-- Plain text moves the standing, whatever the mode was and whatever the tokens are. -/
theorem map_standing_plainStep (s : State) (c : Char) :
    (s.plainStep c).map standing = Standing.plainStep s.groups.length c := by
  unfold plainStep
  simp only
  split
  · rfl
  · rfl
  · rfl
  · cases hg : s.groups <;> rfl
  · cases hg : s.groups <;> simp [push, Except.map, standing, Standing.plainStep]
  · rfl
  · rename_i hbracket hopen hclose hcomma hbackslash
    have h₁ : c ≠ '[' := hbracket
    have h₂ : c ≠ '\x7b' := hopen
    have h₃ : c ≠ '\x7d' := hclose
    have h₄ : c ≠ '\\' := hbackslash
    simp [push, Except.map, standing, Standing.plainStep, h₁, h₂, h₃, h₄]

theorem plainStep_slash (depth : Nat) : Standing.plainStep depth '/' = .ok ⟨.plain, depth⟩ := rfl

theorem map_standing_freshStep (s : State) (c : Char) :
    (s.freshStep c).map standing = Standing.plainStep s.groups.length c := by
  unfold freshStep
  split
  · subst c
    rfl
  · exact map_standing_plainStep s c

theorem groups_fold (s : State) (t : Token) : (s.fold t).groups = s.groups := by
  unfold fold
  split <;> rfl

/-- Whatever two stars mean, the character behind them is one in plain text. -/
theorem map_standing_starsStep (s : State) (before : Option Char) (c : Char) :
    (s.starsStep before c).map standing = Standing.plainStep s.groups.length c := by
  unfold starsStep
  split
  · split
    · subst c
      rfl
    · exact map_standing_freshStep _ c
  · split
    · exact map_standing_freshStep _ c
    · split
      · subst c
        rw [plainStep_slash, ← groups_fold s .anyBetween]
        rfl
      · split
        · rw [map_standing_freshStep, groups_fold]
        · exact map_standing_freshStep _ c

/-- A character moves the standing of a reader as it moves the reader. -/
theorem map_standing_step (s : State) (c : Char) :
    (s.step c).map standing = s.standing.step c := by
  obtain ⟨mode, tokens, groups, last⟩ := s
  cases mode with
  | plain => exact map_standing_freshStep _ c
  | escape => rfl
  | star before =>
    simp only [step]
    split
    · subst c
      rfl
    · exact map_standing_plainStep _ c
  | stars before => exact map_standing_starsStep _ before c
  | classStart =>
    simp only [step, standing, Standing.step]
    split
    · rfl
    · cases classStep ⟨false, [], false⟩ c <;> rfl
  | inClass k =>
    simp only [step, standing, Standing.step]
    split
    · rfl
    · cases classStep k c <;> rfl

theorem map_standing_foldlM (cs : List Char) (s : State) :
    (cs.foldlM step s).map standing = cs.foldlM Standing.step s.standing := by
  induction cs generalizing s with
  | nil => rfl
  | cons c cs ih =>
    rw [List.foldlM_cons, List.foldlM_cons, ← map_standing_step]
    cases s.step c with
    | error flaw => rfl
    | ok s => exact ih s

theorem map_finish (s : State) : s.finish.map (fun _ => ()) = s.standing.finish := by
  obtain ⟨mode, tokens, groups, last⟩ := s
  cases mode with
  | plain => cases groups <;> rfl
  | escape => rfl
  | star before => cases groups <;> rfl
  | stars before =>
    simp only [finish]
    split
    · cases groups <;> rfl
    · split
      · rw [groups_fold]
        cases groups <;> rfl
      · cases groups <;> rfl
  | classStart => rfl
  | inClass k => rfl

end State

/-! ## Texts that are globs -/

/-- Whether characters can be read from a standing to the end of a glob. -/
def validFrom (k : Standing) (cs : List Char) : Bool :=
  (cs.foldlM Standing.step k >>= Standing.finish).isOk

theorem validFrom_cons {k k' : Standing} {c : Char} (h : k.step c = .ok k') (cs : List Char) :
    validFrom k (c :: cs) = validFrom k' cs := by
  rw [validFrom, List.foldlM_cons, h]
  rfl

/-- A text is a glob if its standing can be finished. -/
theorem compile_isOk (text : String) :
    (compile text).isOk = validFrom ⟨.plain, 0⟩ text.toList := by
  have hrun := State.map_standing_foldlM text.toList {}
  have hstart : State.standing {} = ⟨.plain, 0⟩ := rfl
  rw [compile, tokens, validFrom, ← hstart, ← hrun]
  cases text.toList.foldlM State.step {} with
  | error flaw => rfl
  | ok s =>
    have hfinish := State.map_finish s
    simp only [bind, Except.bind, Except.map, ← hfinish]
    cases s.finish <;> rfl

/-- Two stars and a slash in plain text make no difference. -/
theorem validFrom_stars_slash (depth : Nat) (cs : List Char) :
    validFrom ⟨.plain, depth⟩ ('*' :: '*' :: '/' :: cs) = validFrom ⟨.plain, depth⟩ cs := rfl

/-- A slash and two stars in plain text make no difference. -/
theorem validFrom_slash_stars (depth : Nat) (cs : List Char) :
    validFrom ⟨.plain, depth⟩ ('/' :: '*' :: '*' :: cs) = validFrom ⟨.plain, depth⟩ cs := rfl

/-- Text with neither a class nor an escape is plain throughout. -/
def IsPlain (cs : List Char) : Prop := '[' ∉ cs ∧ '\\' ∉ cs

theorem IsPlain.tail {c : Char} {cs : List Char} (h : IsPlain (c :: cs)) : IsPlain cs :=
  ⟨fun hc => h.1 (List.mem_cons_of_mem c hc), fun hc => h.2 (List.mem_cons_of_mem c hc)⟩

/-- In plain text a character leads to plain text, or to a flaw. -/
theorem validFrom_cons_congr {c : Char} {cs ds : List Char} (h : IsPlain (c :: cs))
    (hcs : ∀ depth, validFrom ⟨.plain, depth⟩ cs = validFrom ⟨.plain, depth⟩ ds) (depth : Nat) :
    validFrom ⟨.plain, depth⟩ (c :: cs) = validFrom ⟨.plain, depth⟩ (c :: ds) := by
  have hbracket : c ≠ '[' := fun hc => h.1 (hc ▸ List.mem_cons_self)
  have hbackslash : c ≠ '\\' := fun hc => h.2 (hc ▸ List.mem_cons_self)
  have hstep : ∃ r : Except Flaw Nat, Standing.step ⟨.plain, depth⟩ c
      = r.map fun depth => ⟨.plain, depth⟩ := by
    simp only [Standing.step, Standing.plainStep, hbracket, hbackslash, if_false]
    split
    · exact ⟨.ok (depth + 1), rfl⟩
    · split
      · cases depth with
        | zero => exact ⟨.error .unopenedGroup, rfl⟩
        | succ depth => exact ⟨.ok depth, rfl⟩
      · exact ⟨.ok depth, rfl⟩
  obtain ⟨r, hr⟩ := hstep
  cases r with
  | error flaw => rw [validFrom, validFrom, List.foldlM_cons, List.foldlM_cons, hr]; rfl
  | ok depth' => rw [validFrom_cons hr, validFrom_cons hr, hcs]

end DocGate.Glob

/-
DocGate.Proofs.Grammar.Memory — what a run remembers.

A run keeps the outcomes of symbols in a hash table. A list of the outcomes learned so
far, the latest first, answers the same questions, and unlike the table it can be
computed with inside a proof.

* `runKnowing` — the run that asks the list.
* `Config.Knows` — table and list agree; a step keeps this up if what it has learned is
  put in front (`Config.learned`).
* `RuleSet.parse?_eq_runKnowing` — both runs end alike, for every grammar and every
  source.
-/
import Std.Data.HashMap.Lemmas
import DocGate.Grammar.Machine

namespace DocGate.Grammar

variable {σ τ κ μ : Type} [BEq σ] [Hashable σ]

/-- Outcomes of symbols at places, the latest first. -/
abbrev Known (σ κ μ : Type) := List ((σ × Nat) × Outcome κ μ)

/-- What the next step will remember. -/
def Config.learned (c : Config σ τ κ μ) : Known σ κ μ :=
  match c.task, c.stack with
  | .succeed, .remember x pos _ :: _ => [((x, pos), some (c.nodes, c.cursor))]
  | .fail, .remember x pos _ :: _ => [((x, pos), none)]
  | _, _ => []

/-- A step that asks a list where `step` asks the table. -/
def stepKnowing (g : RuleSet σ τ κ μ) (s : Source) (known : Known σ κ μ)
    (c : Config σ τ κ μ) : Step σ τ κ μ :=
  match c.task with
  | .read (.ref x) =>
    if g.remembers x then
      match known.lookup (x, c.cursor.pos) with
      | some none => .next { c with task := .fail }
      | some (some (read, cursor)) =>
        .next { c with task := .succeed, cursor := cursor, nodes := read ++ c.nodes }
      | none =>
        .next { c with task := .read (g.rule x), nodes := [],
                       stack := .remember x c.cursor.pos c.nodes :: c.stack }
    else .next { c with task := .read (g.rule x) }
  | _ => step g s c

/-- A run that puts what it learns in front of a list. -/
def runKnowing (g : RuleSet σ τ κ μ) (s : Source) :
    Nat → Known σ κ μ → Config σ τ κ μ → Option (List (ParseTree κ))
  | 0, _, _ => none
  | fuel + 1, known, c =>
    match stepKnowing g s known c with
    | .next next => runKnowing g s fuel (c.learned ++ known) next
    | .accepted nodes => some nodes
    | .refused => none

/-- The configuration a run starts in. -/
def RuleSet.initialConfig (g : RuleSet σ τ κ μ) : Config σ τ κ μ :=
  { task := .read (g.rule g.start), cursor := ⟨0, 0, g.initial⟩, nodes := [], stack := [],
    memory := {} }

/-- The table answers what the list does. -/
def Config.Knows (known : Known σ κ μ) (c : Config σ τ κ μ) : Prop :=
  ∀ key, c.memory[key]? = known.lookup key

variable {g : RuleSet σ τ κ μ} {s : Source} {c : Config σ τ κ μ} {known : Known σ κ μ}

theorem RuleSet.knows_initialConfig : g.initialConfig.Knows [] :=
  fun _ => Std.HashMap.getElem?_empty

theorem memory_readRule (rule : Rule σ τ κ) : (readRule g s rule c).memory = c.memory := by
  fun_cases readRule g s rule c <;> rfl

theorem Config.Knows.step_eq (h : c.Knows known) : step g s c = stepKnowing g s known c := by
  rw [stepKnowing]
  split
  · rename_i x htask
    simp only [step, htask, readRule, h (x, c.cursor.pos)]
    split
    · cases known.lookup (x, c.cursor.pos) with
      | none => rfl
      | some outcome => cases outcome <;> rfl
    · rfl
  · rfl

variable [LawfulBEq σ]

theorem Config.Knows.insert (h : c.Knows known) (key : σ × Nat) (outcome : Outcome κ μ) :
    ({ c with memory := c.memory.insert key outcome } : Config σ τ κ μ).Knows
      ((key, outcome) :: known) := by
  intro other
  rw [List.lookup_cons, Std.HashMap.getElem?_insert, h other]
  by_cases heq : key = other
  · rw [heq, beq_self_eq_true]
    rfl
  · rw [beq_false_of_ne heq, beq_false_of_ne (Ne.symm heq)]
    rfl

/-- Only a frame that remembers changes the table, and what it puts there was learned. -/
theorem Config.Knows.next (h : c.Knows known) {next : Config σ τ κ μ}
    (hstep : step g s c = .next next) : next.Knows (c.learned ++ known) := by
  obtain ⟨task, cursor, nodes, stack, memory⟩ := c
  cases task with
  | read rule =>
    obtain rfl : readRule g s rule _ = next := by simpa [step] using hstep
    intro key
    rw [memory_readRule]
    exact h key
  | succeed =>
    cases stack with
    | nil => simp [step] at hstep
    | cons frame stack =>
      obtain rfl : succeedInto s frame _ = next := by simpa [step] using hstep
      cases frame with
      | remember x pos before => exact h.insert (x, pos) _
      | many r back before =>
        intro key
        rw [succeedInto]
        split <;> exact h key
      | _ => exact h
  | fail =>
    cases stack with
    | nil => simp [step] at hstep
    | cons frame stack =>
      obtain rfl : failInto frame _ = next := by simpa [step] using hstep
      cases frame with
      | remember x pos before => exact h.insert (x, pos) _
      | _ => exact h

theorem Config.Knows.run_eq (h : c.Knows known) (fuel : Nat) :
    run g s fuel c = runKnowing g s fuel known c := by
  induction fuel generalizing c known with
  | zero => rfl
  | succ fuel ih =>
    rw [run, runKnowing, ← h.step_eq]
    cases hstep : step g s c with
    | next next => exact ih (h.next hstep)
    | accepted nodes => rfl
    | refused => rfl

/-- **A list remembers as well as the table.** The tree of a source is the one found by the run
that keeps a list of what it has learned. -/
theorem RuleSet.parse?_eq_runKnowing (g : RuleSet σ τ κ μ) (s : Source) :
    g.parse? s = (runKnowing g s (stepBound s.size) [] g.initialConfig).bind
      fun nodes => nodes.find? fun t => !t.isExtra := by
  rw [← g.knows_initialConfig.run_eq]
  rfl

end DocGate.Grammar

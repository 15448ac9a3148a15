/-
# Interleaved tasks over shared memory

A program is run by any number of tasks. Each has a program counter of its own and
advances by atomic steps that read and write the memory they share. A step may wait
for an answer from outside, and it is blocked while the program has no step.

An invariant of such a pool is given by what holds of the memory and what each task
relies on at its program counter. It is kept if every step establishes both for the
task that makes it, and leaves what every other task relies on.
-/

import Mathlib.Data.Nat.Notation
import Mathlib.Logic.Relation
import Mathlib.Tactic.SplitIfs

namespace Bob.Math

universe u v w z

/-- Memory `σ`, program counters `κ`, calls `χ` and answers from outside `ε`. -/
structure Program (σ : Type u) (κ : Type v) (χ : Type w) (ε : Type z) where
  /-- Where a task for the call begins. -/
  entry : χ → κ
  /-- One atomic step of the task with the given number. -/
  advance : σ → ℕ → κ → ε → Option (σ × κ)

/-- The tasks so far, and the memory. -/
structure Pool (σ : Type u) (κ : Type v) where
  shared : σ
  tasks : List κ

/-- What happens next: a call arrives, or a task advances. -/
inductive Action (χ : Type w) (ε : Type z)
  | call (call : χ)
  | advance (task : ℕ) (event : ε)
  deriving DecidableEq, Repr

variable {σ : Type u} {κ : Type v} {χ : Type w} {ε : Type z} {program : Program σ κ χ ε}
  {p p' : Pool σ κ}

namespace Program

def step (program : Program σ κ χ ε) (p : Pool σ κ) : Action χ ε → Option (Pool σ κ)
  | .call call => some { p with tasks := p.tasks ++ [program.entry call] }
  | .advance i event =>
    p.tasks[i]?.bind fun pc => (program.advance p.shared i pc event).map fun (shared, pc) =>
      ⟨shared, p.tasks.set i pc⟩

/-- Everything a step of the pool can be. -/
theorem step_cases {action : Action χ ε} (stepped : program.step p action = some p') :
    (∃ call, action = .call call ∧
      p' = { p with tasks := p.tasks ++ [program.entry call] }) ∨
    ∃ i event pc shared pc', action = .advance i event ∧ p.tasks[i]? = some pc ∧
      program.advance p.shared i pc event = some (shared, pc') ∧
      p' = ⟨shared, p.tasks.set i pc'⟩ := by
  cases action with
  | call call => exact Or.inl ⟨call, rfl, (Option.some.inj stepped).symm⟩
  | advance i event =>
    obtain ⟨pc, here, rest⟩ := Option.bind_eq_some_iff.mp stepped
    obtain ⟨⟨shared, pc'⟩, advanced, result⟩ := Option.map_eq_some_iff.mp rest
    exact Or.inr ⟨i, event, pc, shared, pc', rfl, here, advanced, result.symm⟩

/-- A step that is allowed in the state before it. -/
def GuardedStep (program : Program σ κ χ ε) (guard : Pool σ κ → Action χ ε → Prop)
    (p p' : Pool σ κ) : Prop :=
  ∃ action, guard p action ∧ program.step p action = some p'

theorem GuardedStep.mono {guard guard' : Pool σ κ → Action χ ε → Prop}
    (weaker : ∀ p action, guard p action → guard' p action)
    (stepped : program.GuardedStep guard p p') : program.GuardedStep guard' p p' := by
  obtain ⟨action, allowed, stepped⟩ := stepped
  exact ⟨action, weaker p action allowed, stepped⟩

/-- One step of a task that is not blocked. -/
theorem guardedStep_of_advance {guard : Pool σ κ → Action χ ε → Prop} {i : ℕ} {pc : κ} {event : ε}
    {result : σ × κ} (here : p.tasks[i]? = some pc)
    (advanced : program.advance p.shared i pc event = some result)
    (allowed : guard p (.advance i event)) :
    program.GuardedStep guard p ⟨result.1, p.tasks.set i result.2⟩ := by
  refine ⟨.advance i event, allowed, ?_⟩
  rw [step, here, Option.bind_some, advanced]
  rfl

/-- Follow a schedule, as long as its steps are allowed and not blocked. -/
def follow (program : Program σ κ χ ε) (guard : Pool σ κ → Action χ ε → Prop)
    [∀ p action, Decidable (guard p action)] (p : Pool σ κ) (schedule : List (Action χ ε)) :
    Option (Pool σ κ) :=
  schedule.foldlM (fun p action => if guard p action then program.step p action else none) p

theorem reflTransGen_of_follow {guard : Pool σ κ → Action χ ε → Prop}
    [∀ p action, Decidable (guard p action)] {schedule : List (Action χ ε)}
    (followed : program.follow guard p schedule = some p') :
    Relation.ReflTransGen (program.GuardedStep guard) p p' := by
  unfold follow at followed
  induction schedule generalizing p with
  | nil =>
    cases followed
    exact .refl
  | cons action rest ih =>
    rw [List.foldlM_cons] at followed
    obtain ⟨next, first, later⟩ := Option.bind_eq_some_iff.mp followed
    split_ifs at first with allowed
    exact .head ⟨action, allowed, first⟩ (ih later)

end Program

/-- The memory is as it should be, and every task finds what it relies on. -/
structure Pool.Sound (inv : σ → Prop) (relies : σ → ℕ → κ → Prop) (p : Pool σ κ) : Prop where
  shared : inv p.shared
  tasks : ∀ i pc, p.tasks[i]? = some pc → relies p.shared i pc

namespace Pool.Sound

variable {inv : σ → Prop} {relies : σ → ℕ → κ → Prop}

/-- A call adds a task that relies on nothing that does not hold. -/
theorem call {pc : κ} (sound : p.Sound inv relies)
    (entry : relies p.shared p.tasks.length pc) :
    Pool.Sound inv relies { p with tasks := p.tasks ++ [pc] } := by
  refine ⟨sound.shared, fun i found here => ?_⟩
  rcases Nat.lt_trichotomy i p.tasks.length with before | rfl | after
  · exact sound.tasks i found (by rwa [List.getElem?_append_left before] at here)
  · rw [List.getElem?_concat_length] at here
    cases here
    exact entry
  · rw [List.getElem?_eq_none (by rw [List.length_append, List.length_singleton]; omega)] at here
    cases here

/-- A task advances: it finds what it relies on next, and the others lose nothing. -/
theorem advance {i : ℕ} {pc' : κ} {shared : σ} (sound : p.Sound inv relies)
    (memory : inv shared) (own : relies shared i pc')
    (others : ∀ j other, j ≠ i → p.tasks[j]? = some other → relies p.shared j other →
      relies shared j other) :
    Pool.Sound inv relies ⟨shared, p.tasks.set i pc'⟩ := by
  refine ⟨memory, fun j found here => ?_⟩
  by_cases same : i = j
  · subst same
    rw [List.getElem?_set, if_pos rfl] at here
    split_ifs at here
    cases here
    exact own
  · rw [List.getElem?_set_ne same] at here
    exact others j found (Ne.symm same) here (sound.tasks j found here)

/-- What every allowed step keeps holds in every state of a run. A task that enters
relies on nothing yet. -/
theorem of_reflTransGen {guard : Pool σ κ → Action χ ε → Prop} (sound : p.Sound inv relies)
    (entry : ∀ s i call, relies s i (program.entry call))
    (keeps : ∀ (p : Pool σ κ) i event pc shared pc', p.Sound inv relies →
      p.tasks[i]? = some pc → guard p (.advance i event) →
      program.advance p.shared i pc event = some (shared, pc') →
      inv shared ∧ relies shared i pc' ∧
        ∀ j other, j ≠ i → p.tasks[j]? = some other → relies p.shared j other →
          relies shared j other)
    (run : Relation.ReflTransGen (program.GuardedStep guard) p p') : p'.Sound inv relies := by
  induction run with
  | refl => exact sound
  | tail _ stepped ih =>
    obtain ⟨action, allowed, stepped⟩ := stepped
    obtain ⟨call, rfl, rfl⟩ | ⟨i, event, pc, shared, pc', rfl, here, advanced, rfl⟩ :=
      Program.step_cases stepped
    · exact ih.call (entry _ _ call)
    · obtain ⟨memory, own, others⟩ := keeps _ i event pc shared pc' ih here allowed advanced
      exact ih.advance memory own others

end Pool.Sound

end Bob.Math

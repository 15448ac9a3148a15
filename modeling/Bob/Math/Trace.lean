/-
# Guarded events of a trace

A requirement on a trace often says what must have happened before an event: a file is
closed before it is opened again, a request is sent before it is answered. `Guarded`
states such a requirement, and its lemmas follow the trace as it grows at its end.
-/

import Mathlib.Data.List.Basic

namespace Bob.Math

variable {α : Type*} {guard : List α → α → Prop} {trace block : List α}

/-- At each event, the guard holds of the events before it. -/
def Guarded (guard : List α → α → Prop) (trace : List α) : Prop :=
  ∀ before event after, trace = before ++ event :: after → guard before event

namespace Guarded

theorem nil : Guarded guard [] := by
  intro before event after split
  exact absurd split.symm (List.append_ne_nil_of_right_ne_nil _ (List.cons_ne_nil _ _))

/-- A trace grows by a block. The guards of the block see the whole trace before it. -/
theorem append_iff :
    Guarded guard (trace ++ block) ↔
      Guarded guard trace ∧ Guarded (fun before => guard (trace ++ before)) block := by
  constructor
  · intro guarded
    constructor
    · intro before event after split
      exact guarded before event (after ++ block) (by simp [split])
    · intro before event after split
      exact guarded (trace ++ before) event after (by simp [split])
  · rintro ⟨old, new⟩ before event after split
    -- the event is in the block or in the trace before it
    obtain ⟨shared, hbefore, hblock⟩ | ⟨shared, htrace, hafter⟩ :=
      List.append_eq_append_iff.mp split
    · rw [hbefore]
      exact new shared event after hblock
    · cases shared with
      | nil =>
        rw [List.nil_append] at hafter
        rw [List.append_nil] at htrace
        have first : guard (trace ++ []) event := new [] event after hafter.symm
        rwa [List.append_nil, htrace] at first
      | cons head rest =>
        obtain ⟨rfl, -⟩ := List.cons.inj hafter
        exact old before event rest htrace

/-- Events that need no guard are always guarded. -/
theorem of_free (free : ∀ event ∈ block, ∀ before, guard before event) : Guarded guard block := by
  intro before event after split
  exact free event (by simp [split]) before

end Guarded

end Bob.Math

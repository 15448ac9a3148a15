/-
# Loops with fuel

A loop runs its body while its condition holds. Fuel bounds the number of turns, and a loop
that runs out of it has no result. A variant that every turn lowers says how much fuel is
enough; more of it changes nothing.
-/

import Mathlib.Data.Nat.Notation
import Mathlib.Tactic.Common

namespace Bob.Math

variable {σ : Type*} {cond : σ → Prop} [DecidablePred cond] {body : σ → σ}

/-- Run the body while the condition holds, for at most so many turns. -/
def whileLoop (cond : σ → Prop) [DecidablePred cond] (body : σ → σ) : ℕ → σ → Option σ
  | 0, s => if cond s then none else some s
  | fuel + 1, s => if cond s then whileLoop cond body fuel (body s) else some s

theorem whileLoop_of_not {s : σ} (stop : ¬ cond s) (fuel : ℕ) :
    whileLoop cond body fuel s = some s := by
  cases fuel <;> exact if_neg stop

theorem whileLoop_succ {s : σ} (go : cond s) (fuel : ℕ) :
    whileLoop cond body (fuel + 1) s = whileLoop cond body fuel (body s) :=
  if_pos go

theorem whileLoop_zero_eq_some_iff {s t : σ} :
    whileLoop cond body 0 s = some t ↔ ¬ cond s ∧ s = t := by
  rw [whileLoop]
  split_ifs with go <;> simp [go]

/-- More fuel does not change a result. -/
theorem whileLoop_mono {fuel more : ℕ} {s t : σ} (done : whileLoop cond body fuel s = some t)
    (le : fuel ≤ more) : whileLoop cond body more s = some t := by
  induction fuel generalizing more s with
  | zero =>
    obtain ⟨stop, rfl⟩ := whileLoop_zero_eq_some_iff.mp done
    exact whileLoop_of_not stop more
  | succ fuel ih =>
    by_cases go : cond s
    · cases more with
      | zero => cases le
      | succ more =>
        rw [whileLoop_succ go] at done ⊢
        exact ih done (Nat.le_of_succ_le_succ le)
    · rw [whileLoop_of_not go] at done ⊢
      exact done

/-- A loop whose turns keep an invariant and lower a variant ends within the variant, and the
invariant holds at its end. -/
theorem exists_whileLoop {I : σ → Prop} {variant : σ → ℕ}
    (keeps : ∀ s, I s → cond s → I (body s))
    (lowers : ∀ s, I s → cond s → variant (body s) < variant s) {fuel : ℕ} {s : σ} (start : I s)
    (enough : variant s ≤ fuel) :
    ∃ t, whileLoop cond body fuel s = some t ∧ I t ∧ ¬ cond t := by
  induction fuel generalizing s with
  | zero =>
    have stop : ¬ cond s := fun go => by
      have lower := lowers s start go
      omega
    exact ⟨s, whileLoop_of_not stop 0, start, stop⟩
  | succ fuel ih =>
    by_cases go : cond s
    · have lower := lowers s start go
      obtain ⟨t, done, kept, stop⟩ := ih (keeps s start go) (by omega)
      exact ⟨t, by rw [whileLoop_succ go, done], kept, stop⟩
    · exact ⟨s, whileLoop_of_not go _, start, go⟩

end Bob.Math

/-
# Calls that finish in any order

Concurrent calls are launched as a list and finish in an order nobody controls.
`AnyOrder` stands for one such order. A waiting loop consumes finished calls
until their weight reaches a bound. Whether the bound is reached depends on the
total weight only, so not on the order.
-/

import Mathlib.Algebra.BigOperators.Group.List.Basic
import Mathlib.Algebra.GroupWithZero.Nat
import Mathlib.Data.List.Perm.Basic

namespace Bob.Math

variable {α : Type*}

/-- An order of completion: some rearrangement of every list of calls. -/
structure AnyOrder (α : Type*) where
  arrange : List α → List α
  perm : ∀ items, (arrange items).Perm items

namespace AnyOrder

/-- Calls finish as they were launched. -/
def launched : AnyOrder α where
  arrange := fun items => items
  perm := fun _ => .refl _

@[simp] theorem mem_arrange {order : AnyOrder α} {items : List α} {item : α} :
    item ∈ order.arrange items ↔ item ∈ items :=
  (order.perm items).mem_iff

theorem any_arrange {order : AnyOrder α} {items : List α} {p : α → Bool} :
    (order.arrange items).any p = items.any p := by
  rw [Bool.eq_iff_iff, List.any_eq_true, List.any_eq_true]
  simp only [mem_arrange]

end AnyOrder

/-! ## Waiting for enough -/

/-- Consume items until those consumed weigh `atLeast`, counting `reached` from
before. Return what was consumed and what is left. -/
def consumeUntil (weight : α → ℕ) (atLeast : ℕ) (reached : ℕ) : List α → List α × List α
  | [] => ([], [])
  | item :: rest =>
    if reached < atLeast then
      let (consumed, left) := consumeUntil weight atLeast (reached + weight item) rest
      (item :: consumed, left)
    else ([], item :: rest)

variable {weight : α → ℕ} {atLeast reached : ℕ} {items : List α}

theorem consumeUntil_append :
    (consumeUntil weight atLeast reached items).1 ++ (consumeUntil weight atLeast reached items).2 =
      items := by
  induction items generalizing reached with
  | nil => rfl
  | cons item rest ih =>
    rw [consumeUntil]
    split_ifs with below
    · exact congrArg (item :: ·) ih
    · rfl

/-- Something is left only if enough was consumed. -/
theorem atLeast_le_of_left (left : (consumeUntil weight atLeast reached items).2 ≠ []) :
    atLeast ≤ reached + ((consumeUntil weight atLeast reached items).1.map weight).sum := by
  induction items generalizing reached with
  | nil => exact absurd rfl left
  | cons item rest ih =>
    rw [consumeUntil] at left ⊢
    split_ifs at left ⊢ with below
    · have enough := ih left
      simp only [List.map_cons, List.sum_cons]
      omega
    · simp only [List.map_nil, List.sum_nil]
      omega

/-- The loop reaches its bound when all items together do, whatever `extra`
weight came from elsewhere. -/
theorem atLeast_le_consumed_iff {extra : ℕ} :
    atLeast ≤ ((consumeUntil weight atLeast 0 items).1.map weight).sum + extra ↔
      atLeast ≤ (items.map weight).sum + extra := by
  have total : (items.map weight).sum =
      ((consumeUntil weight atLeast 0 items).1.map weight).sum +
        ((consumeUntil weight atLeast 0 items).2.map weight).sum := by
    rw [← List.sum_append, ← List.map_append, consumeUntil_append]
  by_cases left : (consumeUntil weight atLeast 0 items).2 = []
  · rw [total, left]
    simp
  · have enough := atLeast_le_of_left left
    omega

end Bob.Math

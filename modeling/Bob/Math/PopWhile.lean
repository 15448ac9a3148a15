/-
# Taking from a stack while a condition holds

A loop pops the top of a stack as long as a condition on the stack holds. What it has popped
and what it has left make up the stack.
-/

import Mathlib.Data.List.Basic

namespace Bob.Math

variable {α : Type*} {go : List α → Bool} {p : α → Bool} {n : ℕ} {l : List α}

/-- What is popped, and what is left. A stack is listed from its top. -/
def popWhile (go : List α → Bool) : List α → List α × List α
  | [] => ([], [])
  | a :: l =>
    if go (a :: l) then
      let (popped, left) := popWhile go l
      (a :: popped, left)
    else ([], a :: l)

theorem popWhile_append (go : List α → Bool) (l : List α) :
    (popWhile go l).1 ++ (popWhile go l).2 = l := by
  induction l with
  | nil => rfl
  | cons a l ih =>
    unfold popWhile
    split_ifs
    · exact congrArg (a :: ·) ih
    · rfl

theorem length_popWhile_le_length (go : List α → Bool) (l : List α) :
    (popWhile go l).2.length ≤ l.length := by
  have split := congrArg List.length (popWhile_append go l)
  rw [List.length_append] at split
  omega

theorem popWhile_of_stop (stop : go l = false) : popWhile go l = ([], l) := by
  cases l with
  | nil => rfl
  | cons a l => rw [popWhile, if_neg (Bool.eq_false_iff.mp stop)]

/-- Where the loop ends, the condition does not hold or nothing is left. -/
theorem popWhile_stops (go : List α → Bool) (l : List α) :
    (popWhile go l).2 = [] ∨ go (popWhile go l).2 = false := by
  induction l with
  | nil => exact .inl rfl
  | cons a l ih =>
    unfold popWhile
    split_ifs with goes
    · exact ih
    · exact .inr (Bool.eq_false_iff.mpr goes)

/-- A loop that looks at the size leaves so many. -/
theorem popWhile_length (n : ℕ) (l : List α) :
    (popWhile (fun l => n < l.length) l).2 = l.drop (l.length - n) := by
  induction l with
  | nil => rw [List.drop_nil, popWhile]
  | cons a l ih =>
    unfold popWhile
    split_ifs with more
    · have more : n ≤ l.length := Nat.le_of_lt_succ (of_decide_eq_true more)
      rw [List.length_cons, Nat.succ_sub more]
      exact ih
    · have few : (a :: l).length - n = 0 := Nat.sub_eq_zero_of_le (by simpa using more)
      rw [few, List.drop_zero]

/-- A loop that also looks at the top leaves no more, if every element lets it go on. -/
theorem length_popWhile_le (all : ∀ a ∈ l, p a = true) :
    (popWhile (fun l => n < l.length && l.head?.any p) l).2.length ≤ n := by
  rcases popWhile_stops (fun l => n < l.length && l.head?.any p) l with empty | stopped
  · rw [empty]
    exact Nat.zero_le n
  · have split := popWhile_append (fun l => n < l.length && l.head?.any p) l
    generalize (popWhile (fun l => n < l.length && l.head?.any p) l).2 = left at stopped split ⊢
    cases left with
    | nil => exact Nat.zero_le n
    | cons a left =>
      have top : p a = true := all a (split ▸ List.mem_append_right _ List.mem_cons_self)
      simpa [top] using stopped

end Bob.Math

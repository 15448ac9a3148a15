/-
# Gaps between neighbours

The neighbours in a list of numbers, the gaps between them, and the widest of them.
-/

import Mathlib.Data.List.Chain
import Mathlib.Order.MinMax

namespace Bob.Math

variable {α : Type*} {R : α → α → Prop} {l : List α}

/-- Each element with the one after it. -/
def neighbours (l : List α) : List (α × α) := l.zip l.tail

@[simp] theorem neighbours_cons_cons (a b : α) (l : List α) :
    neighbours (a :: b :: l) = (a, b) :: neighbours (b :: l) := rfl

theorem forall_mem_neighbours_iff :
    (∀ pair ∈ neighbours l, R pair.1 pair.2) ↔ l.IsChain R := by
  induction l with
  | nil => simp [neighbours]
  | cons a l ih =>
    cases l with
    | nil => simp [neighbours]
    | cons b l => rw [neighbours_cons_cons, List.forall_mem_cons, ih, List.isChain_cons_cons]

theorem mem_neighbours_append {pair : α × α} (member : pair ∈ neighbours l) (rest : List α) :
    pair ∈ neighbours (l ++ rest) := by
  induction l with
  | nil => cases member
  | cons a l ih =>
    cases l with
    | nil => cases member
    | cons b l =>
      rw [neighbours_cons_cons, List.mem_cons] at member
      exact List.mem_cons.mpr (member.imp_right ih)

theorem snd_mem_of_mem_neighbours {pair : α × α} (member : pair ∈ neighbours l) : pair.2 ∈ l :=
  List.mem_of_mem_tail (List.of_mem_zip member).2

theorem foldl_max_le_iff [LinearOrder α] {least bound : α} :
    l.foldl max least ≤ bound ↔ least ≤ bound ∧ ∀ a ∈ l, a ≤ bound := by
  induction l generalizing least with
  | nil => simp
  | cons a l ih => rw [List.foldl_cons, ih, max_le_iff, List.forall_mem_cons, and_assoc]

def gaps (l : List ℕ) : List ℕ := (neighbours l).map fun pair => pair.2 - pair.1

/-- The widest gap, if it is wider than `least`. -/
def widestGap (least : ℕ) (l : List ℕ) : ℕ := (gaps l).foldl max least

theorem widestGap_le_iff {least bound : ℕ} {l : List ℕ} :
    widestGap least l ≤ bound ↔
      least ≤ bound ∧ ∀ pair ∈ neighbours l, pair.2 - pair.1 ≤ bound := by
  rw [widestGap, foldl_max_le_iff, gaps, List.forall_mem_map]

end Bob.Math

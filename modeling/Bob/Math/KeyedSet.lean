/-
# Sets ordered by a key

A set that compares its elements by a key only. Of elements with one key it has at most
one: inserting another leaves the set as it is, and removing an element removes the one
with its key.
-/

import Mathlib.Data.List.Pairwise
import Mathlib.Order.Lattice

namespace Bob.Math

variable {α κ : Type*} [LinearOrder κ] {key : α → κ} {a b : α} {l : List α}

/-- Insert into a list in the order of the keys, unless the key is there. -/
def insertByKey (key : α → κ) (a : α) : List α → List α
  | [] => [a]
  | b :: l =>
    if key a < key b then a :: b :: l
    else if key b < key a then b :: insertByKey key a l
    else b :: l

theorem mem_insertByKey_iff (sorted : l.Pairwise (key · < key ·)) :
    b ∈ insertByKey key a l ↔ b ∈ l ∨ b = a ∧ ∀ c ∈ l, key c ≠ key a := by
  induction l with
  | nil => simp [insertByKey]
  | cons c l ih =>
    obtain ⟨least, sorted⟩ := List.pairwise_cons.mp sorted
    unfold insertByKey
    split_ifs with lt gt
    · -- the key is smaller than all others
      have absent : ∀ d ∈ c :: l, key d ≠ key a := by
        intro d member
        rcases List.mem_cons.mp member with rfl | later
        · exact lt.ne'
        · exact (lt.trans (least d later)).ne'
      rw [List.mem_cons, and_iff_left absent, or_comm]
    · rw [List.mem_cons, ih sorted, List.mem_cons, List.forall_mem_cons, and_iff_right gt.ne,
        or_assoc]
    · have same : key c = key a := le_antisymm (not_lt.mp lt) (not_lt.mp gt)
      simp [same]

theorem pairwise_insertByKey (sorted : l.Pairwise (key · < key ·)) :
    (insertByKey key a l).Pairwise (key · < key ·) := by
  induction l with
  | nil => exact List.pairwise_singleton _ _
  | cons c l ih =>
    obtain ⟨least, rest⟩ := List.pairwise_cons.mp sorted
    unfold insertByKey
    split_ifs with lt gt
    · refine List.pairwise_cons.mpr ⟨fun d member => ?_, sorted⟩
      rcases List.mem_cons.mp member with rfl | later
      · exact lt
      · exact lt.trans (least d later)
    · refine List.pairwise_cons.mpr ⟨fun d member => ?_, ih rest⟩
      rcases (mem_insertByKey_iff rest).mp member with later | ⟨rfl, -⟩
      · exact least d later
      · exact gt
    · exact sorted

/-- A set whose elements are compared by a key. -/
structure KeyedSet (key : α → κ) where
  elems : List α
  sorted : elems.Pairwise (key · < key ·)

namespace KeyedSet

variable {s : KeyedSet key}

def empty : KeyedSet key := ⟨[], .nil⟩

def insert (s : KeyedSet key) (a : α) : KeyedSet key :=
  ⟨insertByKey key a s.elems, pairwise_insertByKey s.sorted⟩

/-- The element with the smallest key. -/
def first (s : KeyedSet key) : Option α := s.elems.head?

/-- Remove the element with the key of `a`. -/
def remove (s : KeyedSet key) (a : α) : KeyedSet key :=
  ⟨s.elems.filter fun b => key b ≠ key a, s.sorted.filter _⟩

theorem mem_insert_iff :
    b ∈ (s.insert a).elems ↔ b ∈ s.elems ∨ b = a ∧ ∀ c ∈ s.elems, key c ≠ key a :=
  mem_insertByKey_iff s.sorted

theorem first_eq_none_iff : s.first = none ↔ s.elems = [] := List.head?_eq_none_iff

theorem mem_of_first (least : s.first = some a) : a ∈ s.elems := List.mem_of_mem_head? least

/-- Removing the first element leaves the others. -/
theorem elems_of_first (least : s.first = some a) : s.elems = a :: (s.remove a).elems := by
  obtain ⟨l, split⟩ := List.head?_eq_some_iff.mp least
  have sorted := s.sorted
  rw [split, List.pairwise_cons] at sorted
  have others : l.filter (fun b => key b ≠ key a) = l :=
    List.filter_eq_self.mpr fun b member => decide_eq_true (sorted.1 b member).ne'
  have rest : (s.remove a).elems = l := by
    change s.elems.filter (fun b => key b ≠ key a) = l
    rw [split, List.filter_cons, if_neg (by simp), others]
  rw [split, rest]

end KeyedSet

end Bob.Math

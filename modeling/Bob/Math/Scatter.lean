/-
# Scattering answers back by index

A batch of questions is regrouped, asked in parts, and the answers are written
back at the positions the questions came from. A vector of flags is read as a
function of the position, cut off at its length; writing an answer back joins it
to the flag that is already there.
-/

import Mathlib.Data.List.Basic
import Mathlib.Tactic.Common

namespace Bob.Math

/-- The vector of the first `n` values of `flag`. -/
def flags (n : ℕ) (flag : ℕ → Bool) : List Bool := (List.range n).map flag

@[simp] theorem length_flags {n : ℕ} {flag : ℕ → Bool} : (flags n flag).length = n := by
  simp [flags]

theorem getElem?_flags {n i : ℕ} {flag : ℕ → Bool} (below : i < n) :
    (flags n flag)[i]? = some (flag i) := by
  simp [flags, below]

theorem flags_congr {n : ℕ} {flag flag' : ℕ → Bool} (same : ∀ i < n, flag i = flag' i) :
    flags n flag = flags n flag' :=
  List.map_congr_left fun i hi => same i (List.mem_range.mp hi)

theorem flags_false {n : ℕ} : flags n (fun _ => false) = List.replicate n false := by
  simp [flags, List.map_const']

/-- Join each answer to the flag at its position. -/
def scatterOr (values : List Bool) (answers : List (ℕ × Bool)) : List Bool :=
  answers.foldl (fun acc answer => acc.modify answer.1 (· || answer.2)) values

private theorem modify_flags {n j : ℕ} {flag : ℕ → Bool} {answer : Bool} :
    (flags n flag).modify j (· || answer) =
      flags n fun i => flag i || (decide (j = i) && answer) := by
  apply List.ext_getElem?
  intro i
  rw [List.getElem?_modify]
  by_cases below : i < n
  · rw [getElem?_flags below, getElem?_flags below]
    by_cases here : j = i <;> simp [here]
  · simp [flags, below]

theorem scatterOr_flags {n : ℕ} {flag : ℕ → Bool} {answers : List (ℕ × Bool)} :
    scatterOr (flags n flag) answers =
      flags n fun i => flag i || answers.any fun answer => decide (answer.1 = i) && answer.2 := by
  unfold scatterOr
  induction answers generalizing flag with
  | nil => simp
  | cons answer rest ih =>
    rw [List.foldl_cons, modify_flags, ih]
    exact flags_congr fun i _ => by simp [Bool.or_assoc]

/-- A loop whose turns join answers to the flags joins those of all turns, in whatever order
they are taken. -/
theorem foldlM_flags {ε τ : Type} {n : ℕ} {step : List Bool → τ → Except ε (List Bool)}
    (joined : τ → ℕ → Bool) {turns : List τ} {flag : ℕ → Bool}
    (joins : ∀ turn ∈ turns, ∀ flag, step (flags n flag) turn =
      .ok (flags n fun i => flag i || joined turn i)) :
    turns.foldlM step (flags n flag) =
      .ok (flags n fun i => flag i || turns.any fun turn => joined turn i) := by
  induction turns generalizing flag with
  | nil =>
    simp only [List.any_nil, Bool.or_false]
    rfl
  | cons turn rest ih =>
    rw [List.foldlM_cons, joins turn List.mem_cons_self]
    refine (ih fun other member => joins other (List.mem_cons_of_mem _ member)).trans ?_
    simp only [List.any_cons, Bool.or_assoc]

/-- Answers that were computed from the positions they return to. -/
theorem any_zip_map {indexes : List ℕ} {answer : ℕ → Bool} {i : ℕ} :
    (indexes.zip (indexes.map answer)).any (fun pair => decide (pair.1 = i) && pair.2) =
      (decide (i ∈ indexes) && answer i) := by
  induction indexes with
  | nil => rfl
  | cons index rest ih =>
    simp only [List.map_cons, List.zip_cons_cons, List.any_cons, ih, List.mem_cons]
    by_cases here : index = i
    · subst here
      by_cases again : index ∈ rest <;> simp [again]
    · have other : ¬ i = index := fun same => here same.symm
      simp [here, other]

end Bob.Math

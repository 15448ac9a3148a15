/-
# The first element that matches

Searching a list from the front, with the position of what was found. A list may be
extended: elements are replaced by related ones, and others are added at the end. If the
replacements match as before, a search still finds what it found, or something that was
added.
-/

import Mathlib.Data.List.Basic
import Mathlib.Data.List.Forall2
import Mathlib.Data.List.Nodup

namespace Bob.Math

universe u

variable {α : Type u} {p : α → Bool} {l : List α}

/-- Where keys are not repeated, a search for the key of an element finds the element. -/
theorem find?_key_eq_some {κ : Type*} [DecidableEq κ] {key : α → κ} (distinct : (l.map key).Nodup)
    {a : α} (member : a ∈ l) : (l.find? fun other => key other = key a) = some a := by
  obtain ⟨other, found⟩ := Option.isSome_iff_exists.mp
    (List.find?_isSome.mpr ⟨a, member, decide_eq_true rfl⟩ :
      (l.find? fun other => key other = key a).isSome)
  have same : key other = key a := by simpa using List.find?_some found
  rw [found, List.inj_on_of_nodup_map distinct (List.mem_of_find?_eq_some found) member same]

/-- The first element that matches, with its position. -/
def firstMatch (p : α → Bool) (l : List α) : Option (α × ℕ) :=
  l.zipIdx.find? fun entry => p entry.1

theorem firstMatch_eq_some_iff {a : α} {i : ℕ} :
    firstMatch p l = some (a, i) ↔
      l[i]? = some a ∧ p a = true ∧ ∀ j < i, ∀ b, l[j]? = some b → p b = false := by
  rw [firstMatch, List.find?_eq_some_iff_getElem]
  simp only [List.getElem_zipIdx, Nat.zero_add, List.length_zipIdx, Prod.mk.injEq,
    Bool.not_eq_true']
  constructor
  · rintro ⟨matched, j, hj, ⟨rfl, rfl⟩, before⟩
    refine ⟨List.getElem?_eq_getElem hj, matched, fun k hk b found => ?_⟩
    obtain ⟨_, rfl⟩ := List.getElem?_eq_some_iff.mp found
    exact before k hk
  · rintro ⟨found, matched, before⟩
    obtain ⟨hi, rfl⟩ := List.getElem?_eq_some_iff.mp found
    refine ⟨matched, i, hi, ⟨rfl, rfl⟩, fun j hj => ?_⟩
    exact before j hj _ (List.getElem?_eq_getElem (Nat.lt_trans hj hi))

theorem firstMatch_eq_none_iff : firstMatch p l = none ↔ ∀ a ∈ l, p a = false := by
  rw [firstMatch, List.find?_eq_none]
  simp only [Bool.not_eq_true]
  constructor
  · intro none a member
    obtain ⟨i, hi⟩ := List.getElem?_of_mem member
    exact none (a, i) (List.mk_mem_zipIdx_iff_getElem?.mpr hi)
  · intro none entry member
    exact none entry.1 (List.fst_mem_of_mem_zipIdx member)

/-- Only the elements of the list are tested. -/
theorem firstMatch_congr {q : α → Bool} (same : ∀ a ∈ l, p a = q a) :
    firstMatch p l = firstMatch q l := by
  cases found : firstMatch q l with
  | none =>
    refine firstMatch_eq_none_iff.mpr fun a member => ?_
    rw [same a member]
    exact firstMatch_eq_none_iff.mp found a member
  | some entry =>
    obtain ⟨here, matched, before⟩ := firstMatch_eq_some_iff.mp found
    refine firstMatch_eq_some_iff.mpr ⟨here, ?_, fun j hj b hb => ?_⟩
    · rw [same _ (List.mem_of_getElem? here)]
      exact matched
    · rw [same b (List.mem_of_getElem? hb)]
      exact before j hj b hb

/-- If something matches, there is a first match. -/
theorem exists_firstMatch {a : α} (member : a ∈ l) (matched : p a = true) :
    ∃ b i, firstMatch p l = some (b, i) := by
  cases found : firstMatch p l with
  | none => simp [firstMatch_eq_none_iff.mp found a member] at matched
  | some entry => exact ⟨entry.1, entry.2, rfl⟩

/-- Replacing the first match by another match leaves it the first. -/
theorem firstMatch_set {a b : α} {i : ℕ} (found : firstMatch p l = some (a, i))
    (matched : p b = true) : firstMatch p (l.set i b) = some (b, i) := by
  obtain ⟨here, -, before⟩ := firstMatch_eq_some_iff.mp found
  refine firstMatch_eq_some_iff.mpr ⟨?_, matched, fun j hj c hc => ?_⟩
  · exact List.getElem?_set_self (List.getElem?_eq_some_iff.mp here).1
  · rw [List.getElem?_set_ne (Nat.ne_of_gt hj)] at hc
    exact before j hj c hc

/-! ## Extended lists -/

/-- Every element has a related one at its position, and what was added is fresh. -/
structure Extended (R : α → α → Prop) (fresh : α → Prop) (l l' : List α) : Prop where
  kept : ∀ (i : ℕ) (a : α), l[i]? = some a → ∃ b, l'[i]? = some b ∧ R a b
  added : ∀ (i : ℕ) (b : α), l'[i]? = some b → l[i]? = none → fresh b

namespace Extended

variable {R : α → α → Prop} {fresh : α → Prop} {l' l'' : List α}

theorem of_forall₂ (related : List.Forall₂ R l l') : Extended R fresh l l' := by
  obtain ⟨same, pointwise⟩ := List.forall₂_iff_get.mp related
  refine ⟨fun i a here => ?_, fun i b here missing => ?_⟩
  · obtain ⟨below, rfl⟩ := List.getElem?_eq_some_iff.mp here
    exact ⟨l'.get ⟨i, same ▸ below⟩, List.getElem?_eq_getElem _, pointwise i below (same ▸ below)⟩
  · obtain ⟨below, -⟩ := List.getElem?_eq_some_iff.mp here
    rw [List.getElem?_eq_none_iff] at missing
    omega

theorem append_singleton (refl : ∀ a, R a a) {a : α} (new : fresh a) :
    Extended R fresh l (l ++ [a]) := by
  refine ⟨fun i b here => ⟨b, ?_, refl b⟩, fun i b here missing => ?_⟩
  · rw [List.getElem?_append_left (List.getElem?_eq_some_iff.mp here).1, here]
  · rw [List.getElem?_append_right (List.getElem?_eq_none_iff.mp missing)] at here
    rw [List.mem_singleton.mp (List.mem_of_getElem? here)]
    exact new

protected theorem trans (trans : ∀ a b c, R a b → R b c → R a c)
    (stays : ∀ a b, R a b → fresh a → fresh b) (first : Extended R fresh l l')
    (second : Extended R fresh l' l'') : Extended R fresh l l'' := by
  refine ⟨fun i a here => ?_, fun i c here missing => ?_⟩
  · obtain ⟨b, middle, related⟩ := first.kept i a here
    obtain ⟨c, last, related'⟩ := second.kept i b middle
    exact ⟨c, last, trans a b c related related'⟩
  · cases middle : l'[i]? with
    | none => exact second.added i c here middle
    | some b =>
      obtain ⟨c', last, related⟩ := second.kept i b middle
      cases here.symm.trans last
      exact stays b c related (first.added i b middle missing)

/-- Every element of the extended list is fresh, or related to one that was there. -/
theorem fresh_or_exists (extended : Extended R fresh l l') {b : α} (member : b ∈ l') :
    fresh b ∨ ∃ a ∈ l, R a b := by
  obtain ⟨i, here⟩ := List.getElem?_of_mem member
  cases before : l[i]? with
  | none => exact Or.inl (extended.added i b here before)
  | some a =>
    obtain ⟨b', last, related⟩ := extended.kept i a before
    cases here.symm.trans last
    exact Or.inr ⟨a, List.mem_of_getElem? before, related⟩

/-- A search finds something fresh, or what it found before at the same position. -/
theorem fresh_or_firstMatch (extended : Extended R fresh l l')
    (same : ∀ a b, R a b → p b = p a) {b : α} {i : ℕ} (found : firstMatch p l' = some (b, i)) :
    fresh b ∨ ∃ a, firstMatch p l = some (a, i) ∧ R a b := by
  obtain ⟨here, matched, before⟩ := firstMatch_eq_some_iff.mp found
  cases was : l[i]? with
  | none => exact Or.inl (extended.added i b here was)
  | some a =>
    obtain ⟨b', last, related⟩ := extended.kept i a was
    cases here.symm.trans last
    refine Or.inr ⟨a, firstMatch_eq_some_iff.mpr ⟨was, ?_, fun j hj c hc => ?_⟩, related⟩
    · rw [← same a b related]
      exact matched
    · obtain ⟨d, there, related'⟩ := extended.kept j c hc
      rw [← same c d related']
      exact before j hj d there

/-- What a search found has a related element that it finds now. -/
theorem exists_firstMatch (extended : Extended R fresh l l') (same : ∀ a b, R a b → p b = p a)
    {a : α} {i : ℕ} (found : firstMatch p l = some (a, i)) :
    ∃ b, firstMatch p l' = some (b, i) ∧ R a b := by
  obtain ⟨here, matched, before⟩ := firstMatch_eq_some_iff.mp found
  obtain ⟨b, there, related⟩ := extended.kept i a here
  refine ⟨b, firstMatch_eq_some_iff.mpr ⟨there, by rwa [same a b related], fun j hj c hc => ?_⟩,
    related⟩
  -- an element before the match was there already
  have below : j < l.length := Nat.lt_trans hj (List.getElem?_eq_some_iff.mp here).1
  obtain ⟨c', there', related'⟩ := extended.kept j _ (List.getElem?_eq_getElem below)
  cases hc.symm.trans there'
  rw [same _ c related']
  exact before j hj _ (List.getElem?_eq_getElem below)

/-- An element that was there has a related one. -/
theorem exists_mem (extended : Extended R fresh l l') {a : α} (member : a ∈ l) :
    ∃ b ∈ l', R a b := by
  obtain ⟨i, here⟩ := List.getElem?_of_mem member
  obtain ⟨b, there, related⟩ := extended.kept i a here
  exact ⟨b, List.mem_of_getElem? there, related⟩

end Extended

end Bob.Math

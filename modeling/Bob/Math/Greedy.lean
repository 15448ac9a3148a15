/-
# Greedy placement

Things are placed one after the other. Each goes to a bin that somebody else chooses, and
there to a slot that is still free, if there is one. Then no slot is used twice just
when no bin is chosen more often than it has slots, whatever the order of the choices
and whichever of the free slots is taken.

A second fact is about the choice: the first of the least elements, under a renaming of
what it is chosen from.

The last part is about rounds in which each bin is taken at most once, and always one
that was taken least often so far. Then the numbers of times that two bins were taken
never differ by more than one, in the middle of a round too.
-/

import Bob.Math.Trace
import Mathlib.Data.List.MinMax
import Mathlib.Data.List.Perm.Subperm

namespace Bob.Math

/-! ## Slots of bins -/

section Slots

variable {β σ : Type*} {slots : β → List σ} {trace : List (β × σ)}

/-- A placement goes to a slot of its bin, and to a used one only if all are used. -/
def TakesFree (slots : β → List σ) (before : List (β × σ)) (entry : β × σ) : Prop :=
  entry.2 ∈ slots entry.1 ∧
    (entry.2 ∈ before.map Prod.snd → ∀ slot ∈ slots entry.1, slot ∈ before.map Prod.snd)

theorem mem_slots_of_guarded (greedy : Guarded (TakesFree slots) trace) {entry : β × σ}
    (member : entry ∈ trace) : entry.2 ∈ slots entry.1 := by
  obtain ⟨before, after, split⟩ := List.append_of_mem member
  exact (greedy before entry after split).1

variable [DecidableEq β]

/-- The slots that the placements in one bin use. -/
def slotsUsed (trace : List (β × σ)) (bin : β) : List σ :=
  (trace.filter fun entry => entry.1 = bin).map Prod.snd

theorem length_slotsUsed (bin : β) :
    (slotsUsed trace bin).length = (trace.map Prod.fst).count bin := by
  rw [slotsUsed, List.length_map, ← List.countP_eq_length_filter, List.count, List.countP_map]
  rfl

theorem slotsUsed_subset (greedy : Guarded (TakesFree slots) trace) (bin : β) :
    slotsUsed trace bin ⊆ slots bin := by
  intro slot used
  obtain ⟨entry, member, rfl⟩ := List.mem_map.mp used
  obtain ⟨listed, same⟩ := List.mem_filter.mp member
  have here := mem_slots_of_guarded greedy listed
  rwa [of_decide_eq_true same] at here

theorem slotsUsed_sublist (bin : β) : (slotsUsed trace bin).Sublist (trace.map Prod.snd) :=
  List.filter_sublist.map _

/-- A used slot of a bin was used by a placement in that bin. -/
theorem mem_slotsUsed_of_mem (disjoint : ∀ b c slot, slot ∈ slots b → slot ∈ slots c → b = c)
    (greedy : Guarded (TakesFree slots) trace) {bin : β} {slot : σ} (listed : slot ∈ slots bin)
    (used : slot ∈ trace.map Prod.snd) : slot ∈ slotsUsed trace bin := by
  obtain ⟨entry, member, rfl⟩ := List.mem_map.mp used
  have same := disjoint entry.1 bin entry.2 (mem_slots_of_guarded greedy member) listed
  exact List.mem_map_of_mem (List.mem_filter.mpr ⟨member, decide_eq_true same⟩)

theorem nodup_snd_iff_count_le (distinct : ∀ bin, (slots bin).Nodup)
    (disjoint : ∀ b c slot, slot ∈ slots b → slot ∈ slots c → b = c)
    (greedy : Guarded (TakesFree slots) trace) :
    (trace.map Prod.snd).Nodup ↔
      ∀ bin, (trace.map Prod.fst).count bin ≤ (slots bin).length := by
  constructor
  · intro nodup bin
    rw [← length_slotsUsed]
    exact (List.subperm_of_subset (nodup.sublist (slotsUsed_sublist bin))
      (slotsUsed_subset greedy bin)).length_le
  · -- along the trace: the last placement is the first that could use a slot again
    induction trace using List.reverseRecOn with
    | nil => simp
    | append_singleton trace entry ih =>
      intro counts
      obtain ⟨old, last⟩ := Guarded.append_iff.mp greedy
      have earlier : ∀ bin, (trace.map Prod.fst).count bin ≤ (slots bin).length := by
        intro bin
        refine le_trans ?_ (counts bin)
        rw [List.map_append, List.count_append]
        exact Nat.le_add_right _ _
      have takes : TakesFree slots (trace ++ []) entry := last [] entry [] rfl
      rw [List.append_nil] at takes
      rw [List.map_append, List.map_singleton, List.nodup_append]
      refine ⟨ih old earlier, List.pairwise_singleton _ _, ?_⟩
      rintro slot used other here rfl
      rw [List.mem_singleton.mp here] at used
      -- all slots of the bin are used, so it was chosen often enough before
      have full : (slots entry.1).length ≤ (trace.map Prod.fst).count entry.1 := by
        rw [← length_slotsUsed]
        exact (List.subperm_of_subset (distinct entry.1) fun slot listed =>
          mem_slotsUsed_of_mem disjoint old listed (takes.2 used slot listed)).length_le
      have bound := counts entry.1
      simp only [List.map_append, List.map_singleton, List.count_append,
        List.count_singleton_self] at bound
      omega

end Slots

/-! ## The first of the least -/

theorem argmin_map {α β γ : Type*} [LinearOrder γ] (f : β → γ) (g : α → β) (l : List α) :
    (l.map g).argmin f = (l.argmin (f ∘ g)).map g := by
  induction l using List.reverseRecOn with
  | nil => rfl
  | append_singleton l a ih =>
    rw [List.map_append, List.map_singleton, List.argmin_concat, List.argmin_concat, ih]
    cases l.argmin (f ∘ g) with
    | none => rfl
    | some b =>
      simp only [Option.map_some, Function.comp_apply]
      split <;> rfl

/-- A scan that replaces what it has by a smaller item finds the first of the least below
the bound. -/
theorem foldl_lt_eq_argmin {α : Type*} (key : α → ℕ) (bound : ℕ) (items : List α) :
    items.foldl (fun best item => if key item < (best.map key).getD bound then some item else best)
      none = (items.filter fun item => key item < bound).argmin key := by
  induction items using List.reverseRecOn with
  | nil => rfl
  | append_singleton items item ih =>
    rw [List.foldl_append, List.foldl_cons, List.foldl_nil, ih, List.filter_append]
    by_cases below : key item < bound
    · rw [List.filter_singleton, decide_eq_true below, cond_true, List.argmin_concat]
      cases (items.filter fun item => key item < bound).argmin key with
      | none => exact if_pos below
      | some best => rfl
    · rw [List.filter_singleton, decide_eq_false below, cond_false, List.append_nil]
      -- what was found is below the bound, so the item is not smaller
      cases found : (items.filter fun item => key item < bound).argmin key with
      | none => exact if_neg below
      | some best =>
        have small := (List.mem_filter.mp (List.argmin_mem found)).2
        rw [decide_eq_true_eq] at small
        exact if_neg fun less => below (less.trans small)

/-! ## Even filling -/

section Filling

variable {β : Type*} {bins : List β} {count count' : β → ℕ} {used used' : β → Prop}

/-- All counts are on a level or one above it. In a round the bins on the level are taken
first, so either all used bins are above it, or all others are still on it. -/
structure OnLevel (bins : List β) (count : β → ℕ) (used : β → Prop) (level : ℕ) : Prop where
  low : ∀ bin ∈ bins, level ≤ count bin
  high : ∀ bin ∈ bins, count bin ≤ level + 1
  phase : (∀ bin ∈ bins, used bin → count bin = level + 1) ∨
    ∀ bin ∈ bins, ¬ used bin → count bin = level

/-- The bins are filled evenly, when some of them were used in this round. -/
def EvenlyFilled (bins : List β) (count : β → ℕ) (used : β → Prop) : Prop :=
  ∃ level, OnLevel bins count used level

namespace EvenlyFilled

theorem zero (none : ∀ bin ∈ bins, count bin = 0) : EvenlyFilled bins count used :=
  ⟨0, fun _ _ => Nat.zero_le _, fun bin hbin => by simp [none bin hbin],
    .inr fun bin hbin _ => none bin hbin⟩

theorem le_add_one (even : EvenlyFilled bins count used) {a b : β} (ha : a ∈ bins) (hb : b ∈ bins) :
    count a ≤ count b + 1 := by
  obtain ⟨level, on⟩ := even
  exact (on.high a ha).trans (Nat.succ_le_succ (on.low b hb))

/-- A new round begins. -/
theorem restart (even : EvenlyFilled bins count used) (unused : ∀ bin ∈ bins, ¬ used' bin) :
    EvenlyFilled bins count used' := by
  obtain ⟨level, on⟩ := even
  exact ⟨level, on.low, on.high, .inl fun bin hbin now => absurd now (unused bin hbin)⟩

/-- A bin is taken, one with the least count of those that are not used. -/
theorem take (even : EvenlyFilled bins count used) {taken : β} (member : taken ∈ bins)
    (fresh : ¬ used taken) (least : ∀ bin ∈ bins, ¬ used bin → count taken ≤ count bin)
    (one : count' taken = count taken + 1)
    (others : ∀ bin ∈ bins, bin ≠ taken → count' bin = count bin)
    (now : ∀ bin ∈ bins, used' bin ↔ bin = taken ∨ used bin) : EvenlyFilled bins count' used' := by
  obtain ⟨level, on⟩ := even
  have grown {bin : β} (hbin : bin ∈ bins) :
      bin = taken ∧ count' bin = count taken + 1 ∨ bin ≠ taken ∧ count' bin = count bin := by
    by_cases same : bin = taken
    · exact .inl ⟨same, same ▸ one⟩
    · exact .inr ⟨same, others bin hbin same⟩
  have stays {bin : β} (hbin : bin ∈ bins) (unused : ¬ used' bin) :
      bin ≠ taken ∧ ¬ used bin := not_or.mp (mt (now bin hbin).mpr unused)
  by_cases lowest : count taken = level
  · refine ⟨level, fun bin hbin => ?_, fun bin hbin => ?_, on.phase.imp ?_ ?_⟩
    · have := on.low bin hbin
      rcases grown hbin with ⟨-, eq⟩ | ⟨-, eq⟩ <;> omega
    · have := on.high bin hbin
      rcases grown hbin with ⟨-, eq⟩ | ⟨-, eq⟩ <;> omega
    · intro above bin hbin usedNow
      rcases grown hbin with ⟨-, eq⟩ | ⟨differs, eq⟩
      · omega
      · rw [eq]
        exact above bin hbin (((now bin hbin).mp usedNow).resolve_left differs)
    · intro below bin hbin unused
      obtain ⟨differs, free⟩ := stays hbin unused
      rw [others bin hbin differs]
      exact below bin hbin free
  · -- no bin is left on the level: the used ones are above, the others not below the taken one
    have raised : count taken = level + 1 := by
      have := on.low taken member
      have := on.high taken member
      omega
    have above := on.phase.resolve_right fun below => lowest (below taken member fresh)
    have full {bin : β} (hbin : bin ∈ bins) : count bin = level + 1 := by
      by_cases usedBefore : used bin
      · exact above bin hbin usedBefore
      · have := least bin hbin usedBefore
        have := on.high bin hbin
        omega
    refine ⟨level + 1, fun bin hbin => ?_, fun bin hbin => ?_, .inr fun bin hbin unused => ?_⟩
    · have := full hbin
      rcases grown hbin with ⟨-, eq⟩ | ⟨-, eq⟩ <;> omega
    · have := full hbin
      rcases grown hbin with ⟨-, eq⟩ | ⟨-, eq⟩ <;> omega
    · rw [others bin hbin (stays hbin unused).1, full hbin]

end EvenlyFilled

end Filling

end Bob.Math

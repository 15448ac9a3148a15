/-
# A batch filed under labels

The items of a batch are sorted by label, so that one question is asked for all items under
a label. A group keeps its items and the positions they come from as two lists. What else
it keeps does not matter here: the two lists are seen through a function. Filing enters
each position under the labels of its item, and the answers for a group are written back
to the positions of the batch.
-/

import Bob.Math.Dict
import Bob.Math.Scatter

namespace Bob.Math

variable {ε κ α β : Type} [DecidableEq κ]

/-- The items of a group and their positions, with one more at the end. -/
def pushItem (item : α) (ind : ℕ) : Option (List α × List ℕ) → List α × List ℕ
  | some (items, indexes) => (items ++ [item], indexes ++ [ind])
  | none => ([item], [ind])

/-- A position is filed under a label. -/
def FiledUnder (view : β → List α × List ℕ) (groups : Dict κ β) (label : κ) (i : ℕ) : Prop :=
  ∃ group, groups.lookup label = some group ∧ i ∈ (view group).2

/-- The items of a group are those at its positions. -/
def Aligned (view : β → List α × List ℕ) (batch : List α) (groups : Dict κ β) : Prop :=
  ∀ label group, groups.lookup label = some group →
    (view group).2.map (batch[·]?) = (view group).1.map some

section Filing

variable {view : β → List α × List ℕ} {batch : List α} {groups : Dict κ β} {group : β}
  {label : κ} {item : α} {ind : ℕ}

theorem not_filedUnder_empty {i : ℕ} : ¬ FiledUnder view (∅ : Dict κ β) label i := by
  simp [FiledUnder]

theorem aligned_empty : Aligned view batch (∅ : Dict κ β) := by
  intro label group found
  simp at found

theorem filedUnder_insert (pushed : view group = pushItem item ind ((groups.lookup label).map view))
    {other : κ} {i : ℕ} :
    FiledUnder view (groups.insert label group) other i ↔
      FiledUnder view groups other i ∨ other = label ∧ i = ind := by
  unfold FiledUnder
  by_cases same : other = label
  · subst same
    simp only [AList.lookup_insert, Option.some.injEq, exists_eq_left', pushed]
    cases groups.lookup other <;> simp [pushItem]
  · rw [AList.lookup_insert_ne same]
    simp [same]

theorem Aligned.insert (aligned : Aligned view batch groups) (here : batch[ind]? = some item)
    (pushed : view group = pushItem item ind ((groups.lookup label).map view)) :
    Aligned view batch (groups.insert label group) := by
  intro other entry found
  by_cases same : other = label
  · subst same
    rw [AList.lookup_insert] at found
    cases found
    rw [pushed]
    cases before : groups.lookup other with
    | none => simp [pushItem, here]
    | some entry => simp [pushItem, here, aligned other entry before]
  · rw [AList.lookup_insert_ne same] at found
    exact aligned other entry found

/-- A position that is filed is one of the batch. -/
theorem Aligned.lt_length (aligned : Aligned view batch groups)
    (found : groups.lookup label = some group) {i : ℕ} (filed : i ∈ (view group).2) :
    i < batch.length := by
  have listed : batch[i]? ∈ (view group).1.map some :=
    aligned label group found ▸ List.mem_map_of_mem filed
  obtain ⟨item, -, here⟩ := List.mem_map.mp listed
  exact (List.getElem?_eq_some_iff.mp here.symm).1

/-- If each turn of the loop files the position of its item under the labels of the item,
then the loop files each position of the batch under the labels of its item. -/
theorem exists_foldlM_filed {step : Dict κ β → α × ℕ → Except ε (Dict κ β)}
    {Inv : Dict κ β → Prop} {labels : α → κ → Prop} (start : Inv ∅)
    (turn : ∀ groups item ind, Inv groups → batch[ind]? = some item →
      ∃ groups', step groups (item, ind) = .ok groups' ∧ Inv groups' ∧
        ∀ label i, FiledUnder view groups' label i ↔
          FiledUnder view groups label i ∨ labels item label ∧ i = ind) :
    ∃ groups, batch.zipIdx.foldlM step ∅ = .ok groups ∧ Inv groups ∧
      ∀ label i, FiledUnder view groups label i ↔ ∃ item, batch[i]? = some item ∧
        labels item label := by
  -- the items that are left, from what has been filed so far
  have loop (items : List (α × ℕ)) (groups : Dict κ β) (inv : Inv groups)
      (within : ∀ item ∈ items, batch[item.2]? = some item.1) :
      ∃ groups', items.foldlM step groups = .ok groups' ∧ Inv groups' ∧
        ∀ label i, FiledUnder view groups' label i ↔ FiledUnder view groups label i ∨
          ∃ item ∈ items, labels item.1 label ∧ i = item.2 := by
    induction items generalizing groups with
    | nil => exact ⟨groups, rfl, inv, by simp⟩
    | cons first rest ih =>
      obtain ⟨next, stepped, inv', filed⟩ :=
        turn groups first.1 first.2 inv (within first List.mem_cons_self)
      obtain ⟨last, ran, inv'', filed'⟩ := ih next inv' fun item member =>
        within item (List.mem_cons_of_mem _ member)
      refine ⟨last, ?_, inv'', fun label i => ?_⟩
      · rw [List.foldlM_cons]
        exact bind_eq_ok_iff.mpr ⟨next, stepped, ran⟩
      · rw [filed', filed, List.exists_mem_cons_iff, or_assoc]
  obtain ⟨groups, ran, inv, filed⟩ := loop batch.zipIdx ∅ start fun item member =>
    List.mem_zipIdx_iff_getElem?.mp member
  refine ⟨groups, ran, inv, fun label i => ?_⟩
  rw [filed, or_iff_right not_filedUnder_empty]
  constructor
  · rintro ⟨item, member, labelled, rfl⟩
    exact ⟨item.1, List.mem_zipIdx_iff_getElem?.mp member, labelled⟩
  · rintro ⟨item, here, labelled⟩
    exact ⟨(item, i), List.mem_zipIdx_iff_getElem?.mpr here, labelled, rfl⟩

end Filing

/-! ## Writing answers back -/

/-- The answers for the items of a group, as they are met at a position of the batch. -/
theorem any_zip_of_aligned {batch items : List α} {indexes : List ℕ}
    (aligned : indexes.map (batch[·]?) = items.map some) {has : α → Bool} {i : ℕ} :
    (indexes.zip (items.map has)).any (fun answer => decide (answer.1 = i) && answer.2) =
      (decide (i ∈ indexes) && batch[i]?.any has) := by
  have listed : items.map has = indexes.map fun i => batch[i]?.any has := by
    have both := congrArg (List.map fun found : Option α => found.any has) aligned
    simp only [List.map_map, Function.comp_def, Option.any_some] at both
    exact both.symm
  rw [listed, any_zip_map]

/-- An answer for each item of a group goes to the positions of the group. -/
theorem scatterOr_of_aligned {batch items : List α} {indexes : List ℕ}
    (aligned : indexes.map (batch[·]?) = items.map some) {n : ℕ} {flag : ℕ → Bool}
    {has : α → Bool} :
    scatterOr (flags n flag) (indexes.zip (items.map has)) =
      flags n fun i => flag i || (decide (i ∈ indexes) && batch[i]?.any has) := by
  rw [scatterOr_flags]
  exact flags_congr fun i _ => by rw [any_zip_of_aligned aligned]

/-- Flags for the positions of a batch are flags for its items. -/
theorem flags_eq_map {batch : List α} {flag : ℕ → Bool} {has : α → Bool}
    (same : ∀ i item, batch[i]? = some item → flag i = has item) :
    flags batch.length flag = batch.map has := by
  apply List.ext_getElem?
  intro i
  rw [List.getElem?_map]
  by_cases below : i < batch.length
  · rw [getElem?_flags below, List.getElem?_eq_getElem below, Option.map_some,
      same i _ (List.getElem?_eq_getElem below)]
  · simp [flags, below]

end Bob.Math

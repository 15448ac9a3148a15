/-
# Dictionaries built by a loop

A dictionary is an association list with distinct keys; the order of its entries
stands for the order in which an iteration meets them. Three loops recur: insert
one entry per item, rebuild a dictionary entry by entry, and count occurrences.
Each is characterised by what a lookup in its result returns.
-/

import Mathlib.Data.List.AList
import Mathlib.Algebra.BigOperators.Group.List.Lemmas
import Mathlib.Algebra.GroupWithZero.Nat
import Bob.Math.Sequencing

namespace Bob.Math

universe u

variable {ε α : Type*} {κ β γ : Type u}

/-- A finite map from `κ` to `β`, listed in some order. -/
abbrev Dict (κ β : Type*) := AList fun _ : κ => β

namespace Dict

/-- The stored values, in the order of the entries. -/
def values {κ β : Type*} (dict : Dict κ β) : List β := dict.entries.map (·.snd)

/-- The number of entries. -/
def size {κ β : Type*} (dict : Dict κ β) : ℕ := dict.entries.length

section Lookup

variable [DecidableEq κ]

theorem mem_keys_iff {β : Type*} {dict : Dict κ β} {key : κ} :
    key ∈ dict.keys ↔ ∃ value, dict.lookup key = some value := by
  rw [← AList.mem_keys, ← AList.lookup_isSome, Option.isSome_iff_exists]

theorem mem_entries_iff {β : Type*} {dict : Dict κ β} {key : κ} {value : β} :
    (⟨key, value⟩ : Sigma fun _ : κ => β) ∈ dict.entries ↔ dict.lookup key = some value := by
  rw [← AList.mem_lookup_iff, Option.mem_def]

end Lookup

theorem size_eq_of_keys_iff {β : Type*} {dict : Dict κ β} {keys : List κ} (distinct : keys.Nodup)
    (same : ∀ key, key ∈ dict.keys ↔ key ∈ keys) : dict.size = keys.length := by
  have perm : dict.keys.Perm keys := (List.perm_ext_iff_of_nodup dict.keys_nodup distinct).mpr same
  simpa [size, AList.keys, List.keys] using perm.length_eq

variable [DecidableEq κ]

/-- The values of a dictionary whose lookups are known. -/
theorem values_perm_map {β : Type*} {dict : Dict κ β} {keys : List κ} {f : κ → β}
    (distinct : keys.Nodup)
    (lookup : ∀ key, dict.lookup key = if key ∈ keys then some (f key) else none) :
    dict.values.Perm (keys.map f) := by
  have same : dict.keys.Perm keys := by
    refine (List.perm_ext_iff_of_nodup dict.keys_nodup distinct).mpr fun key => ?_
    rw [mem_keys_iff, lookup]
    split_ifs with listed <;> simp [listed]
  have values : dict.values = dict.keys.map f := by
    rw [Dict.values, AList.keys, List.keys, List.map_map]
    refine List.map_congr_left fun entry member => ?_
    have found := mem_entries_iff.mp member
    rw [lookup] at found
    split_ifs at found
    exact (Option.some.inj found).symm
  rw [values]
  exact same.map f

/-! ## One entry per item -/

/-- Inserting one computed entry per item succeeds when every computation does.
Each item's key then holds its value, and no other key changed. -/
theorem exists_foldlM_insert {key : α → κ} {f : α → Except ε β} {items : List α}
    (distinct : (items.map key).Nodup) (succeeds : ∀ item ∈ items, ∃ value, f item = .ok value)
    (start : Dict κ β) :
    ∃ dict : Dict κ β,
      items.foldlM (fun acc item => do
        let value ← f item
        pure (acc.insert (key item) value)) start = .ok dict ∧
      (∀ item ∈ items, ∀ value, f item = .ok value → dict.lookup (key item) = some value) ∧
      ∀ k, k ∉ items.map key → dict.lookup k = start.lookup k := by
  induction items generalizing start with
  | nil => exact ⟨start, rfl, by simp, fun _ _ => rfl⟩
  | cons item rest ih =>
    obtain ⟨value, hvalue⟩ := succeeds item (by simp)
    obtain ⟨fresh, distinctRest⟩ := List.nodup_cons.mp distinct
    obtain ⟨dict, built, entered, untouched⟩ := ih distinctRest
      (fun other hother => succeeds other (by simp [hother])) (start.insert (key item) value)
    refine ⟨dict, ?_, fun other hother result hresult => ?_, fun k hk => ?_⟩
    · rw [List.foldlM_cons, hvalue]
      exact built
    · rcases List.mem_cons.mp hother with rfl | hrest
      · rw [untouched _ fresh, AList.lookup_insert, ← hresult.symm.trans hvalue |> Except.ok.inj]
      · exact entered other hrest result hresult
    · obtain ⟨hne, hrest⟩ := not_or.mp (List.mem_cons.not.mp hk)
      rw [untouched k hrest, AList.lookup_insert_ne hne]

/-! ## Rebuilding entry by entry -/

private theorem lookup_foldl_insert {f : κ → β → γ} {entries : List (Sigma fun _ : κ => β)}
    (distinct : entries.NodupKeys) (start : Dict κ γ) (k : κ) :
    (entries.foldl (fun (acc : Dict κ γ) entry => acc.insert entry.1 (f entry.1 entry.2))
      start).lookup k = ((entries.dlookup k).map (f k)).or (start.lookup k) := by
  induction entries generalizing start with
  | nil => simp
  | cons entry rest ih =>
    obtain ⟨key, value⟩ := entry
    obtain ⟨fresh, distinctRest⟩ := List.nodupKeys_cons.mp distinct
    rw [List.foldl_cons, ih distinctRest]
    by_cases same : k = key
    · subst same
      rw [List.dlookup_eq_none.mpr fresh, List.dlookup_cons_eq, AList.lookup_insert]
      rfl
    · rw [List.dlookup_cons_ne _ _ same, AList.lookup_insert_ne same]

/-- The dictionary that `f` makes of each entry, inserted in iteration order. -/
def mapEntries (f : κ → β → γ) (dict : Dict κ β) : Dict κ γ :=
  dict.entries.foldl (fun acc entry => acc.insert entry.1 (f entry.1 entry.2)) ∅

@[simp] theorem lookup_mapEntries {f : κ → β → γ} {dict : Dict κ β} {key : κ} :
    (dict.mapEntries f).lookup key = (dict.lookup key).map (f key) := by
  rw [mapEntries, lookup_foldl_insert dict.nodupKeys]
  simp [AList.lookup]

/-! ## Counting -/

/-- Count one more occurrence of `key`. -/
def increment (dict : Dict κ ℕ) (key : κ) : Dict κ ℕ :=
  dict.insert key (match dict.lookup key with
    | some count => count + 1
    | none => 1)

/-- How often each item occurs. -/
def tally (items : List κ) : Dict κ ℕ := items.foldl increment ∅

private theorem lookup_foldl_increment {items : List κ} {start : Dict κ ℕ} {key : κ} :
    (items.foldl increment start).lookup key =
      if key ∈ items then some ((start.lookup key).getD 0 + items.count key)
      else start.lookup key := by
  induction items generalizing start with
  | nil => simp
  | cons item rest ih =>
    rw [List.foldl_cons, ih, increment]
    by_cases same : key = item
    · subst same
      rw [AList.lookup_insert]
      cases start.lookup key <;>
        by_cases again : key ∈ rest <;>
        simp [again, List.count_eq_zero_of_not_mem] <;> omega
    · simp [AList.lookup_insert_ne same, same, List.count_cons_of_ne (Ne.symm same)]

theorem lookup_tally {items : List κ} {key : κ} :
    (tally items).lookup key = if key ∈ items then some (items.count key) else none := by
  rw [tally, lookup_foldl_increment]
  simp

/-- The counts add up to the number of items. -/
theorem sum_values_tally {items : List κ} : (tally items).values.sum = items.length := by
  have perm : (tally items).values.Perm (items.dedup.map items.count) := by
    refine values_perm_map items.nodup_dedup fun key => ?_
    simp only [lookup_tally, List.mem_dedup]
  rw [perm.sum_eq]
  exact List.sum_map_count_dedup_eq_length items

end Dict

end Bob.Math

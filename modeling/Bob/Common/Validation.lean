/-
# Validation helpers

Two helpers carry every configuration check: one runs a check over a list and
joins the failures, the other rejects the first repeated item. Both succeed
exactly when the obvious statement about the whole list holds.
-/

import Bob.Math.Sequencing

namespace Bob.Configs.Validator

variable {α : Type*}

/-- Validate every element; the error joins the messages of all failures. -/
def aggregate (validate : α → Except String Unit) (elements : List α) : Except String Unit :=
  let options := elements.filterMap fun elem =>
    match validate elem with
    | .ok _ => none
    | .error e => some e
  if options.isEmpty then .ok () else .error ("\n".intercalate options)

theorem aggregate_eq_ok_iff {validate : α → Except String Unit} {elements : List α} :
    aggregate validate elements = .ok () ↔ ∀ elem ∈ elements, validate elem = .ok () := by
  have failures : (elements.filterMap fun elem =>
      match validate elem with
      | .ok _ => none
      | .error e => some e) = [] ↔ ∀ elem ∈ elements, validate elem = .ok () := by
    rw [List.filterMap_eq_nil_iff]
    refine forall₂_congr fun elem _ => ?_
    cases validate elem <;> simp
  rw [← failures, aggregate]
  split_ifs with h
  · simpa using h
  · simpa using h

/-- Scan for an item already seen. -/
def noDuplicatesFrom [DecidableEq α] (uniq : List α) : List α → Except α Unit
  | [] => .ok ()
  | item :: rest =>
    if item ∈ uniq then .error item else noDuplicatesFrom (item :: uniq) rest

/-- Reject the first item that occurs a second time. -/
def validateNoDuplicates [DecidableEq α] (items : List α) : Except α Unit :=
  noDuplicatesFrom [] items

private theorem noDuplicatesFrom_eq_ok_iff [DecidableEq α] {uniq items : List α} :
    noDuplicatesFrom uniq items = .ok () ↔ items.Nodup ∧ ∀ item ∈ items, item ∉ uniq := by
  induction items generalizing uniq with
  | nil => simp [noDuplicatesFrom]
  | cons item rest ih =>
    rw [noDuplicatesFrom]
    split_ifs with seen
    · simp [seen]
    · rw [ih, List.nodup_cons]
      constructor
      · rintro ⟨distinct, fresh⟩
        refine ⟨⟨fun mem => fresh item mem (by simp), distinct⟩, fun other hother => ?_⟩
        rcases List.mem_cons.mp hother with rfl | hrest
        · exact seen
        · exact fun old => fresh other hrest (by simp [old])
      · rintro ⟨⟨notin, distinct⟩, fresh⟩
        refine ⟨distinct, fun other hother old => ?_⟩
        rcases List.mem_cons.mp old with rfl | hold
        · exact notin hother
        · exact fresh other (by simp [hother]) hold

theorem validateNoDuplicates_eq_ok_iff [DecidableEq α] {items : List α} :
    validateNoDuplicates items = .ok () ↔ items.Nodup := by
  rw [validateNoDuplicates, noDuplicatesFrom_eq_ok_iff]
  simp

end Bob.Configs.Validator

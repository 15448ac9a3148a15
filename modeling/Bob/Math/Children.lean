/-
# Containers that know their children by ids

A container hands out an id for every child that is pushed and goes through its
children in the order of ids. It has filters over them: a key is added to the filters
above a child, and a search for the key leaves out the children whose filters do not
have it. A child may come without a filter, and is then never left out.

How a container does this is not said here. It is given by its operations, and what a
user can rely on are the laws `ChildContainer.Lawful`. They leave open what becomes of
the ids when a child is removed: its id may stay empty, or the later children may move
down by one. A loop that removes children as it goes through the ids meets every child
in the first case only.
-/

import Mathlib.Data.List.Chain
import Mathlib.Data.List.ReduceOption
import Mathlib.Data.Nat.Notation
import Mathlib.Order.Lattice
import Mathlib.Tactic.SplitIfs

namespace Bob.Math

universe u v w x

/-! ## Ids and positions -/

section Ids

variable {α : Type w} {slots : List (Option α)} {position id : ℕ} {child old new : α}

/-- The id of the child at a position of the iteration, which passes over empty ids. -/
def idAt : List (Option α) → ℕ → Option ℕ
  | [], _ => none
  | none :: rest, position => (idAt rest position).map (· + 1)
  | some _ :: _, 0 => some 0
  | some _ :: rest, position + 1 => (idAt rest position).map (· + 1)

theorem exists_idAt_iff : (∃ id, idAt slots position = some id ∧ slots[id]? = some (some child)) ↔
    slots.reduceOption[position]? = some child := by
  fun_induction idAt slots position with
  | case1 => simp
  | case2 rest position ih => simpa [List.reduceOption_cons_of_none] using ih
  | case3 first rest => simp [List.reduceOption_cons_of_some]
  | case4 first rest position ih => simpa [List.reduceOption_cons_of_some] using ih

theorem exists_of_idAt (named : idAt slots position = some id) :
    ∃ child, slots[id]? = some (some child) := by
  fun_induction idAt slots position generalizing id with
  | case1 => cases named
  | case2 rest position ih | case4 first rest position ih =>
    obtain ⟨id, later, rfl⟩ := Option.map_eq_some_iff.mp named
    exact ih later
  | case3 first rest =>
    cases named
    exact ⟨first, rfl⟩

theorem le_of_idAt (named : idAt slots position = some id) : position ≤ id := by
  fun_induction idAt slots position generalizing id with
  | case1 => cases named
  | case2 rest position ih =>
    obtain ⟨id, later, rfl⟩ := Option.map_eq_some_iff.mp named
    exact (ih later).trans (Nat.le_succ id)
  | case3 first rest => exact Nat.zero_le id
  | case4 first rest position ih =>
    obtain ⟨id, later, rfl⟩ := Option.map_eq_some_iff.mp named
    exact Nat.succ_le_succ (ih later)

/-- A position is the id of the child there exactly if no id up to it is empty. -/
theorem idAt_eq_self_iff (inside : slots.reduceOption[position]? = some child) :
    idAt slots position = some position ↔
      ∀ id ≤ position, (slots[id]?.join).isSome = true := by
  fun_induction idAt slots position with
  | case1 => simp at inside
  | case2 rest position ih =>
    refine iff_of_false (fun named => ?_) fun all => ?_
    · obtain ⟨id, later, rfl⟩ := Option.map_eq_some_iff.mp named
      exact absurd (le_of_idAt later) (by omega)
    · simpa using all 0 (Nat.zero_le _)
  | case3 first rest => simp
  | case4 first rest position ih =>
    rw [List.reduceOption_cons_of_some, List.getElem?_cons_succ] at inside
    have shifted : (idAt rest position).map (· + 1) = some (position + 1) ↔
        idAt rest position = some position := by
      simp [Option.map_eq_some_iff]
    rw [shifted, ih inside]
    constructor
    · rintro all (_ | id) le
      · rfl
      · exact all id (Nat.le_of_succ_le_succ le)
    · exact fun all id le => all (id + 1) (Nat.succ_le_succ le)

/-- The child that comes last has the next id. -/
theorem idAt_concat (slots : List (Option α)) (child : α) :
    idAt (slots ++ [some child]) slots.reduceOption.length = some slots.length := by
  induction slots with
  | nil => rfl
  | cons first rest ih =>
    cases first with
    | none => simp [idAt, ih, List.reduceOption_cons_of_none]
    | some first => simp [idAt, ih, List.reduceOption_cons_of_some]

theorem idAt_set (here : slots[id]? = some (some old)) :
    idAt (slots.set id (some new)) position = idAt slots position := by
  fun_induction idAt slots position generalizing id with
  | case1 => cases here
  | case2 rest position ih =>
    cases id with
    | zero => cases here
    | succ id => rw [List.set_cons_succ, idAt, ih here]
  | case3 first rest => cases id <;> rfl
  | case4 first rest position ih =>
    cases id with
    | zero => rfl
    | succ id => rw [List.set_cons_succ, idAt, ih here]

/-- A child that changes does so at its position. -/
theorem reduceOption_set (named : idAt slots position = some id) :
    (slots.set id (some new)).reduceOption = slots.reduceOption.set position new := by
  fun_induction idAt slots position generalizing id with
  | case1 => cases named
  | case2 rest position ih =>
    obtain ⟨id, later, rfl⟩ := Option.map_eq_some_iff.mp named
    simpa [List.reduceOption_cons_of_none] using ih later
  | case3 first rest =>
    cases named
    simp [List.reduceOption_cons_of_some]
  | case4 first rest position ih =>
    obtain ⟨id, later, rfl⟩ := Option.map_eq_some_iff.mp named
    simpa [List.reduceOption_cons_of_some] using ih later

end Ids

/-! ## Removals -/

/-- What removing a child does to the ids of the others. -/
inductive Removal
  | leavesHole
  | shiftsDown
  deriving DecidableEq, Repr

namespace Removal

variable {α : Type w}

/-- The children by their ids when the one with an id is removed. -/
def slots : Removal → List (Option α) → ℕ → List (Option α)
  | leavesHole, slots, id => slots.set id none
  | shiftsDown, slots, id => slots.eraseIdx id

/-- The id before a removal of the child that has an id after it. -/
def former : Removal → ℕ → ℕ → ℕ
  | leavesHole, _, id => id
  | shiftsDown, removed, id => if id < removed then id else id + 1

/-- The children that stay were there before. -/
theorem getElem?_former {removal : Removal} {slots : List (Option α)} {removed id : ℕ} {child : α}
    (here : (removal.slots slots removed)[id]? = some (some child)) :
    slots[removal.former removed id]? = some (some child) := by
  cases removal with
  | leavesHole =>
    rw [Removal.slots, List.getElem?_set] at here
    split_ifs at here
    · cases here
    · exact here
  | shiftsDown =>
    rw [Removal.slots, List.getElem?_eraseIdx] at here
    rw [former]
    split_ifs at here ⊢ <;> exact here

theorem reduceOption_slots_sublist (removal : Removal) (slots : List (Option α)) (id : ℕ) :
    (removal.slots slots id).reduceOption.Sublist slots.reduceOption := by
  cases removal with
  | leavesHole =>
    induction slots generalizing id with
    | nil => exact .refl _
    | cons first rest ih =>
      cases id with
      | zero =>
        rw [Removal.slots, List.set_cons_zero, List.reduceOption_cons_of_none]
        exact (List.sublist_cons_self first rest).filterMap _
      | succ id =>
        have later := ih id
        rw [Removal.slots] at later ⊢
        cases first with
        | none => simpa [List.reduceOption_cons_of_none] using later
        | some first => simpa [List.reduceOption_cons_of_some] using later
  | shiftsDown => exact List.Sublist.filterMap _ (List.eraseIdx_sublist _ _)

end Removal

/-! ## Containers -/

/-- The operations of a container for children with filters. -/
structure ChildContainer (κ : Type u) (F : Type v) (α : Type w) where
  Carrier : Type x
  /-- An empty container, with a size for the groups of its children. -/
  new : ℕ → Carrier
  /-- The children by their ids. The id of a child that was removed may be empty. -/
  slots : Carrier → List (Option α)
  /-- Add a child with its filter, if it has one. The id of the child is returned. -/
  push : Carrier → α → Option F → ℕ × Carrier
  remove : Carrier → ℕ → Carrier
  /-- The child with an id has changed. -/
  modify : Carrier → ℕ → α → Carrier
  /-- Add a key to the filters above the child with an id. -/
  addToParents : Carrier → ℕ → κ → Carrier
  /-- Whether a search for a key comes to the child with an id. -/
  possible : Carrier → κ → ℕ → Bool

namespace ChildContainer

variable {κ : Type u} {F : Type v} {α : Type w} (C : ChildContainer.{u, v, w, x} κ F α)

/-- One more than the largest id. -/
def len (c : C.Carrier) : ℕ := (C.slots c).length

def getChild (c : C.Carrier) (id : ℕ) : Option α := (C.slots c)[id]?.join

/-- The children, in the order of their ids. -/
def iter (c : C.Carrier) : List α := (C.slots c).reduceOption

/-- The id of the child at a position of `iter`. -/
def idAt (c : C.Carrier) (position : ℕ) : Option ℕ := Math.idAt (C.slots c) position

/-- Whether a search for the key comes to the child at a position of `iter`. -/
def possibleAt (c : C.Carrier) (key : κ) (position : ℕ) : Bool :=
  (C.idAt c position).any (C.possible c key)

/-- The child at a position of `iter` has changed. -/
def modifyAt (c : C.Carrier) (position : ℕ) (child : α) : C.Carrier :=
  match C.idAt c position with
  | some id => C.modify c id child
  | none => c

/-- Remove the child with that id if it is to go. -/
def removeIf (goes : α → Bool) (state : List α × C.Carrier) (id : ℕ) : List α × C.Carrier :=
  match C.getChild state.2 id with
  | none => state
  | some child => if goes child then (state.1 ++ [child], C.remove state.2 id) else state

/-- Go through the ids and remove the children that are to go. The number of ids is
taken once, before the loop. -/
def removeWhere (c : C.Carrier) (goes : α → Bool) : List α × C.Carrier :=
  (List.range (C.len c)).foldl (C.removeIf goes) ([], c)

/-- What a user can rely on, of a container that removes children in one of the two ways. The
filters lose no key, and a child without a filter is not left out. -/
structure Lawful (has : F → κ → Bool) (removal : Removal) : Prop where
  slots_new : ∀ size, C.slots (C.new size) = []
  push_fst : ∀ c child filter, (C.push c child filter).1 = C.len c
  slots_push : ∀ c child filter, C.slots (C.push c child filter).2 = C.slots c ++ [some child]
  slots_remove : ∀ c id, (C.getChild c id).isSome →
    C.slots (C.remove c id) = removal.slots (C.slots c) id
  slots_modify : ∀ c id child, (C.getChild c id).isSome →
    C.slots (C.modify c id child) = (C.slots c).set id (some child)
  slots_addToParents : ∀ c id key, C.slots (C.addToParents c id key) = C.slots c
  /-- If children move down, no id is empty. -/
  compact : removal = .shiftsDown → ∀ c, none ∉ C.slots c
  possible_push_new : ∀ c child filter key, (∀ f, filter = some f → has f key = true) →
    C.possible (C.push c child filter).2 key (C.len c) = true
  possible_push : ∀ c child filter key id, (C.getChild c id).isSome →
    C.possible c key id = true → C.possible (C.push c child filter).2 key id = true
  possible_modify : ∀ c id child key other, (C.getChild c id).isSome →
    C.possible c key other = true → C.possible (C.modify c id child) key other = true
  possible_addToParents_new : ∀ c id key, (C.getChild c id).isSome →
    C.possible (C.addToParents c id key) key id = true
  possible_addToParents : ∀ c id added key other,
    C.possible c key other = true → C.possible (C.addToParents c id added) key other = true
  possible_remove : ∀ c removed key id, (C.getChild c removed).isSome →
    C.possible c key (removal.former removed id) = true →
    C.possible (C.remove c removed) key id = true

variable {C} {c : C.Carrier} {has : F → κ → Bool} {removal : Removal} {id position : ℕ}
  {child old new : α} {key : κ} {goes : α → Bool}

theorem getChild_eq_some_iff : C.getChild c id = some child ↔
    (C.slots c)[id]? = some (some child) :=
  Option.join_eq_some_iff

theorem exists_idAt (here : (C.iter c)[position]? = some child) :
    ∃ id, C.idAt c position = some id ∧ C.getChild c id = some child := by
  simp only [getChild_eq_some_iff]
  exact exists_idAt_iff.mpr here

theorem isSome_getChild (named : C.idAt c position = some id) :
    (C.getChild c id).isSome = true := by
  obtain ⟨child, here⟩ := exists_of_idAt named
  rw [getChild_eq_some_iff.mpr here]
  rfl

/-- What removing a child keeps is kept by the loop. -/
theorem removeWhere_induction {P : C.Carrier → Prop} (start : P c)
    (step : ∀ c id, (C.getChild c id).isSome → P c → P (C.remove c id)) :
    P (C.removeWhere c goes).2 := by
  have foldl : ∀ (ids : List ℕ) (state : List α × C.Carrier), P state.2 →
      P (ids.foldl (C.removeIf goes) state).2 := by
    intro ids
    induction ids with
    | nil => exact fun _ holds => holds
    | cons id ids ih =>
      intro state holds
      refine ih _ ?_
      unfold removeIf
      split
      · exact holds
      · rename_i child here
        split_ifs
        · exact step _ id (by rw [here]; rfl) holds
        · exact holds
  exact foldl _ _ start

namespace Lawful

variable (lawful : C.Lawful has removal)

include lawful

/-! ### What the operations do -/

theorem iter_new (size : ℕ) : C.iter (C.new size) = [] := by
  rw [iter, lawful.slots_new]
  rfl

theorem iter_push (c : C.Carrier) (child : α) (filter : Option F) :
    C.iter (C.push c child filter).2 = C.iter c ++ [child] := by
  rw [iter, lawful.slots_push, List.reduceOption_append]
  rfl

theorem iter_addToParents (c : C.Carrier) (id : ℕ) (key : κ) :
    C.iter (C.addToParents c id key) = C.iter c := by
  rw [iter, lawful.slots_addToParents, iter]

theorem iter_modifyAt (c : C.Carrier) (position : ℕ) (child : α) :
    C.iter (C.modifyAt c position child) = (C.iter c).set position child := by
  unfold modifyAt
  split
  · rename_i id named
    rw [iter, lawful.slots_modify c id child (isSome_getChild named), reduceOption_set named, iter]
  · rename_i unnamed
    refine (List.set_eq_of_length_le ?_).symm
    by_contra inside
    obtain ⟨id, named, -⟩ := exists_idAt (List.getElem?_eq_getElem (not_le.mp inside))
    cases unnamed.symm.trans named

theorem idAt_push (c : C.Carrier) (child : α) (filter : Option F) :
    C.idAt (C.push c child filter).2 (C.iter c).length = some (C.push c child filter).1 := by
  rw [idAt, lawful.slots_push, lawful.push_fst]
  exact idAt_concat _ _

theorem idAt_addToParents (c : C.Carrier) (id : ℕ) (key : κ) (position : ℕ) :
    C.idAt (C.addToParents c id key) position = C.idAt c position := by
  rw [idAt, lawful.slots_addToParents, idAt]

theorem idAt_modifyAt (c : C.Carrier) (position : ℕ) (child : α) (other : ℕ) :
    C.idAt (C.modifyAt c position child) other = C.idAt c other := by
  unfold modifyAt
  split
  · rename_i id named
    obtain ⟨old, here⟩ := exists_of_idAt named
    rw [idAt, lawful.slots_modify c id child (isSome_getChild named), idAt_set here, idAt]
  · rfl

theorem iter_removeWhere_sublist : (C.iter (C.removeWhere c goes).2).Sublist (C.iter c) := by
  refine removeWhere_induction (P := fun c' => (C.iter c').Sublist (C.iter c)) (.refl _) ?_
  intro c' id there earlier
  rw [iter, lawful.slots_remove c' id there]
  exact (removal.reduceOption_slots_sublist _ id).trans earlier

end Lawful

/-! ### Removing in a loop -/

section Holes

variable (lawful : C.Lawful has .leavesHole)

include lawful

private theorem slots_removeIf_of_leavesHole (state : List α × C.Carrier) (id : ℕ) :
    C.slots (C.removeIf goes state id).2 =
      (C.slots state.2).modify id (Option.filter (!goes ·)) := by
  refine List.ext_getElem? fun i => ?_
  rw [List.getElem?_modify]
  unfold removeIf
  split
  · rename_i empty
    rw [getChild, Option.join_eq_none_iff] at empty
    split_ifs with same
    · subst same
      rcases empty with outside | hole
      · simp [outside]
      · simp [hole]
    · simp
  · rename_i child here
    have here' := getChild_eq_some_iff.mp here
    split_ifs with gone same same
    · subst same
      have inside := (List.getElem?_eq_some_iff.mp here').1
      rw [lawful.slots_remove _ id (by rw [here]; rfl), Removal.slots,
        List.getElem?_set_self inside, here']
      simp [Option.filter, gone]
    · rw [lawful.slots_remove _ id (by rw [here]; rfl), Removal.slots, List.getElem?_set_ne same]
      simp
    · subst same
      rw [here']
      simp [Option.filter, gone]
    · simp

private theorem slots_foldl_removeIf_of_leavesHole (n : ℕ) (state : List α × C.Carrier) (i : ℕ) :
    (C.slots ((List.range n).foldl (C.removeIf goes) state).2)[i]? =
      if i < n then (C.slots state.2)[i]?.map (Option.filter (!goes ·))
      else (C.slots state.2)[i]? := by
  induction n with
  | zero => rfl
  | succ n ih =>
    rw [List.range_succ, List.foldl_append, List.foldl_cons, List.foldl_nil,
      slots_removeIf_of_leavesHole lawful, List.getElem?_modify, ih]
    rcases Nat.lt_trichotomy i n with lt | rfl | gt
    · simp [lt, lt.ne', Nat.lt_succ_of_lt lt]
    · simp
    · have behind : ¬ i < n + 1 := by omega
      simp [gt.ne, not_lt.mpr gt.le, behind]

/-- With holes the loop meets every child. -/
theorem iter_removeWhere_of_leavesHole :
    C.iter (C.removeWhere c goes).2 = (C.iter c).filter (!goes ·) := by
  have slots : C.slots (C.removeWhere c goes).2 =
      (C.slots c).map (Option.filter (!goes ·)) := by
    refine List.ext_getElem? fun i => ?_
    rw [removeWhere, slots_foldl_removeIf_of_leavesHole lawful, List.getElem?_map]
    split_ifs with inside
    · rfl
    · simp [List.getElem?_eq_none (not_lt.mp inside)]
  rw [iter, slots, iter]
  induction C.slots c with
  | nil => rfl
  | cons first rest ih =>
    cases first with
    | none => simpa [List.reduceOption_cons_of_none] using ih
    | some first =>
      rw [List.map_cons, List.reduceOption_cons_of_some, List.filter_cons, ← ih]
      cases gone : goes first <;> simp [Option.filter, gone, List.reduceOption_cons_of_none,
        List.reduceOption_cons_of_some]

end Holes

/-- What the loop leaves of a list when children move down: it passes over the one
that follows a child that goes. -/
def passOver (goes : α → Bool) : List α → List α
  | [] => []
  | first :: rest =>
    if goes first then
      match rest with
      | [] => []
      | next :: rest => next :: passOver goes rest
    else first :: passOver goes rest

section Shifts

variable (lawful : C.Lawful has .shiftsDown)

include lawful

theorem slots_of_shiftsDown (c : C.Carrier) : C.slots c = (C.iter c).map some := by
  have full := lawful.compact rfl c
  rw [iter]
  generalize C.slots c = slots at full ⊢
  induction slots with
  | nil => rfl
  | cons first rest ih =>
    rw [List.mem_cons, not_or] at full
    cases first with
    | none => exact absurd rfl full.1
    | some first => rw [List.reduceOption_cons_of_some, List.map_cons, ← ih full.2]

/-- Without holes the loop meets the child at the position of the id. -/
private theorem iter_removeIf_of_shiftsDown (goes : α → Bool) {state : List α × C.Carrier}
    {met rest : List α} (here : C.iter state.2 = met ++ child :: rest) :
    C.iter (C.removeIf goes state met.length).2 =
      if goes child then met ++ rest else met ++ child :: rest := by
  have slots := slots_of_shiftsDown lawful state.2
  have found : C.getChild state.2 met.length = some child := by
    rw [getChild_eq_some_iff, slots, here]
    simp
  simp only [removeIf, found]
  split_ifs
  · rw [iter, lawful.slots_remove _ _ (by rw [found]; rfl), slots, here, Removal.slots]
    simp [List.reduceOption, List.eraseIdx_append_of_length_le, List.filterMap_append,
      List.filterMap_map]
  · exact here

/-- Behind the last child the loop does nothing. -/
private theorem foldl_removeIf_behind {state : List α × C.Carrier} {ids : List ℕ}
    (behind : ∀ id ∈ ids, (C.iter state.2).length ≤ id) :
    ids.foldl (C.removeIf goes) state = state := by
  induction ids with
  | nil => rfl
  | cons id ids ih =>
    obtain ⟨first, later⟩ := List.forall_mem_cons.mp behind
    have empty : C.getChild state.2 id = none := by
      rw [getChild, slots_of_shiftsDown lawful, List.getElem?_eq_none (by simpa using first)]
      rfl
    rw [List.foldl_cons, removeIf, empty, ih later]

/-- The rest of the loop, once the children at the first positions have been met. -/
private theorem iter_foldl_removeIf_of_shiftsDown (goes : α → Bool) (rest : List α) :
    ∀ {state : List α × C.Carrier} {met : List α} {n : ℕ},
      C.iter state.2 = met ++ rest → rest.length ≤ n →
      C.iter ((List.range' met.length n).foldl (C.removeIf goes) state).2 =
        met ++ passOver goes rest := by
  -- nothing is left to be met
  have finish : ∀ {state : List α × C.Carrier} {met : List α} {start n : ℕ},
      C.iter state.2 = met → met.length ≤ start →
      C.iter ((List.range' start n).foldl (C.removeIf goes) state).2 = met := by
    intro state met start n here le
    rw [foldl_removeIf_behind lawful fun id hid => ?_, here]
    rw [here]
    exact le.trans (List.mem_range'_1.mp hid).1
  fun_induction passOver goes rest with
  | case1 =>
    intro state met n here _
    rw [List.append_nil] at here ⊢
    exact finish here le_rfl
  | case2 first gone =>
    intro state met n here enough
    obtain ⟨n, rfl⟩ := Nat.exists_eq_add_of_le' enough
    replace here := iter_removeIf_of_shiftsDown lawful goes here
    rw [if_pos gone, List.append_nil] at here
    rw [List.length_singleton, List.range'_succ, List.foldl_cons, List.append_nil]
    exact finish here (Nat.le_succ _)
  | case3 first gone next rest ih =>
    intro state met n here enough
    obtain ⟨n, rfl⟩ := Nat.exists_eq_add_of_le' enough
    replace here := iter_removeIf_of_shiftsDown lawful goes here
    rw [if_pos gone, ← List.singleton_append, ← List.append_assoc] at here
    rw [List.length_cons, ← Nat.add_assoc, List.range'_succ, List.foldl_cons]
    have loop := @ih _ _ (n + (next :: rest).length) here (by rw [List.length_cons]; omega)
    rwa [List.length_append, List.length_singleton, List.append_assoc] at loop
  | case4 first rest stays ih =>
    intro state met n here enough
    obtain ⟨n, rfl⟩ := Nat.exists_eq_add_of_le' enough
    replace here := iter_removeIf_of_shiftsDown lawful goes here
    rw [if_neg stays, ← List.singleton_append, ← List.append_assoc] at here
    rw [List.length_cons, ← Nat.add_assoc, List.range'_succ, List.foldl_cons]
    have loop := @ih _ _ (n + rest.length) here (Nat.le_add_left _ _)
    rwa [List.length_append, List.length_singleton, List.append_assoc] at loop

/-- If children move down, the loop passes over some. -/
theorem iter_removeWhere_of_shiftsDown :
    C.iter (C.removeWhere c goes).2 = passOver goes (C.iter c) := by
  have enough : (C.iter c).length ≤ C.len c := by
    rw [len, slots_of_shiftsDown lawful, List.length_map]
  have loop := @iter_foldl_removeIf_of_shiftsDown _ _ _ _ _ lawful goes (C.iter c) ([], c) [] _
    rfl enough
  rwa [List.nil_append, List.length_nil, ← List.range_eq_range'] at loop

end Shifts

/-- Everything that is to go is gone exactly if no two neighbours were to go. -/
theorem forall_passOver_iff {children : List α} :
    (∀ child ∈ passOver goes children, goes child = false) ↔
      children.IsChain fun a b => ¬ (goes a = true ∧ goes b = true) := by
  fun_induction passOver goes children with
  | case1 => simp
  | case2 first gone => simp
  | case3 first gone next rest ih =>
    rw [List.forall_mem_cons, List.isChain_cons_cons, ih, List.isChain_cons]
    simp only [gone, true_and, Bool.not_eq_true]
    constructor
    · rintro ⟨stays, chain⟩
      exact ⟨stays, by simp [stays], chain⟩
    · rintro ⟨stays, -, chain⟩
      exact ⟨stays, chain⟩
  | case4 first rest stays ih =>
    rw [List.forall_mem_cons, ih, List.isChain_cons]
    simp [stays]

/-! ### Filters that have every key -/

/-- A search for a key comes to every child that has it. -/
def Covered (C : ChildContainer.{u, v, w, x} κ F α) (keys : α → κ → Prop) (c : C.Carrier) : Prop :=
  ∀ id child, C.getChild c id = some child → ∀ key, keys child key → C.possible c key id = true

namespace Covered

variable {keys : α → κ → Prop} (lawful : C.Lawful has removal)

theorem possibleAt (covered : C.Covered keys c) (here : (C.iter c)[position]? = some child)
    (own : keys child key) : C.possibleAt c key position = true := by
  obtain ⟨id, named, found⟩ := exists_idAt here
  rw [ChildContainer.possibleAt, named]
  exact covered id child found key own

include lawful

theorem push {filter : Option F} (covered : C.Covered keys c)
    (own : ∀ key, keys new key → ∀ f, filter = some f → has f key = true) :
    C.Covered keys (C.push c new filter).2 := by
  intro id child here key has
  rw [getChild_eq_some_iff, lawful.slots_push] at here
  rcases Nat.lt_or_ge id (C.slots c).length with lt | ge
  · rw [List.getElem?_append_left lt, ← getChild_eq_some_iff] at here
    exact lawful.possible_push c new filter key id (by rw [here]; rfl)
      (covered id child here key has)
  · obtain rfl : id = (C.slots c).length := by
      have inside := (List.getElem?_eq_some_iff.mp here).1
      rw [List.length_append, List.length_singleton] at inside
      omega
    rw [List.getElem?_concat_length, Option.some.injEq, Option.some.injEq] at here
    subst here
    exact lawful.possible_push_new c new filter key (own key has)

/-- A child changes and gets no new key but one that is added above it. -/
private theorem modify (covered : C.Covered keys c) (found : C.getChild c id = some old)
    {P : κ → Prop} (grows : ∀ key, keys new key → keys old key ∨ P key) :
    ∀ other child, C.getChild (C.modify c id new) other = some child → ∀ key, keys child key →
      C.possible (C.modify c id new) key other = true ∨ other = id ∧ P key := by
  have there : (C.getChild c id).isSome = true := by rw [found]; rfl
  intro other child here key own
  rw [getChild_eq_some_iff, lawful.slots_modify c id new there] at here
  by_cases same : id = other
  · subst same
    have inside := (List.getElem?_eq_some_iff.mp (getChild_eq_some_iff.mp found)).1
    rw [List.getElem?_set_self inside, Option.some.injEq, Option.some.injEq] at here
    subst here
    refine (grows key own).imp (fun had => ?_) fun added => ⟨rfl, added⟩
    exact lawful.possible_modify c id _ key id there (covered id old found key had)
  · rw [List.getElem?_set_ne same, ← getChild_eq_some_iff] at here
    exact .inl (lawful.possible_modify c id new key other there (covered other child here key own))

/-- A change that gives a child no new key. -/
theorem modifyAt (covered : C.Covered keys c) (here : (C.iter c)[position]? = some old)
    (kept : ∀ key, keys new key → keys old key) :
    C.Covered keys (C.modifyAt c position new) := by
  obtain ⟨id, named, found⟩ := exists_idAt here
  simp only [ChildContainer.modifyAt, named]
  intro other child there key own
  refine (covered.modify lawful found (P := fun _ => False) (fun key own => .inl (kept key own))
    other child there key own).resolve_right fun never => never.2

/-- A key is added to a child and to the filters above it, under the id of the child. -/
theorem write (covered : C.Covered keys c) (here : (C.iter c)[position]? = some old)
    (named : C.idAt c position = some id)
    (grows : ∀ other, keys new other → keys old other ∨ other = key) :
    C.Covered keys (C.addToParents (C.modifyAt c position new) id key) := by
  obtain ⟨id', named', found⟩ := exists_idAt here
  cases named.symm.trans named'
  simp only [ChildContainer.modifyAt, named]
  intro other child there added own
  rw [getChild, lawful.slots_addToParents] at there
  rcases covered.modify lawful found grows other child there added own with had | ⟨rfl, rfl⟩
  · exact lawful.possible_addToParents _ id key added other had
  · exact lawful.possible_addToParents_new _ other added (by rw [getChild, there]; rfl)

theorem removeWhere (covered : C.Covered keys c) : C.Covered keys (C.removeWhere c goes).2 := by
  refine removeWhere_induction covered ?_
  intro c removed there covered id child here key own
  rw [getChild_eq_some_iff, lawful.slots_remove c removed there] at here
  refine lawful.possible_remove c removed key id there ?_
  exact covered _ child (getChild_eq_some_iff.mpr (Removal.getElem?_former here)) key own

end Covered

/-! ### A container of either kind -/

/-- A list of children that move down. There are no filters, and all children are searched. -/
def plain (κ : Type u) (F : Type v) (α : Type w) : ChildContainer.{u, v, w, w} κ F α where
  Carrier := List α
  new := fun _ => []
  slots := List.map some
  push := fun c child _ => (c.length, c ++ [child])
  remove := List.eraseIdx
  modify := List.set
  addToParents := fun c _ _ => c
  possible := fun _ _ _ => true

theorem plain_lawful (has : F → κ → Bool) : (plain κ F α).Lawful has .shiftsDown where
  slots_new := fun _ => rfl
  push_fst := fun _ _ _ => (List.length_map _).symm
  slots_push := fun _ _ _ => List.map_append
  slots_remove := by
    intro (c : List α) id _
    change (c.eraseIdx id).map some = (c.map some).eraseIdx id
    simp only [List.eraseIdx_eq_take_drop_succ, List.map_append, List.map_take, List.map_drop]
  slots_modify := fun _ _ _ _ => List.map_set
  slots_addToParents := fun _ _ _ => rfl
  compact := by
    intro _ (c : List α)
    simp [plain]
  possible_push_new := fun _ _ _ _ _ => rfl
  possible_push := fun _ _ _ _ _ _ _ => rfl
  possible_modify := fun _ _ _ _ _ _ _ => rfl
  possible_addToParents_new := fun _ _ _ _ => rfl
  possible_addToParents := fun _ _ _ _ _ _ => rfl
  possible_remove := fun _ _ _ _ _ _ => rfl

/-- Children that keep their ids, in groups of ids with a filter over each group. A child
without a filter takes the filter of its group away. -/
structure Grouped (κ : Type u) (α : Type w) where
  groupSize : ℕ
  slots : List (Option α)
  filters : ℕ → Option (List κ)

/-- Change the filter of the group of an id. -/
def Grouped.update (c : Grouped κ α) (id : ℕ) (f : List κ → Option (List κ)) :
    ℕ → Option (List κ) :=
  fun group => if group = id / c.groupSize then (c.filters group).bind f else c.filters group

def grouped (κ : Type u) (α : Type w) [DecidableEq κ] :
    ChildContainer.{u, u, w, max u w} κ (List κ) α where
  Carrier := Grouped κ α
  new := fun size => ⟨size, [], fun _ => some []⟩
  slots := Grouped.slots
  push := fun c child filter => (c.slots.length,
    { c with
      slots := c.slots ++ [some child]
      filters := c.update c.slots.length fun keys => filter.map (keys ++ ·) })
  remove := fun c id => { c with slots := c.slots.set id none }
  modify := fun c id child => { c with slots := c.slots.set id (some child) }
  addToParents := fun c id key => { c with filters := c.update id fun keys => some (key :: keys) }
  possible := fun c key id => (c.filters (id / c.groupSize)).all (·.contains key)

theorem grouped_lawful [DecidableEq κ] :
    (grouped κ α).Lawful (fun keys key => keys.contains key) .leavesHole where
  slots_new := fun _ => rfl
  push_fst := fun _ _ _ => rfl
  slots_push := fun _ _ _ => rfl
  slots_remove := fun _ _ _ => rfl
  slots_modify := fun _ _ _ _ => rfl
  slots_addToParents := fun _ _ _ => rfl
  compact := nofun
  possible_push_new := by
    intro c child filter key has
    cases filter with
    | none => simp [grouped, Grouped.update, len]
    | some keys =>
      have listed : key ∈ keys := by simpa using has keys rfl
      cases filters : Grouped.filters c ((Grouped.slots c).length / Grouped.groupSize c) <;>
        simp [grouped, Grouped.update, len, filters, listed]
  possible_push := by
    intro c child filter key id _ had
    simp only [grouped, Grouped.update] at had ⊢
    split_ifs
    · cases filter <;> cases filters : Grouped.filters c (id / Grouped.groupSize c) <;>
        simp_all
    · exact had
  possible_modify := fun _ _ _ _ _ _ had => had
  possible_addToParents_new := by
    intro c id key _
    cases filters : Grouped.filters c (id / Grouped.groupSize c) <;>
      simp [grouped, Grouped.update, filters]
  possible_addToParents := by
    intro c id added key other had
    simp only [grouped, Grouped.update] at had ⊢
    split_ifs
    · cases filters : Grouped.filters c (other / Grouped.groupSize c) <;> simp_all
    · exact had
  possible_remove := fun _ _ _ _ _ had => had

end ChildContainer

end Bob.Math

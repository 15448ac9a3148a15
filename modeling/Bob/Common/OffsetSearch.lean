/-
# The search for an offset ends

Each pass of the search asks the nodes anew whether they are connected. Whatever they answer,
a pass that does not stop has met at most as many available nodes as it was to skip, and the
next one skips fewer. So the passes are at most one more than the nodes, none is asked to skip
more nodes than there are, and the search ends at a node.

The loop is run here with fuel, as the source has it, with the offsets that were handed to its
passes. It is the search of the other modules, which recurses on the offset.
-/

import Bob.Common.SupportNodes
import Bob.Math.While

namespace Bob.Virtual

open Bob.Math

/-- The variables of the loop. -/
structure OffsetSearch where
  res : SupportIndexResult
  currOffset : ℕ
  /-- The number of questions asked so far. -/
  asked : ℕ
  /-- The offsets handed to the passes so far. -/
  passed : List ℕ

namespace OffsetSearch

/-- No pass has stopped yet, and there are available nodes. -/
def Again (search : OffsetSearch) : Prop := search.res.index = none ∧ 0 < search.res.avail

instance : DecidablePred Again := fun search =>
  inferInstanceAs (Decidable (search.res.index = none ∧ 0 < search.res.avail))

def turn (ask : Availability) (nodes targetNodes : List Node) (search : OffsetSearch) :
    OffsetSearch :=
  let pass := tryFindSupportNodeOffsetAtOnePass ask targetNodes search.currOffset 0 0 search.asked
    nodes
  { res := pass.1
    currOffset :=
      if search.currOffset > pass.1.avail then search.currOffset - pass.1.avail else 0
    asked := pass.2
    passed := search.passed ++ [search.currOffset] }

/-- The first pass, and the offset for the next one. -/
def first (ask : Availability) (nodes targetNodes : List Node) (offset : ℕ) : OffsetSearch :=
  let skip := offset % (nodes.length - targetNodes.length)
  let pass := tryFindSupportNodeOffsetAtOnePass ask targetNodes skip 0 0 0 nodes
  { res := pass.1, currOffset := offset % pass.1.avail, asked := pass.2, passed := [skip] }

end OffsetSearch

/-- The search with fuel for its loop, and the offsets that were handed to passes. -/
def searchSupportNodeOffset (fuel : ℕ) (ask : Availability) (nodes targetNodes : List Node)
    (offset : ℕ) : Option (ℕ × List ℕ) :=
  if targetNodes.length ≥ nodes.length then some (offset % nodes.length, [])
  else do
    let search ← whileLoop OffsetSearch.Again (OffsetSearch.turn ask nodes targetNodes) fuel
      (OffsetSearch.first ask nodes targetNodes offset)
    match search.res.index with
    | some index => return (index, search.passed)
    | none => return (offset % nodes.length, search.passed)

/-! ## One pass -/

variable {ask : Availability} {nodes targetNodes : List Node} {offset i avail asked : ℕ}

/-- A pass that stops does so at a node. -/
theorem index_lt_of_index_some {index : ℕ}
    (stopped :
      (tryFindSupportNodeOffsetAtOnePass ask targetNodes offset i avail asked nodes).1.index =
        some index) : index < i + nodes.length := by
  induction nodes generalizing i avail asked with
  | nil => cases stopped
  | cons node rest ih =>
    rw [List.length_cons]
    rw [tryFindSupportNodeOffsetAtOnePass] at stopped
    split_ifs at stopped with free here
    · cases stopped
      omega
    · have below := ih stopped
      omega
    · have below := ih stopped
      omega

namespace OffsetSearch

variable {search : OffsetSearch}

/-- All offsets are in the range of the nodes, and so is the index. -/
structure InRange (count : ℕ) (search : OffsetSearch) : Prop where
  currOffset_lt : search.Again → search.currOffset < count
  passed_le : ∀ skip ∈ search.passed, skip ≤ count
  index_lt : ∀ index, search.res.index = some index → index < count

/-- If the loop goes on after a turn, the next pass skips fewer nodes. -/
theorem currOffset_turn_lt (again : (search.turn ask nodes targetNodes).Again) :
    (search.turn ask nodes targetNodes).currOffset < search.currOffset := by
  obtain ⟨passed, some⟩ := again
  have met := avail_le_of_index_none (Nat.zero_le _) passed
  simp only [turn] at some ⊢
  split_ifs <;> omega

theorem InRange.turn (inRange : search.InRange nodes.length) (again : search.Again) :
    (search.turn ask nodes targetNodes).InRange nodes.length where
  currOffset_lt next := (currOffset_turn_lt next).trans (inRange.currOffset_lt again)
  passed_le skip member := by
    rcases List.mem_append.mp member with before | now
    · exact inRange.passed_le skip before
    · rw [List.mem_singleton.mp now]
      exact (inRange.currOffset_lt again).le
  index_lt index stopped := by
    have below := index_lt_of_index_some stopped
    omega

theorem inRange_first (offset : ℕ) (room : targetNodes.length < nodes.length) :
    (first ask nodes targetNodes offset).InRange nodes.length := by
  have skip : offset % (nodes.length - targetNodes.length) < nodes.length :=
    (Nat.mod_lt _ (by omega)).trans_le (Nat.sub_le _ _)
  refine ⟨fun again => ?_, fun other member => ?_, fun index stopped => ?_⟩
  · obtain ⟨passed, some⟩ := again
    have met := avail_le_of_index_none (Nat.zero_le _) passed
    exact ((Nat.mod_lt _ some).trans_le met).trans skip
  · rw [List.mem_singleton.mp member]
    exact skip.le
  · have below := index_lt_of_index_some stopped
    omega

/-- How many turns the loop may still take. -/
def turnsLeft (search : OffsetSearch) : ℕ := if search.Again then search.currOffset + 1 else 0

theorem turnsLeft_turn_lt (again : search.Again) :
    (search.turn ask nodes targetNodes).turnsLeft < search.turnsLeft := by
  rw [turnsLeft, turnsLeft, if_pos again]
  split_ifs with next
  · have less := currOffset_turn_lt next
    omega
  · omega

/-- As many turns as there are nodes are enough, and the range is kept to the end. -/
theorem exists_whileLoop_turn (inRange : search.InRange nodes.length) :
    ∃ done, whileLoop Again (turn ask nodes targetNodes) nodes.length search = some done ∧
      done.InRange nodes.length ∧ ¬ done.Again := by
  refine exists_whileLoop (fun _ kept again => kept.turn again)
    (fun _ _ again => turnsLeft_turn_lt again) inRange ?_
  rw [turnsLeft]
  split_ifs with again
  · exact inRange.currOffset_lt again
  · exact Nat.zero_le _

/-- The loop ends as the recursion on the offset does. -/
theorem retryOffset_eq {fuel : ℕ} {done : OffsetSearch} (again : search.Again)
    (ended : whileLoop Again (turn ask nodes targetNodes) fuel search = some done) :
    retryOffset ask nodes targetNodes search.currOffset search.asked = (done.res, done.asked) := by
  induction fuel generalizing search with
  | zero => exact absurd again (whileLoop_zero_eq_some_iff.mp ended).1
  | succ fuel ih =>
    rw [whileLoop_succ again] at ended
    rw [retryOffset]
    by_cases next : (search.turn ask nodes targetNodes).Again
    · exact (dif_pos next).trans (ih next ended)
    · rw [whileLoop_of_not next] at ended
      cases ended
      exact dif_neg next

end OffsetSearch

/-- The search of the other modules ends where the loop does. -/
theorem findSupportNodeOffset_eq {fuel : ℕ} {done : OffsetSearch}
    (room : targetNodes.length < nodes.length)
    (ended : whileLoop OffsetSearch.Again (OffsetSearch.turn ask nodes targetNodes) fuel
      (OffsetSearch.first ask nodes targetNodes offset) = some done) :
    (findSupportNodeOffset ask nodes targetNodes offset).1 =
      done.res.index.getD (offset % nodes.length) := by
  let pass := tryFindSupportNodeOffsetAtOnePass ask targetNodes
    (offset % (nodes.length - targetNodes.length)) 0 0 0 nodes
  have last : (if pass.1.index = none ∧ 0 < pass.1.avail then
      retryOffset ask nodes targetNodes (offset % pass.1.avail) pass.2 else pass) =
        (done.res, done.asked) := by
    by_cases again : (OffsetSearch.first ask nodes targetNodes offset).Again
    · exact (if_pos again).trans (OffsetSearch.retryOffset_eq again ended)
    · rw [whileLoop_of_not again] at ended
      cases ended
      exact if_neg again
  rw [findSupportNodeOffset, if_neg (Nat.not_le.mpr room)]
  dsimp only [pass] at last ⊢
  rw [last]
  cases done.res.index <;> rfl

/-- For every list of nodes that is not empty and whatever the nodes answer, the search ends:
with as many turns as there are nodes, or more, it has the same result. No pass is to skip more
nodes than there are, and the result is the index of a node. -/
theorem searchSupportNodeOffset_ends (ask : Availability) (nodes targetNodes : List Node)
    (offset : ℕ) (some : nodes ≠ []) :
    ∃ index passed,
      (∀ fuel, nodes.length ≤ fuel →
        searchSupportNodeOffset fuel ask nodes targetNodes offset = .some (index, passed)) ∧
      (∀ skip ∈ passed, skip ≤ nodes.length) ∧ index < nodes.length ∧
      (findSupportNodeOffset ask nodes targetNodes offset).1 = index := by
  have fallback : offset % nodes.length < nodes.length :=
    Nat.mod_lt _ (List.length_pos_of_ne_nil some)
  by_cases full : targetNodes.length ≥ nodes.length
  · refine ⟨offset % nodes.length, [], fun fuel _ => if_pos full, nofun, fallback, ?_⟩
    rw [findSupportNodeOffset, if_pos full]
  · have room := Nat.not_le.mp full
    obtain ⟨done, ended, inRange, -⟩ := OffsetSearch.exists_whileLoop_turn
      (@OffsetSearch.inRange_first ask nodes targetNodes offset room)
    refine ⟨done.res.index.getD (offset % nodes.length), done.passed, fun fuel enough => ?_,
      inRange.passed_le, ?_, findSupportNodeOffset_eq room ended⟩
    · rw [searchSupportNodeOffset, if_neg full, whileLoop_mono ended enough]
      cases stopped : done.res.index <;> simp [stopped]
    · cases stopped : done.res.index with
      | none => exact fallback
      | some index => exact inRange.index_lt index stopped

def threeNodes : List Node := [⟨0, ⟨"a"⟩, "1"⟩, ⟨1, ⟨"b"⟩, "2"⟩, ⟨2, ⟨"c"⟩, "3"⟩]

/-- The first two nodes answer the first pass, and only the last one the second. -/
theorem searchSupportNodeOffset_ends_changing :
    ∃ index passed,
      (∀ fuel, threeNodes.length ≤ fuel →
        searchSupportNodeOffset fuel (fun n _ => n = 0 || n = 1 || n = 5) threeNodes [] 2 =
          some (index, passed)) ∧
      (∀ skip ∈ passed, skip ≤ threeNodes.length) ∧ index < threeNodes.length ∧
      (findSupportNodeOffset (fun n _ => n = 0 || n = 1 || n = 5) threeNodes [] 2).1 = index :=
  searchSupportNodeOffset_ends (fun n _ => n = 0 || n = 1 || n = 5) threeNodes [] 2
    (List.cons_ne_nil _ _)

example : searchSupportNodeOffset 3 (fun n _ => n = 0 || n = 1 || n = 5) threeNodes [] 2 =
    some (2, [2, 0]) := by decide

end Bob.Virtual

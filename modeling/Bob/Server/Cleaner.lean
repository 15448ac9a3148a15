/-
# Cleaning index memory

Two tasks keep the memory of indexes below a limit. Each samples the memory once and then
asks the backend to free some, again and again, and subtracts from its estimate what the
backend says it has freed. Memory changes after the sample, so more may be freed than the
estimate has left.

One loop subtracts with saturation. The other one does not, so there the estimate
underflows: a build with overflow checks aborts, and in one without them the estimate is
huge from then on and the task goes on until the backend has nothing left. The loops
agree just when no answer takes more than is left.
-/

import Bob.Common.Checked
import Bob.Math.Greedy
import Bob.Math.Sequencing
import Mathlib.Data.List.ReduceOption

namespace Bob.Server

open Bob.Math

/-! ## What the backend answers -/

/-- A holder that a disk controller has found, and the memory that it frees. -/
structure FoundHolder where
  endTimestamp : ℕ
  lastModification : ℕ
  activeIndexMemory : UInt64
  excessResources : UInt64
  deriving DecidableEq, Repr

def maxTimestamp : ℕ := 2 ^ 64 - 1

/-- Each disk controller may have found a holder. -/
def closeOldestActiveBlob (found : List (Option FoundHolder)) : Option UInt64 :=
  let oldest := found.foldl (fun oldest holder? => holder?.elim oldest fun holder =>
    if holder.endTimestamp < (oldest.map FoundHolder.endTimestamp).getD maxTimestamp then
      some holder
    else oldest) none
  oldest.map (·.activeIndexMemory)

def freeLeastUsedResources (found : List (Option FoundHolder)) : Option UInt64 :=
  let leastModified := found.foldl (fun state holder? => holder?.elim state fun holder =>
    if holder.lastModification < state.2 then (some holder, holder.lastModification) else state)
    ((none : Option FoundHolder), maxTimestamp)
  leastModified.1.map (·.excessResources)

section Found

variable {α σ : Type*}

private theorem foldl_reduceOption (step : σ → α → σ) (state : σ) (found : List (Option α)) :
    found.foldl (fun state item? => item?.elim state (step state)) state =
      found.reduceOption.foldl step state := by
  induction found generalizing state with
  | nil => rfl
  | cons item? rest ih => cases item? <;> exact ih _

/-- A scan that keeps the least key beside what it has found. -/
private theorem foldl_with_key (key : α → ℕ) (bound : ℕ) (items : List α) (best : Option α) :
    items.foldl (fun state item => if key item < state.2 then (some item, key item) else state)
        (best, (best.map key).getD bound) =
      let found := items.foldl (fun best item =>
        if key item < (best.map key).getD bound then some item else best) best
      (found, (found.map key).getD bound) := by
  induction items generalizing best with
  | nil => rfl
  | cons item rest ih =>
    simp only [List.foldl_cons]
    split_ifs with less
    · exact ih (some item)
    · exact ih best

end Found

/-- The holder is the first of the oldest. -/
theorem closeOldestActiveBlob_eq (found : List (Option FoundHolder)) :
    closeOldestActiveBlob found =
      ((found.reduceOption.filter fun holder => holder.endTimestamp < maxTimestamp).argmin
        FoundHolder.endTimestamp).map (·.activeIndexMemory) := by
  rw [closeOldestActiveBlob, foldl_reduceOption (fun oldest (holder : FoundHolder) =>
    if holder.endTimestamp < (oldest.map FoundHolder.endTimestamp).getD maxTimestamp then
      some holder else oldest), foldl_lt_eq_argmin]

/-- The holder is the first of the least recently modified. -/
theorem freeLeastUsedResources_eq (found : List (Option FoundHolder)) :
    freeLeastUsedResources found =
      ((found.reduceOption.filter fun holder => holder.lastModification < maxTimestamp).argmin
        FoundHolder.lastModification).map (·.excessResources) := by
  have scan := foldl_with_key FoundHolder.lastModification maxTimestamp found.reduceOption none
  rw [foldl_lt_eq_argmin] at scan
  rw [freeLeastUsedResources, foldl_reduceOption (fun state (holder : FoundHolder) =>
    if holder.lastModification < state.2 then (some holder, holder.lastModification) else state)]
  exact congrArg (fun state => state.1.map FoundHolder.excessResources) scan

/-! ## The loops -/

/-- What a loop did: the estimates from the sampled one on, the calls, and whether it has
stopped or is waiting for an answer. -/
structure Cleaned where
  estimates : List UInt64
  calls : ℕ
  stopped : Bool
  deriving DecidableEq, Repr

/-- A loop, on the answers that it gets. -/
def cleanLoop (sub : UInt64 → UInt64 → Except Panic UInt64) (limit : UInt64) :
    List (Option UInt64) → UInt64 → Except Panic Cleaned
  | [], memory => .ok ⟨[memory], 0, memory ≤ limit⟩
  | answer :: rest, memory =>
    if memory > limit then
      match answer with
      | some freed => do
        let next ← sub memory freed
        let cleaned ← cleanLoop sub limit rest next
        return ⟨memory :: cleaned.estimates, cleaned.calls + 1, cleaned.stopped⟩
      | none => .ok ⟨[memory], 1, true⟩
    else .ok ⟨[memory], 0, true⟩

def fastCleanerTask (build : Build) (limit baselineMemory : UInt64)
    (answers : List (Option UInt64)) : Except Panic Cleaned :=
  cleanLoop build.sub limit answers baselineMemory

def indexCleanupByMemoryLimit (limit baselineMemory : UInt64) (answers : List (Option UInt64)) :
    Except Panic Cleaned :=
  cleanLoop (fun memory freed => .ok (saturatingSub memory freed)) limit answers baselineMemory

/-! ## What is asked of the loops -/

/-- The loop stops just when the estimate is at most the limit or the backend has nothing
more. -/
structure Cleaned.Stops (limit : UInt64) (answers : List (Option UInt64)) (cleaned : Cleaned) :
    Prop where
  stops : cleaned.stopped = true ↔
    (∃ last ∈ cleaned.estimates.getLast?, last ≤ limit) ∨ none ∈ answers.take cleaned.calls
  above : ∀ memory ∈ cleaned.estimates.dropLast, limit < memory
  waits : cleaned.stopped = false → cleaned.calls = answers.length

/-- In addition, the estimate never rises, so it never was less than what was freed. -/
structure Cleaned.Right (limit : UInt64) (answers : List (Option UInt64)) (cleaned : Cleaned) :
    Prop extends cleaned.Stops limit answers where
  falls : cleaned.estimates.IsChain (· ≥ ·)

/-- Both loops return, do what is asked of them, and make the same number of calls. -/
def LoopsAgree (build : Build) (limit baselineMemory : UInt64) (answers : List (Option UInt64)) :
    Prop :=
  ∃ fast slow, fastCleanerTask build limit baselineMemory answers = .ok fast ∧
    indexCleanupByMemoryLimit limit baselineMemory answers = .ok slow ∧
    fast.Right limit answers ∧ slow.Right limit answers ∧ fast.calls = slow.calls

/-- While the estimate is above the limit, no answer takes more than is left. -/
def Covered (limit baselineMemory : ℕ) (answers : List (Option UInt64)) : Prop :=
  ∀ (before : List UInt64) (freed : UInt64) (after : List (Option UInt64)),
    answers = before.map some ++ some freed :: after →
    limit + (before.map UInt64.toNat).sum < baselineMemory →
      (before.map UInt64.toNat).sum + freed.toNat ≤ baselineMemory

theorem covered_cons_iff {limit memory : ℕ} {freed : UInt64} {rest : List (Option UInt64)} :
    Covered limit memory (some freed :: rest) ↔
      (limit < memory → freed.toNat ≤ memory ∧ Covered limit (memory - freed.toNat) rest) := by
  constructor
  · intro covered above
    refine ⟨by simpa using covered [] freed rest rfl (by simpa using above), ?_⟩
    intro before next after split room
    have := covered (freed :: before) next after (by simp [split])
    simp only [List.map_cons, List.sum_cons] at this
    omega
  · intro covered before next after split room
    cases before with
    | nil =>
      obtain ⟨rfl, rfl⟩ : freed = next ∧ rest = after := by simpa using split
      simpa using (covered (by simpa using room)).1
    | cons first before =>
      obtain ⟨rfl, rfl⟩ : freed = first ∧ rest = before.map some ++ some next :: after := by
        simpa using split
      simp only [List.map_cons, List.sum_cons] at room ⊢
      obtain ⟨fits, later⟩ := covered (by omega)
      have := later before next after rfl (by omega)
      omega

/-! ## Both loops -/

section Loop

variable {sub : UInt64 → UInt64 → Except Panic UInt64} {limit memory : UInt64}
  {answers : List (Option UInt64)} {cleaned : Cleaned}

theorem cleanLoop_of_le (le : memory ≤ limit) :
    cleanLoop sub limit answers memory = .ok ⟨[memory], 0, true⟩ := by
  cases answers with
  | nil => simp [cleanLoop, le]
  | cons answer rest =>
    rw [cleanLoop.eq_def]
    exact if_neg (UInt64.not_lt.mpr le)

theorem cleanLoop_some (above : limit < memory) (freed : UInt64) :
    cleanLoop sub limit (some freed :: answers) memory = (do
      let next ← sub memory freed
      let cleaned ← cleanLoop sub limit answers next
      return ⟨memory :: cleaned.estimates, cleaned.calls + 1, cleaned.stopped⟩) := by
  rw [cleanLoop.eq_def]
  exact if_pos above

/-- How a loop that has not aborted went on: it stopped at once, waits for an answer, was told
that there is nothing more, or took one more turn. -/
theorem cleanLoop_cases (done : cleanLoop sub limit answers memory = .ok cleaned) :
    memory ≤ limit ∧ cleaned = ⟨[memory], 0, true⟩ ∨ limit < memory ∧
      (answers = [] ∧ cleaned = ⟨[memory], 0, false⟩ ∨
        (∃ rest, answers = none :: rest ∧ cleaned = ⟨[memory], 1, true⟩) ∨
        ∃ freed rest next inner, answers = some freed :: rest ∧ sub memory freed = .ok next ∧
          cleanLoop sub limit rest next = .ok inner ∧
          cleaned = ⟨memory :: inner.estimates, inner.calls + 1, inner.stopped⟩) := by
  by_cases le : memory ≤ limit
  · rw [cleanLoop_of_le le] at done
    exact .inl ⟨le, (Except.ok.inj done).symm⟩
  have above := UInt64.not_le.mp le
  refine .inr ⟨above, ?_⟩
  match answers with
  | [] =>
    rw [cleanLoop, decide_eq_false le] at done
    exact .inl ⟨rfl, (Except.ok.inj done).symm⟩
  | none :: rest =>
    rw [cleanLoop, if_pos above] at done
    exact .inr (.inl ⟨rest, rfl, (Except.ok.inj done).symm⟩)
  | some freed :: rest =>
    rw [cleanLoop_some above] at done
    obtain ⟨next, hnext, done⟩ := bind_eq_ok_iff.mp done
    obtain ⟨inner, hinner, done⟩ := bind_eq_ok_iff.mp done
    exact .inr (.inr ⟨freed, rest, next, inner, rfl, hnext, hinner, (Except.ok.inj done).symm⟩)

theorem exists_estimates_eq_cons (done : cleanLoop sub limit answers memory = .ok cleaned) :
    ∃ later, cleaned.estimates = memory :: later := by
  rcases cleanLoop_cases done with ⟨-, rfl⟩ | ⟨-, ⟨-, rfl⟩ | ⟨-, -, rfl⟩ |
    ⟨-, -, -, inner, -, -, -, rfl⟩⟩
  all_goals exact ⟨_, rfl⟩

/-- Whatever the subtraction is, the loop stops where it should. -/
theorem stops_of_cleanLoop (done : cleanLoop sub limit answers memory = .ok cleaned) :
    cleaned.Stops limit answers := by
  induction answers generalizing memory cleaned with
  | nil =>
    rcases cleanLoop_cases done with ⟨le, rfl⟩ | ⟨above, ⟨-, rfl⟩ | ⟨_, none, -⟩ |
      ⟨_, _, _, _, some, -⟩⟩
    · exact ⟨by simp [le], by simp, by simp⟩
    · exact ⟨by simpa using above, by simp, by simp⟩
    · cases none
    · cases some
  | cons answer rest ih =>
    rcases cleanLoop_cases done with ⟨le, rfl⟩ | ⟨above, ⟨empty, -⟩ | ⟨_, same, rfl⟩ |
      ⟨freed, _, next, inner, same, -, loop, rfl⟩⟩
    · exact ⟨by simp [le], by simp, by simp⟩
    · cases empty
    · cases same
      exact ⟨by simp, by simp, by simp⟩
    · cases same
      obtain ⟨stops, aboveLater, waits⟩ := ih loop
      obtain ⟨later, hlater⟩ := exists_estimates_eq_cons loop
      rw [hlater] at stops aboveLater
      refine ⟨?_, ?_, ?_⟩
      · simpa [hlater] using stops
      · simpa [hlater, above] using aboveLater
      · simpa using waits

/-- A loop whose subtraction never fails and never rises is right. -/
theorem exists_right_of_sub_le
    (falls : ∀ memory freed, ∃ next ≤ memory, sub memory freed = .ok next)
    (answers : List (Option UInt64)) (memory : UInt64) :
    ∃ cleaned, cleanLoop sub limit answers memory = .ok cleaned ∧ cleaned.Right limit answers := by
  suffices chain : ∃ cleaned, cleanLoop sub limit answers memory = .ok cleaned ∧
      cleaned.estimates.IsChain (· ≥ ·) by
    obtain ⟨cleaned, done, chain⟩ := chain
    exact ⟨cleaned, done, stops_of_cleanLoop done, chain⟩
  induction answers generalizing memory with
  | nil => exact ⟨_, rfl, .singleton _⟩
  | cons answer rest ih =>
    by_cases le : memory ≤ limit
    · exact ⟨_, cleanLoop_of_le le, .singleton _⟩
    have above := UInt64.not_le.mp le
    cases answer with
    | none => exact ⟨_, by rw [cleanLoop, if_pos above], .singleton _⟩
    | some freed =>
      obtain ⟨next, lower, hnext⟩ := falls memory freed
      obtain ⟨inner, loop, chain⟩ := ih next
      obtain ⟨later, hlater⟩ := exists_estimates_eq_cons loop
      refine ⟨⟨memory :: inner.estimates, inner.calls + 1, inner.stopped⟩, ?_, ?_⟩
      · rw [cleanLoop_some above]
        exact bind_eq_ok_iff.mpr ⟨next, hnext, bind_eq_ok_iff.mpr ⟨inner, loop, rfl⟩⟩
      · simp only [hlater] at chain ⊢
        exact .cons_cons lower chain

/-- Subtractions that agree as long as no more is freed than is left make equal loops. -/
theorem cleanLoop_congr {other : UInt64 → UInt64 → Except Panic UInt64}
    (agree : ∀ memory freed, freed ≤ memory →
      sub memory freed = .ok (memory - freed) ∧ other memory freed = .ok (memory - freed))
    (covered : Covered limit.toNat memory.toNat answers) :
    cleanLoop sub limit answers memory = cleanLoop other limit answers memory := by
  induction answers generalizing memory with
  | nil => rfl
  | cons answer rest ih =>
    by_cases le : memory ≤ limit
    · rw [cleanLoop_of_le le, cleanLoop_of_le le]
    have above := UInt64.not_le.mp le
    cases answer with
    | none => rw [cleanLoop, cleanLoop]
    | some freed =>
      obtain ⟨fits, later⟩ := covered_cons_iff.mp covered (UInt64.lt_iff_toNat_lt.mp above)
      obtain ⟨first, second⟩ := agree memory freed (UInt64.le_iff_toNat_le.mpr fits)
      rw [← UInt64.toNat_sub_of_le _ _ (UInt64.le_iff_toNat_le.mpr fits)] at later
      rw [cleanLoop_some above, cleanLoop_some above, first, second]
      simp only [bind, Except.bind, ih later]

/-- If the estimate never rises, nothing was freed beyond it. -/
theorem covered_of_falls {build : Build}
    (done : cleanLoop build.sub limit answers memory = .ok cleaned)
    (falls : cleaned.estimates.IsChain (· ≥ ·)) :
    Covered limit.toNat memory.toNat answers := by
  induction answers generalizing memory cleaned with
  | nil =>
    intro before freed after split
    simp at split
  | cons answer rest ih =>
    cases answer with
    | none =>
      intro before freed after split
      cases before <;> simp at split
    | some freed =>
      refine covered_cons_iff.mpr fun above => ?_
      rw [cleanLoop_some (UInt64.lt_iff_toNat_lt.mpr above)] at done
      obtain ⟨next, hnext, done⟩ := bind_eq_ok_iff.mp done
      obtain ⟨inner, loop, done⟩ := bind_eq_ok_iff.mp done
      cases done
      obtain ⟨later, hlater⟩ := exists_estimates_eq_cons loop
      simp only [hlater] at falls
      obtain ⟨lower, fallsLater⟩ := List.isChain_cons_cons.mp falls
      obtain ⟨fits, rfl⟩ := Build.le_of_sub_eq_ok hnext lower
      refine ⟨UInt64.le_iff_toNat_le.mp fits, ?_⟩
      rw [← UInt64.toNat_sub_of_le _ _ fits]
      exact ih loop (by rwa [hlater])

end Loop

theorem saturatingSub_le (x y : UInt64) : saturatingSub x y ≤ x := by
  unfold saturatingSub
  split_ifs with le
  · exact UInt64.sub_le le
  · exact UInt64.zero_le

/-- The saturating loop is right, whatever the backend answers. -/
theorem exists_indexCleanupByMemoryLimit (limit baselineMemory : UInt64)
    (answers : List (Option UInt64)) :
    ∃ slow, indexCleanupByMemoryLimit limit baselineMemory answers = .ok slow ∧
      slow.Right limit answers :=
  exists_right_of_sub_le (fun memory freed => ⟨_, saturatingSub_le memory freed, rfl⟩) _ _

/-- Above the limit the loop stops only when no controller finds anything to close. -/
theorem nothing_found_of_stopped {limit baselineMemory : UInt64}
    {calls : List (List (Option FoundHolder))} {slow : Cleaned}
    (done : indexCleanupByMemoryLimit limit baselineMemory (calls.map closeOldestActiveBlob) =
      .ok slow) (stopped : slow.stopped = true)
    (above : ∀ last ∈ slow.estimates.getLast?, limit < last) :
    ∃ found ∈ calls, ∀ holder ∈ found.reduceOption, maxTimestamp ≤ holder.endTimestamp := by
  rcases (stops_of_cleanLoop done).stops.mp stopped with ⟨last, hlast, le⟩ | none
  · exact absurd (above last hlast) (UInt64.not_lt.mpr le)
  · obtain ⟨found, hfound, nothing⟩ := List.mem_map.mp (List.mem_of_mem_take none)
    exact ⟨found, hfound, by simpa [closeOldestActiveBlob_eq, List.filter_eq_nil_iff] using nothing⟩

/-- The loops agree just when no answer takes more than is left, in either build. -/
theorem loopsAgree_iff_covered (build : Build) (limit baselineMemory : UInt64)
    (answers : List (Option UInt64)) :
    LoopsAgree build limit baselineMemory answers ↔
      Covered limit.toNat baselineMemory.toNat answers := by
  constructor
  · rintro ⟨fast, slow, done, -, right, -⟩
    exact covered_of_falls done right.falls
  · intro covered
    obtain ⟨slow, done, right⟩ := exists_indexCleanupByMemoryLimit limit baselineMemory answers
    refine ⟨slow, slow, ?_, done, right, right, rfl⟩
    refine (cleanLoop_congr (fun memory freed le => ?_) covered).trans done
    exact ⟨Build.sub_eq_ok le, by rw [saturatingSub, if_pos le]⟩

/-- The limit is 50 and the estimate 100, of which 150 are freed. With overflow checks the
task aborts. Without them it goes on and frees 10 more, while the other loop stops. -/
theorem not_loopsAgree_of_overshoot :
    fastCleanerTask .overflowChecks 50 100 [some 150, some 10] =
        .error ⟨"attempt to subtract with overflow"⟩ ∧
      fastCleanerTask .release 50 100 [some 150, some 10] =
        .ok ⟨[100, 18446744073709551566, 18446744073709551556], 2, false⟩ ∧
      indexCleanupByMemoryLimit 50 100 [some 150, some 10] = .ok ⟨[100, 0], 1, true⟩ ∧
      ¬ LoopsAgree .overflowChecks 50 100 [some 150, some 10] ∧
      ¬ LoopsAgree .release 50 100 [some 150, some 10] := by
  refine ⟨rfl, rfl, rfl, ?_, ?_⟩
  · rintro ⟨fast, slow, done, -⟩
    cases done
  · rintro ⟨fast, slow, done, -, right, -⟩
    cases done
    exact absurd right.falls (by decide)

end Bob.Server

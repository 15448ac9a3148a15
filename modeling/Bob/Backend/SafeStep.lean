/-
# The step of a read

A read that has found a record leaves out partitions that end too long before it. How
long is computed when a group starts: at least what is configured, and more than twice
the longest gap between the starts of its partitions, with the time of the clock as the
last of them.

The clock is put behind the sorted starts whatever it says. A client may put a record of
the future, and then the last difference is below zero. The configured step may be any
number of seconds, and then the end of a partition plus the step need not fit.
-/

import Bob.Math.Gaps
import Bob.Common.Checked
import Bob.Backend.LastWriter
import Bob.Backend.Periods

namespace Bob.Backend

open Bob.Configs Bob.Math

variable {keySize : ℕ} {engine : StorageEngine keySize}

namespace Group

/-! ## Checked operations -/

def sortedStarts (holders : List (Holder engine)) : List ℕ :=
  (holders.map (·.startTimestamp)).insertionSort (· ≤ ·)

/-- One turn of the loop of `safe_timestamp_step`. -/
def checkedMaxDiff (maxDiff : ℕ) (pair : ℕ × ℕ) : Except Panic ℕ := do
  let diff ← checkedSub pair.2 pair.1
  return if maxDiff < diff then diff else maxDiff

/-- `safe_timestamp_step` with each operation checked. -/
def checkedSafeStep (settings : Settings) (holders : List (Holder engine)) (now : ℕ) :
    Except Panic (Option ℕ) :=
  match settings.skipHoldersByTimestampStepWhenReading with
  | none => .ok none
  | some adjust => do
    let startTimestamps := sortedStarts holders ++ [now]
    let maxDiff ← (neighbours startTimestamps).foldlM checkedMaxDiff
      settings.timestampPeriodAsSecs
    let doubled ← fits "multiply" (2 * max maxDiff settings.timestampPeriodAsSecs)
    let step ← fits "add" (doubled + 1)
    return some (max adjust.asSecs step)

/-- `should_check_holder` with its sum checked. -/
def checkedShouldCheckHolder (safeTimestampStep : Option ℕ) (holder : Holder engine)
    (maxTimestamp : Option ℕ) : Except Panic Bool :=
  match maxTimestamp, safeTimestampStep with
  | some max, some step => do
    let sum ← fits "add" (holder.endTimestamp + step)
    return sum ≥ max
  | _, _ => .ok true

section Checked

variable {settings : Settings} {holders : List (Holder engine)} {holder : Holder engine}
  {adjust : Duration} {now step : ℕ}

theorem checkedMaxDiff_eq_ok_iff (maxDiff : ℕ) (pair : ℕ × ℕ) (result : ℕ) :
    checkedMaxDiff maxDiff pair = .ok result ↔
      pair.1 ≤ pair.2 ∧ max maxDiff (pair.2 - pair.1) = result := by
  unfold checkedMaxDiff
  simp only [bind_eq_ok_iff, checkedSub_eq_ok_iff]
  constructor
  · rintro ⟨diff, ⟨le, rfl⟩, result⟩
    cases result
    refine ⟨le, ?_⟩
    split_ifs <;> omega
  · rintro ⟨le, rfl⟩
    refine ⟨_, ⟨le, rfl⟩, congrArg Except.ok ?_⟩
    split_ifs <;> omega

/-- The loop ends if no difference is below zero, with the widest gap. -/
theorem foldlM_checkedMaxDiff_eq_ok_iff {l : List ℕ} {least result : ℕ} :
    (neighbours l).foldlM checkedMaxDiff least = .ok result ↔
      l.IsChain (· ≤ ·) ∧ widestGap least l = result := by
  rw [foldlM_eq_ok_iff checkedMaxDiff_eq_ok_iff, forall_mem_neighbours_iff, widestGap, gaps,
    List.foldl_map]

/-- The starts and the clock are in order if no start is later than the clock. -/
theorem isChain_sortedStarts_iff :
    (sortedStarts holders ++ [now]).IsChain (· ≤ ·) ↔
      ∀ holder ∈ holders, holder.startTimestamp ≤ now := by
  have sorted : (sortedStarts holders).Pairwise (· ≤ ·) := List.pairwise_insertionSort _ _
  rw [List.isChain_iff_pairwise, List.pairwise_append, and_iff_right sorted]
  simp only [List.pairwise_singleton, true_and, List.mem_singleton, forall_eq, sortedStarts,
    List.mem_insertionSort, List.forall_mem_map]

/-- The longest gap that counts: at least the period. -/
def longestGap (settings : Settings) (holders : List (Holder engine)) (now : ℕ) : ℕ :=
  widestGap settings.timestampPeriodAsSecs (sortedStarts holders ++ [now])

theorem period_le_longestGap : settings.timestampPeriodAsSecs ≤ longestGap settings holders now :=
  (widestGap_le_iff.mp (le_refl _)).1

theorem gap_le_longestGap {pair : ℕ × ℕ} (member : pair ∈ neighbours (sortedStarts holders)) :
    pair.2 - pair.1 ≤ longestGap settings holders now :=
  (widestGap_le_iff.mp (le_refl _)).2 pair (mem_neighbours_append member _)

theorem checkedSafeStep_eq_ok_iff
    (configured : settings.skipHoldersByTimestampStepWhenReading = some adjust)
    {result : Option ℕ} :
    checkedSafeStep settings holders now = .ok result ↔
      (∀ holder ∈ holders, holder.startTimestamp ≤ now) ∧
        2 * longestGap settings holders now + 1 < 2 ^ 64 ∧
        result = some (max adjust.asSecs (2 * longestGap settings holders now + 1)) := by
  have most : max (longestGap settings holders now) settings.timestampPeriodAsSecs =
      longestGap settings holders now := max_eq_left period_le_longestGap
  unfold checkedSafeStep
  rw [configured]
  simp only [bind_eq_ok_iff, foldlM_checkedMaxDiff_eq_ok_iff, isChain_sortedStarts_iff,
    fits_eq_ok_iff]
  constructor
  · rintro ⟨_, ⟨early, rfl⟩, _, ⟨-, rfl⟩, _, ⟨small, rfl⟩, done⟩
    rw [← longestGap, most] at small done
    exact ⟨early, small, (Except.ok.inj done).symm⟩
  · rintro ⟨early, small, rfl⟩
    refine ⟨_, ⟨early, rfl⟩, _, ⟨?_, rfl⟩, _, ⟨?_, rfl⟩, ?_⟩
    · rw [← longestGap, most]
      omega
    · rwa [← longestGap, most]
    · rw [← longestGap, most]
      rfl

theorem exists_checkedShouldCheckHolder_iff :
    (∀ maxTimestamp, ∃ asked,
      checkedShouldCheckHolder (some step) holder maxTimestamp = .ok asked) ↔
      holder.endTimestamp + step < 2 ^ 64 := by
  constructor
  · intro answers
    obtain ⟨asked, answered⟩ := answers (some 0)
    obtain ⟨_, sum, -⟩ := bind_eq_ok_iff.mp answered
    exact (fits_eq_ok_iff.mp sum).1
  · intro small maxTimestamp
    cases maxTimestamp with
    | none => exact ⟨true, rfl⟩
    | some max => exact ⟨_, bind_eq_ok_iff.mpr ⟨_, fits_eq_ok small, rfl⟩⟩

/-- Where nothing overflows, the checked step is the step. -/
theorem safeStep_of_checked {result : Option ℕ}
    (checked : checkedSafeStep settings holders now = .ok result) (small : now < 2 ^ 64) :
    safeStep settings holders now = result := by
  cases configured : settings.skipHoldersByTimestampStepWhenReading with
  | none =>
    rw [checkedSafeStep, configured] at checked
    cases checked
    rw [safeStep, configured, Option.map_none]
  | some adjust =>
    obtain ⟨early, fits, rfl⟩ := (checkedSafeStep_eq_ok_iff configured).mp checked
    have ordered := forall_mem_neighbours_iff.mpr (isChain_sortedStarts_iff.mpr early)
    have bounded : ∀ start ∈ sortedStarts holders ++ [now], start ≤ now := by
      simpa [or_imp, forall_and, sortedStarts] using early
    -- no difference wraps
    have widest : (neighbours (sortedStarts holders ++ [now])).foldl (fun maxDiff pair =>
        let diff := (pair.2 + 2 ^ 64 - pair.1) % 2 ^ 64
        if maxDiff < diff then diff else maxDiff) settings.timestampPeriodAsSecs =
        longestGap settings holders now := by
      rw [longestGap, widestGap, gaps, List.foldl_map]
      refine List.foldl_ext _ _ _ fun maxDiff pair member => ?_
      have le := ordered pair member
      have last := bounded _ (snd_mem_of_mem_neighbours member)
      dsimp only
      rw [show pair.2 + 2 ^ 64 - pair.1 = pair.2 - pair.1 + 2 ^ 64 by omega,
        Nat.add_mod_right, Nat.mod_eq_of_lt (by omega)]
      split_ifs <;> omega
    rw [safeStep, configured, Option.map_some]
    dsimp only
    rw [← sortedStarts, ← neighbours, widest, max_eq_left period_le_longestGap,
      Nat.mod_eq_of_lt fits]

/-! ## What the step promises -/

/-- The step is computed without an overflow, it is at least the configured one and more
than twice every gap between partitions that have begun, and its sum with the end of a
partition does not overflow. -/
def StepIsSafe (settings : Settings) (holders : List (Holder engine)) (now : ℕ) : Prop :=
  ∃ safeTimestampStep, checkedSafeStep settings holders now = .ok safeTimestampStep ∧
    (∀ adjust, settings.skipHoldersByTimestampStepWhenReading = some adjust →
      ∃ step, safeTimestampStep = some step ∧ adjust.asSecs ≤ step ∧
        ∀ pair ∈ neighbours (sortedStarts holders), pair.2 ≤ now →
          2 * (pair.2 - pair.1) < step) ∧
    ∀ holder ∈ holders, ∀ maxTimestamp, ∃ asked,
      checkedShouldCheckHolder safeTimestampStep holder maxTimestamp = .ok asked

/-- The step is safe exactly if no partition starts in the future and the numbers fit. -/
theorem step_is_safe_iff (settings : Settings) (holders : List (Holder engine)) (now : ℕ) :
    StepIsSafe settings holders now ↔
      ∀ adjust, settings.skipHoldersByTimestampStepWhenReading = some adjust →
        (∀ holder ∈ holders, holder.startTimestamp ≤ now) ∧
          2 * longestGap settings holders now + 1 < 2 ^ 64 ∧
          ∀ holder ∈ holders, holder.endTimestamp +
            max adjust.asSecs (2 * longestGap settings holders now + 1) < 2 ^ 64 := by
  constructor
  · rintro ⟨result, checked, -, asked⟩ adjust configured
    obtain ⟨early, small, rfl⟩ := (checkedSafeStep_eq_ok_iff configured).mp checked
    refine ⟨early, small, fun holder member => ?_⟩
    exact exists_checkedShouldCheckHolder_iff.mp (asked holder member)
  · intro fits
    cases configured : settings.skipHoldersByTimestampStepWhenReading with
    | none =>
      refine ⟨none, by rw [checkedSafeStep, configured], ?_, ?_⟩
      · intro adjust step
        cases configured.symm.trans step
      · intro holder member maxTimestamp
        cases maxTimestamp <;> exact ⟨true, rfl⟩
    | some adjust =>
      obtain ⟨early, small, sums⟩ := fits adjust configured
      refine ⟨_, (checkedSafeStep_eq_ok_iff configured).mpr ⟨early, small, rfl⟩, ?_, ?_⟩
      · intro other same
        cases configured.symm.trans same
        refine ⟨_, rfl, le_max_left _ _, fun pair member _ => lt_max_of_lt_right ?_⟩
        have gap : pair.2 - pair.1 ≤ longestGap settings holders now := gap_le_longestGap member
        omega
      · intro holder member
        exact exists_checkedShouldCheckHolder_iff.mpr (sums holder member)

/-- For an accepted period, with starts and a clock of this age of the calendar, only the
configured step can be too long. -/
theorem step_is_safe_iff_of_accepted {ext : Externals} {backend : BackendSettings} {last : ℕ}
    (accepted : backend.validate ext = .ok ())
    (parsed : ext.parseHumanDuration backend.timestampPeriod = .ok settings.timestampPeriod)
    (ends : ∀ holder ∈ holders,
      holder.endTimestamp = holder.startTimestamp + settings.timestampPeriodAsSecs)
    (starts : ∀ holder ∈ holders, holder.startTimestamp ≤ last) (clock : now ≤ last)
    (age : last ≤ 2 ^ 61) :
    StepIsSafe settings holders now ↔
      ∀ adjust, settings.skipHoldersByTimestampStepWhenReading = some adjust →
        ∀ holder ∈ holders, holder.startTimestamp ≤ now ∧
          holder.endTimestamp + adjust.asSecs < 2 ^ 64 := by
  have year := BackendSettings.period_le_of_validate accepted parsed
  have period : settings.timestampPeriodAsSecs ≤ 2 ^ 61 := by
    unfold Settings.timestampPeriodAsSecs Duration.asSecs
    dsimp only [Duration.ofDays] at year
    omega
  have listed : ∀ start ∈ sortedStarts holders ++ [now], start ≤ last := by
    simpa [or_imp, forall_and, sortedStarts] using ⟨starts, clock⟩
  have gap : longestGap settings holders now ≤ 2 ^ 61 := by
    refine widestGap_le_iff.mpr ⟨period, fun pair member => ?_⟩
    have later := listed _ (snd_mem_of_mem_neighbours member)
    omega
  rw [step_is_safe_iff]
  refine forall₂_congr fun adjust _ => ?_
  constructor
  · rintro ⟨early, -, sums⟩ holder member
    refine ⟨early holder member, lt_of_le_of_lt ?_ (sums holder member)⟩
    exact Nat.add_le_add_left (le_max_left _ _) _
  · intro fits
    refine ⟨fun holder member => (fits holder member).1, by omega, fun holder member => ?_⟩
    have sum := (fits holder member).2
    have bound := starts holder member
    have interval := ends holder member
    omega

theorem not_stepIsSafe_of_panic {panic : Panic}
    (panics : checkedSafeStep settings holders now = .error panic) :
    ¬ StepIsSafe settings holders now := by
  rintro ⟨_, computed, -⟩
  cases panics.symm.trans computed

end Checked

/-! Two groups with an unsafe step. In the first, a record of the tenth day is put on the
ninth, and the group is started again. The difference wraps, and after the next put of the
ninth day a read leaves the newer record out. The second has the longest step that is
accepted, and the sum with the end of a partition does not fit. -/

def longestSteps : Externals :=
  { humanDurations with
    parseHumanDuration := fun text =>
      if text = "18446744073709551615s" then .ok ⟨18446744073709551615 * 10 ^ 9⟩
      else humanDurations.parseHumanDuration text }

def steppedSettings (step : Duration) : Settings :=
  { chronoSettings with skipHoldersByTimestampStepWhenReading := some step }

def steppedGroup (step : Duration) : Group (logEngine 8) :=
  Group.new (steppedSettings step) ⟨0⟩ ⟨"alpha"⟩ ⟨"disk1"⟩

def longestStepConfig : PearlConfig where
  blobFileNamePrefix := "bob"
  failRetryTimeout := "500ms"
  alienDisk := none
  settings := backendWith "2d"
  skipHoldersByTimestampStepWhenReading := some "18446744073709551615s"

theorem steps_are_unsafe :
    (∃ g started later : Group (logEngine 8),
      (GroupOp.put sampleKey (sampleData 1 864000)).perform .default (steppedGroup (.ofDays 2)) =
        some g ∧
      g.run g.settings 777700 = .ok started ∧
      checkedSafeStep g.settings started.holders 777700 =
        .error ⟨"attempt to subtract with overflow"⟩ ∧
      ¬ StepIsSafe g.settings started.holders 777700 ∧
      started.safeTimestampStep = some 18446744073709379017 ∧
      (GroupOp.put sampleKey (sampleData 2 777900)).perform .default started = some later ∧
      (later.get sampleKey).1 = .ok (sampleData 2 777900)) ∧
    longestStepConfig.validate longestSteps = .ok () ∧
    ∃ (g : Group (logEngine 8)) (holder : Holder (logEngine 8)),
      (GroupOp.put sampleKey (sampleData 1 86400)).perform .default
        (steppedGroup ⟨18446744073709551615 * 10 ^ 9⟩) = some g ∧
      g.holders = [holder] ∧
      checkedSafeStep g.settings g.holders 86400 = .ok (some 18446744073709551615) ∧
      checkedShouldCheckHolder (some 18446744073709551615) holder (some 86400) =
        .error ⟨"attempt to add with overflow"⟩ := by
  refine ⟨⟨_, _, _, rfl, rfl, rfl, not_stepIsSafe_of_panic rfl, rfl, rfl, rfl⟩, by decide, ?_⟩
  exact ⟨{ steppedGroup ⟨18446744073709551615 * 10 ^ 9⟩ with
      holders := [⟨86400, 172800, some [(sampleKey, .value (sampleData 1 86400))]⟩] }, _,
    rfl, rfl, by decide +kernel, rfl⟩

end Group

end Bob.Backend

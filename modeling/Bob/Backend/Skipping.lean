/-
# Skipping old partitions

A group can be told to leave out partitions that end long before the newest record
found so far. A partition that is left out may well have markers that are newer than
its own interval, but each of them repeats a forced marker that is kept near its
timestamp. If the step is twice the longest period ever used, partitions near the
newest timestamp are not left out, and the answer is the same as without the step.

This needs that a put and a delete of one key never have the same timestamp: of two
records with equal timestamps the one that is read first counts, and leaving out a
partition can change which one that is.
-/

import Bob.Backend.LastWriter

namespace Bob.Backend

open Bob.Math Bob.Configs

variable {keySize : ℕ} {engine : StorageEngine keySize}

/-- No put and delete of one key have the same timestamp. -/
def Untied (ops : List (GroupOp keySize)) : Prop :=
  ∀ key data bobMeta, GroupOp.put key data ∈ ops → GroupOp.delete key bobMeta ∈ ops →
    data.bobMeta.timestamp ≠ bobMeta.timestamp

namespace Group

/-- The same group without a step. -/
def asking (g : Group engine) : Group engine := { g with safeTimestampStep := none }

/-- The step of the group is at least twice each of the periods, and no sum overflows. -/
structure SafelyStepped (g : Group engine) (periods : List Duration) : Prop where
  wide : ∀ adjust, g.settings.skipHoldersByTimestampStepWhenReading = some adjust →
    ∀ period ∈ periods, 2 * period.nanos ≤ adjust.nanos
  bounded : ∀ step, g.safeTimestampStep = some step →
    ∀ holder ∈ g.holders, holder.endTimestamp + step < 2 ^ 64

variable {lawful : engine.Lawful} {g : Group engine} {periods : List Duration}
  {ops : List (GroupOp keySize)} {key : BobKey keySize}

/-- A partition that starts near the top timestamp is not left out. -/
theorem Represents.neverSkipped (represents : g.Represents lawful periods ops)
    (safely : g.SafelyStepped periods) {holder : Holder engine} (member : holder ∈ g.holders)
    {top : ℕ} (near : NearStart periods holder.startTimestamp top) :
    NeverSkipped g.asks top holder := by
  intro t below
  unfold asks shouldCheckHolder
  cases hstep : g.safeTimestampStep with
  | none => rfl
  | some step =>
    obtain ⟨period, hperiod, close⟩ := near
    obtain ⟨positive, adjust, hadjust, atLeast⟩ := represents.stepped step hstep
    have wide := safely.wide adjust hadjust period hperiod
    -- The timestamp is at most a period and a second after the start, the end at least at it.
    have twice : 2 * period.asSecs ≤ adjust.asSecs := by
      unfold Duration.asSecs
      omega
    have ends := represents.ends holder member
    simp only [Nat.mod_eq_of_lt (safely.bounded step hstep holder member), ge_iff_le,
      decide_eq_true_eq]
    omega

/-- A put and a delete of one key do not share a timestamp. -/
private theorem ne_of_untied {data : BobData} {timestamp : ℕ} (untied : Untied ops)
    (put : Record.value data ∈ recordsOf ops key) (delete : .marker timestamp ∈ recordsOf ops key) :
    (Record.value data).timestamp ≠ timestamp := by
  obtain ⟨op, hop, rfl, hrecord⟩ := mem_recordsOf_iff.mp put
  obtain ⟨op', hop', sameKey, hrecord'⟩ := mem_recordsOf_iff.mp delete
  cases op with
  | delete => cases hrecord
  | put key' data' =>
    cases hrecord
    cases op' with
    | put => cases hrecord'
    | delete key'' bobMeta =>
      cases hrecord'
      cases sameKey
      intro equal
      exact untied _ _ _ hop hop' (UInt64.toNat_inj.mp equal)

/-- Leaving partitions out does not change the record that a read settles on. -/
theorem Represents.best_eq_asking (represents : g.Represents lawful periods ops)
    (safely : g.SafelyStepped periods) (untied : Untied ops) :
    g.best lawful key = g.asking.best lawful key := by
  cases found : g.asking.best lawful key with
  | none =>
    exact searchNewest_eq_none_iff.mpr (searchNewest_eq_none_iff.mp found)
  | some r =>
    have newest := isNewest_of_searchNewest found
    obtain ⟨⟨holder, visited, looked⟩, newest⟩ := newest
    rw [← found]
    apply searchNewest_visit_eq
    · exact newest
    · -- The forced record of the newest write is near its timestamp.
      obtain ⟨home, hhome, top, htop, atLeast, near⟩ :=
        represents.exists_source (represents.mem_recordsOf visited looked)
      exact ⟨home, hhome, ⟨top, htop, le_antisymm (newest home hhome top htop) atLeast⟩,
        represents.neverSkipped safely (mem_holders_of_possible hhome) near⟩
    · intro source hsource record hrecord top
      cases record with
      | value data =>
        -- A value is only where it was put, so its partition is not left out.
        left
        have near := represents.values source (mem_holders_of_possible hsource) key data
          (newestIn_eq_some hrecord).1
        rw [top] at near
        exact represents.neverSkipped safely (mem_holders_of_possible hsource) near
      | marker timestamp =>
        -- Every other record with the top timestamp is the same marker.
        right
        intro other hother seen hseen top'
        have marked := represents.mem_recordsOf hsource hrecord
        have known := represents.mem_recordsOf hother hseen
        cases seen with
        | value data => exact absurd (top'.trans top.symm) (ne_of_untied untied known marked)
        | marker timestamp' => exact congrArg Record.marker (top'.trans top.symm)

end Group

/-- With a step of at least twice the longest period, a group answers as without a step. -/
theorem History.skipping_keeps_answers (lawful : engine.Lawful) {periods : List Duration}
    {ops : List (GroupOp keySize)} {g : Group engine} (history : History periods ops g)
    (safely : g.SafelyStepped periods) (untied : Untied ops) :
    (∀ key, (g.get key).1 = (g.asking.get key).1) ∧ ∀ keys, g.exist keys = g.asking.exist keys := by
  have represents := history.represents lawful
  have unlocked := represents.unlocked
  constructor
  · intro key
    obtain ⟨hasError, result, clean⟩ := @Group.get_spec _ _ lawful g key unlocked
    obtain ⟨hasError', result', clean'⟩ := @Group.get_spec _ _ lawful g.asking key unlocked
    rw [result, result', clean represents.running, clean' represents.running,
      represents.best_eq_asking safely untied]
  · intro keys
    rw [Group.exist_eq_best lawful unlocked, @Group.exist_eq_best _ _ lawful g.asking unlocked]
    refine congrArg Except.ok (List.map_congr_left fun key _ => ?_)
    rw [represents.best_eq_asking safely untied]

/-! ## A tie -/

/-- The group of a day, started again with a step of two days. -/
def stepGroup : Group (logEngine 8) :=
  { Group.new ⟨.ofDays 1, some (.ofDays 2), none, fun _ => true⟩ ⟨0⟩ ⟨"alpha"⟩ ⟨"disk1"⟩ with
    safeTimestampStep := some 172801 }

theorem history_stepGroup : History [.ofDays 1, .ofDays 1] [] stepGroup := by
  have started : dayGroup.run stepGroup.settings 0 = .ok stepGroup := rfl
  exact (History.new ..).restart started

/-- Writes of the tenth day, then of the first, then a delete of the tenth day, and a
last write of the sixth day. -/
def scatteredWrites (deleted : UInt64) : List (GroupOp 8) :=
  [.put sampleKey (sampleData 1 864000), .put sampleKey (sampleData 2 86400),
    .delete sampleKey ⟨deleted⟩, .put sampleKey (sampleData 3 864000),
    .put sampleKey (sampleData 4 518400)]

/-- What the samples need to know about the group after the writes. -/
def stepOutcome (g : Group (logEngine 8)) : Option Duration × Option ℕ × List ℕ :=
  (g.settings.skipHoldersByTimestampStepWhenReading, g.safeTimestampStep,
    g.holders.map (·.endTimestamp))

private theorem safelyStepped_of_stepOutcome {g : Group (logEngine 8)}
    (outcome : stepOutcome g = (some (.ofDays 2), some 172801, [950400, 172800, 604800])) :
    g.SafelyStepped [.ofDays 1, .ofDays 1] := by
  obtain ⟨skip, steps, ends⟩ : g.settings.skipHoldersByTimestampStepWhenReading =
      some (.ofDays 2) ∧ g.safeTimestampStep = some 172801 ∧
      g.holders.map (·.endTimestamp) = [950400, 172800, 604800] := by
    simpa [stepOutcome] using outcome
  constructor
  · intro adjust hadjust
    cases skip.symm.trans hadjust
    decide
  · intro step hstep holder member
    cases steps.symm.trans hstep
    have listed := List.mem_map_of_mem (f := (·.endTimestamp)) member
    rw [ends] at listed
    have small : ∀ timestamp ∈ [950400, 172800, 604800], timestamp + 172801 < 2 ^ 64 := by decide
    exact small _ listed

/-- If the delete has the timestamp of the puts, the step decides whether the marker in
the partition of the first day or the value in that of the tenth is read first. -/
theorem tied_delete_is_skipped : ∃ g : Group (logEngine 8),
    History [.ofDays 1, .ofDays 1] (scatteredWrites 864000) g ∧
      g.safeTimestampStep = some 172801 ∧ g.SafelyStepped [.ofDays 1, .ofDays 1] ∧
      (g.get sampleKey).1 = .ok (sampleData 3 864000) ∧
      (g.asking.get sampleKey).1 = .error (.keyNotFound sampleKey) ∧
      g.exist [sampleKey] = .ok [true] ∧ g.asking.exist [sampleKey] = .ok [false] := by
  obtain ⟨g, performed, outcome⟩ : ∃ g,
      (scatteredWrites 864000).foldlM (fun g op => GroupOp.perform op .default g) stepGroup =
        some g ∧
      (stepOutcome g, (g.get sampleKey).1, (g.asking.get sampleKey).1, g.exist [sampleKey],
        g.asking.exist [sampleKey]) =
        ((some (.ofDays 2), some 172801, [950400, 172800, 604800]),
          .ok (sampleData 3 864000), .error (.keyNotFound sampleKey), .ok [true], .ok [false]) := by
    apply Option.map_eq_some_iff.mp
    rfl
  simp only [Prod.mk.injEq] at outcome
  obtain ⟨settled, answers⟩ := outcome
  refine ⟨g, history_stepGroup.writes performed, ?_, safelyStepped_of_stepOutcome settled, answers⟩
  exact congrArg (·.2.1) settled

/-- If the delete is a second newer, both groups find it. -/
theorem newer_delete_is_found : ∃ g : Group (logEngine 8),
    History [.ofDays 1, .ofDays 1] (scatteredWrites 864001) g ∧
      g.safeTimestampStep = some 172801 ∧ g.SafelyStepped [.ofDays 1, .ofDays 1] ∧
      Untied (scatteredWrites 864001) ∧
      (g.get sampleKey).1 = (g.asking.get sampleKey).1 ∧
      g.exist [sampleKey] = g.asking.exist [sampleKey] := by
  obtain ⟨g, performed, settled⟩ : ∃ g,
      (scatteredWrites 864001).foldlM (fun g op => GroupOp.perform op .default g) stepGroup =
        some g ∧ stepOutcome g = (some (.ofDays 2), some 172801, [950400, 172800, 604800]) := by
    apply Option.map_eq_some_iff.mp
    rfl
  have history : History [.ofDays 1, .ofDays 1] (scatteredWrites 864001) g :=
    history_stepGroup.writes performed
  have safely := safelyStepped_of_stepOutcome settled
  have untied : Untied (scatteredWrites 864001) := by
    intro key data bobMeta put delete
    have removed : bobMeta.timestamp = 864001 := by
      simp [scatteredWrites] at delete
      rw [delete.2]
    rw [removed]
    simp only [scatteredWrites, List.mem_cons, GroupOp.put.injEq, reduceCtorEq, List.not_mem_nil,
      or_false, false_or] at put
    rcases put with ⟨-, rfl⟩ | ⟨-, rfl⟩ | ⟨-, rfl⟩ | ⟨-, rfl⟩ <;> decide
  obtain ⟨gets, exist⟩ := history.skipping_keeps_answers (logEngine.lawful 8) safely untied
  exact ⟨g, history, congrArg (·.2.1) settled, safely, untied, gets sampleKey, exist _⟩

end Bob.Backend

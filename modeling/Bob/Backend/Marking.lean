/-
# What an unforced delete marks

An unforced delete visits the partitions that start before its timestamp and marks
the key where it is present. Two kinds of records are passed over. A partition that
starts in the very second of the delete is not visited; without rounding, that is the
partition of a value put in that second. And a key that is already deleted in a
partition gets no second marker, so the partition does not learn of the later time.
-/

import Bob.Backend.LastWriter

namespace Bob.Backend

open Bob.Configs

variable {keySize : ℕ} {engine : StorageEngine keySize}

namespace Holder

variable (lawful : engine.Lawful) (holder : Holder engine) (key : BobKey keySize)

/-- The key is present in the partition, in the sense of a conditional marker. -/
def Shows : Prop :=
  ∃ storage, holder.storage = some storage ∧ lawful.Present storage key

/-- The partition has a record of the key that a delete at this time is to hide. -/
def HasUpTo (timestamp : ℕ) : Prop :=
  ∃ r, holder.Has lawful key r ∧ r.timestamp ≤ timestamp

/-- An unforced delete at this time leaves the partition as it is, although it has a record
to hide. -/
inductive PassedOver (timestamp : ℕ) : Prop
  /-- The partition starts with the delete, and so does a value in it. -/
  | sameSecond (data : BobData) (starts : holder.startTimestamp = timestamp)
      (has : holder.Has lawful key (.value data))
      (written : data.bobMeta.timestamp.toNat = timestamp)
  /-- The key is not present, for instance as it is deleted already. -/
  | notShown (starts : holder.startTimestamp < timestamp)
      (has : holder.HasUpTo lawful key timestamp) (hidden : ¬ holder.Shows lawful key)

end Holder

namespace Group

variable {lawful : engine.Lawful} {key : BobKey keySize} {bobMeta : BobMeta} {g g' : Group engine}

/-- A conditional marker is added where the key is present. -/
private theorem has_deleteCommon_iff {holder : Holder engine} (running : holder.storage.isSome)
    (r : Record) :
    (deleteCommon holder key bobMeta false).2.Has lawful key r ↔ holder.Has lawful key r ∨
      holder.Shows lawful key ∧ r = .marker bobMeta.timestamp.toNat := by
  obtain ⟨storage, hstorage⟩ := Option.isSome_iff_exists.mp running
  obtain ⟨storage', count, deleted, holds⟩ :=
    lawful.exists_delete storage key bobMeta.timestamp.toNat
  have marked : (deleteCommon holder key bobMeta false).2 =
      { holder with storage := some storage' } := by
    simp only [deleteCommon, Holder.delete, hstorage, Bool.not_false, deleted]
  rw [marked]
  simp [Holder.Has, Holder.Shows, hstorage, holds]

/-- A partition that is not visited has nothing to hide, or it is passed over. -/
private theorem marker_iff_of_le {holder : Holder engine}
    (ordered : ∀ r, holder.Has lawful key r → holder.startTimestamp ≤ r.timestamp) {timestamp : ℕ}
    (late : timestamp ≤ holder.startTimestamp) :
    (holder.HasUpTo lawful key timestamp → holder.Has lawful key (.marker timestamp)) ↔
      (holder.PassedOver lawful key timestamp → holder.Has lawful key (.marker timestamp)) := by
  constructor
  · intro marked passed
    cases passed with
    | sameSecond data starts has written => exact marked ⟨_, has, written.le⟩
    | notShown starts => exact absurd starts late.not_gt
  · rintro marked ⟨r, has, le⟩
    have same : r.timestamp = timestamp := le_antisymm le (late.trans (ordered r has))
    cases r with
    | marker time => exact same ▸ has
    | value data =>
      have starts : holder.startTimestamp = timestamp :=
        le_antisymm ((ordered _ has).trans le) late
      exact marked (.sameSecond data starts has same)

/-- A visited partition gets the marker, or the key is not shown there. -/
private theorem marker_iff_of_lt {holder : Holder engine} (running : holder.storage.isSome)
    (before : holder.startTimestamp < bobMeta.timestamp.toNat) :
    ((deleteCommon holder key bobMeta false).2.HasUpTo lawful key bobMeta.timestamp.toNat →
      (deleteCommon holder key bobMeta false).2.Has lawful key
        (.marker bobMeta.timestamp.toNat)) ↔
      (holder.PassedOver lawful key bobMeta.timestamp.toNat →
        holder.Has lawful key (.marker bobMeta.timestamp.toNat)) := by
  by_cases shown : holder.Shows lawful key
  · have marked : (deleteCommon holder key bobMeta false).2.Has lawful key
        (.marker bobMeta.timestamp.toNat) :=
      (has_deleteCommon_iff running _).mpr (Or.inr ⟨shown, rfl⟩)
    refine iff_of_true (fun _ => marked) fun passed => ?_
    cases passed with
    | sameSecond data starts => exact absurd starts before.ne
    | notShown _ _ hidden => exact absurd shown hidden
  · have same (r : Record) : (deleteCommon holder key bobMeta false).2.Has lawful key r ↔
        holder.Has lawful key r := by
      rw [has_deleteCommon_iff running, or_iff_left fun added => shown added.1]
    simp only [Holder.HasUpTo, same]
    refine imp_congr_left ⟨fun has => .notShown before has shown, fun passed => ?_⟩
    cases passed with
    | sameSecond data _ has written => exact ⟨_, has, written.le⟩
    | notShown _ has => exact has

/-- Every partition with a record of the key up to the time has the marker of that time. -/
def Marked (lawful : engine.Lawful) (key : BobKey keySize) (timestamp : ℕ) (g : Group engine) :
    Prop :=
  ∀ holder ∈ g.holders, holder.HasUpTo lawful key timestamp →
    holder.Has lawful key (.marker timestamp)

/-- After an unforced delete, every partition with a record of the key that is not newer has
its marker if and only if the partitions that it passes over had that marker before. -/
theorem unforced_delete_marks_iff (lawful : engine.Lawful) (reached : Reached g)
    {config : StartTimestampConfig} {count : ℕ}
    (done : g.delete key bobMeta config false = .ok (.ok count, g')) :
    g'.Marked lawful key bobMeta.timestamp.toNat ↔
      ∀ holder ∈ g.holders, holder.PassedOver lawful key bobMeta.timestamp.toNat →
        holder.Has lawful key (.marker bobMeta.timestamp.toNat) := by
  have ordered := reached.inOrder lawful
  rw [delete_unforced_eq ordered.unlocked] at done
  cases done
  have visited := @forall₂_deleteInHoldersBefore _ _ g lawful key ordered.running _ bobMeta le_rfl
  have each (old new : Holder engine) (member : old ∈ g.holders)
      (result : new = if old.startTimestamp < bobMeta.timestamp.toNat
        then (deleteCommon old key bobMeta false).2 else old) :
      (new.HasUpTo lawful key bobMeta.timestamp.toNat →
        new.Has lawful key (.marker bobMeta.timestamp.toNat)) ↔
      (old.PassedOver lawful key bobMeta.timestamp.toNat →
        old.Has lawful key (.marker bobMeta.timestamp.toNat)) := by
    rw [result]
    split
    · exact marker_iff_of_lt (ordered.running old member) (by assumption)
    · exact marker_iff_of_le (ordered.start_le old member key) (not_lt.mp (by assumption))
  constructor
  · intro marked old member
    obtain ⟨new, hnew, -, result⟩ := Math.exists_mem_of_forall₂ visited.flip member
    exact (each old new member result).mp (marked new hnew)
  · intro marked new member
    obtain ⟨old, hold, -, result⟩ := Math.exists_mem_of_forall₂ visited member
    exact (each old new hold result).mpr (marked old hold)

/-- A group with partitions of a day, one of which has been used. -/
def usedGroup (start : ℕ) (records : List Record) : Group (logEngine 8) :=
  { dayGroup with holders :=
      [⟨start, start + secsPerDay, some (records.map fun r => (sampleKey, r))⟩] }

/-- The group after a put without rounding. -/
private theorem reached_put : Reached (usedGroup 100 [.value (sampleData 1 100)]) := by
  have put : dayGroup.put sampleKey (sampleData 1 100) ⟨false⟩ =
      .ok (.ok (), usedGroup 100 [.value (sampleData 1 100)]) := rfl
  exact (Reached.new ..).put put

/-- A delete one second after the put marks the value. -/
theorem marked_next_second : ∃ (g g' : Group (logEngine 8)) (count : ℕ), Reached g ∧
    g.delete sampleKey ⟨101⟩ ⟨false⟩ false = .ok (.ok count, g') ∧
    g'.Marked (logEngine.lawful 8) sampleKey 101 := by
  have done : (usedGroup 100 [.value (sampleData 1 100)]).delete sampleKey ⟨101⟩ ⟨false⟩ false =
      .ok (.ok 1, usedGroup 100 [.value (sampleData 1 100), .marker 101]) := rfl
  refine ⟨_, _, _, reached_put, done, (unforced_delete_marks_iff _ reached_put done).mpr ?_⟩
  intro holder member passed
  cases List.mem_singleton.mp member
  cases passed with
  | sameSecond data starts => exact absurd starts (by decide)
  | notShown _ _ hidden => exact absurd ⟨_, rfl, rfl⟩ hidden

private theorem not_marked_usedGroup {start timestamp : ℕ} {records : List Record}
    (old : ∃ r ∈ records, r.timestamp ≤ timestamp) (unmarked : .marker timestamp ∉ records) :
    ¬ (usedGroup start records).Marked (logEngine.lawful 8) sampleKey timestamp := by
  intro marked
  have has (r : Record) : Holder.Has (logEngine.lawful 8) ⟨start, start + secsPerDay,
      some (records.map fun r => (sampleKey, r))⟩ sampleKey r ↔ r ∈ records := by
    have recorded : r ∈ Log.recordsOf (records.map fun r => (sampleKey, r)) sampleKey ↔
        r ∈ records := by
      simp [Log.mem_recordsOf]
    rw [← recorded]
    exact ⟨fun ⟨_, rfl, holds⟩ => holds, fun holds => ⟨_, rfl, holds⟩⟩
  obtain ⟨r, member, le⟩ := old
  exact unmarked ((has _).mp (marked _ (List.mem_singleton_self _) ⟨r, (has r).mpr member, le⟩))

/-- A delete in the second of the put does nothing, and the value is still read. And a key that
is already deleted does not get the later marker. -/
theorem unforced_deletes_mark_nothing :
    (∃ g : Group (logEngine 8), Reached g ∧
      g.delete sampleKey ⟨100⟩ ⟨false⟩ false = .ok (.ok 0, g) ∧
      (g.get sampleKey).1 = .ok (sampleData 1 100) ∧
      ¬ g.Marked (logEngine.lawful 8) sampleKey 100) ∧
    ∃ g : Group (logEngine 8), Reached g ∧
      g.delete sampleKey ⟨300⟩ ⟨true⟩ false = .ok (.ok 0, g) ∧
      ¬ g.Marked (logEngine.lawful 8) sampleKey 300 := by
  have deleted : Reached (usedGroup 0 [.value (sampleData 1 100), .marker 200]) := by
    have put : dayGroup.put sampleKey (sampleData 1 100) ⟨true⟩ =
        .ok (.ok (), usedGroup 0 [.value (sampleData 1 100)]) := rfl
    have delete : (usedGroup 0 [.value (sampleData 1 100)]).delete sampleKey ⟨200⟩ ⟨true⟩ false =
        .ok (.ok 1, usedGroup 0 [.value (sampleData 1 100), .marker 200]) := rfl
    exact ((Reached.new ..).put put).delete delete
  refine ⟨⟨_, reached_put, rfl, rfl, not_marked_usedGroup ?_ ?_⟩,
    ⟨_, deleted, rfl, not_marked_usedGroup ?_ ?_⟩⟩
  all_goals decide

end Group

end Bob.Backend

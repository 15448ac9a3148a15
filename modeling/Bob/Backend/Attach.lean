/-
# Attaching a partition

An operator names the partition to attach by its start. The check that the group does
not have it yet compares starts with the name as given. The partition itself is made
as a write would make it, so its start is rounded. Both mean the same partition only if
the given start is the start of a slot. For other starts the group ends up with a
partition that was not asked for, and it may have had that partition before: then two
storages are open in one directory.
-/

import Bob.Backend.Holders

namespace Bob.Backend

open Bob.Configs Bob.Math

variable {keySize : ℕ} {engine : StorageEngine keySize} {filter : EngineFilter engine}
  {C : HoldersContainer filter} {removal : Removal}

namespace HolderGroup

variable {g g' : HolderGroup C} {secs last time : ℕ} {config : StartTimestampConfig}
  {key : BobKey keySize} {target : Target engine}

/-! ## What commands leave alone -/

/-- The intervals of the partitions, and the hashes of their directories. -/
def shape (g : HolderGroup C) : List ((ℕ × ℕ) × String) :=
  g.partitions.map fun partition => (partition.holder.interval, partition.hash)

/-- The partitions are in the same directories, with the same intervals. -/
structure SameShape (g g' : HolderGroup C) : Prop where
  settings : g'.settings = g.settings
  shape : g'.shape = g.shape

namespace SameShape

theorem refl : SameShape g g := ⟨rfl, rfl⟩

theorem trans {g'' : HolderGroup C} (first : SameShape g g') (second : SameShape g' g'') :
    SameShape g g'' :=
  ⟨second.settings.trans first.settings, second.shape.trans first.shape⟩

end SameShape

section Laws

variable (laws : C.Lawful filter.has removal)

include laws

theorem sameShape_setPartition {position : ℕ} {partition : Partition engine}
    {holder : Holder engine} (here : g.partitions[position]? = some partition)
    (same : holder.interval = partition.holder.interval) :
    SameShape g (g.setPartition position (partition.withHolder holder)) := by
  refine ⟨rfl, ?_⟩
  rw [shape, partitions_setPartition laws]
  exact map_set_of_eq here (by rw [Partition.withHolder, same])

theorem sameShape_addToParents {id : ℕ} : SameShape g (g.addToParents id key) := by
  refine ⟨rfl, ?_⟩
  rw [shape, partitions_addToParents laws, shape]

theorem sameShape_written {holder : Holder engine} {succeeded : Bool}
    (here : g.partitions[target.position]? = some target.partition)
    (same : holder.interval = target.partition.holder.interval) :
    SameShape g (g.written target holder key succeeded) := by
  unfold written
  dsimp only
  split_ifs
  · exact (sameShape_setPartition laws here same).trans (sameShape_addToParents laws)
  · exact sameShape_setPartition laws here same

theorem sameShape_deleteInHoldersBefore {bobMeta : BobMeta} {reference : ℕ} :
    SameShape g (g.deleteInHoldersBefore reference key bobMeta).2 :=
  deleteInHoldersBefore_induction (P := SameShape g) .refl fun _ _ _ here same =>
    same.trans (sameShape_setPartition laws here Holder.interval_deleteCommon)

end Laws

/-! ## Directories -/

/-- No two partitions have one directory, and all have the length of the period. -/
structure Slotted (secs : ℕ) (g : HolderGroup C) : Prop where
  daily : DailyPeriod g.settings.timestampPeriod secs
  names : (g.partitions.map (·.name)).Nodup
  ends : ∀ partition ∈ g.partitions,
    partition.holder.endTimestamp = partition.holder.startTimestamp + secs

namespace Slotted

theorem of_sameShape (slotted : g.Slotted secs) (same : SameShape g g') : g'.Slotted secs := by
  have names : ∀ h : HolderGroup C, h.partitions.map (·.name) =
      h.shape.map fun entry => ⟨entry.1.1, entry.2⟩ := fun h => by rw [shape, List.map_map]; rfl
  have ends : ∀ h : HolderGroup C, (∀ partition ∈ h.partitions,
      partition.holder.endTimestamp = partition.holder.startTimestamp + secs) ↔
      ∀ entry ∈ h.shape, entry.1.2 = entry.1.1 + secs := fun h => by
    rw [shape, List.forall_mem_map]
    exact Iff.rfl
  refine ⟨same.settings ▸ slotted.daily, ?_, ?_⟩
  · rw [names, same.shape, ← names]
    exact slotted.names
  · rw [ends, same.shape, ← ends]
    exact slotted.ends

variable (laws : C.Lawful filter.has removal)

include laws

/-- A partition is added whose start no other has. -/
theorem push {partition : Partition engine} {storage : engine.Storage} (slotted : g.Slotted secs)
    (fresh : ∀ other ∈ g.partitions,
      other.holder.startTimestamp ≠ partition.holder.startTimestamp)
    (ends : partition.holder.endTimestamp = partition.holder.startTimestamp + secs) :
    (g.push partition storage).2.Slotted secs := by
  refine ⟨slotted.daily, ?_, ?_⟩
  · rw [partitions_push laws, List.map_append, List.map_singleton]
    refine slotted.names.append (List.nodup_singleton _) ?_
    intro name earlier here
    obtain ⟨other, hother, rfl⟩ := List.mem_map.mp earlier
    exact fresh other hother (congrArg PartitionName.timestamp (List.mem_singleton.mp here))
  · intro other hother
    rw [partitions_push laws, List.mem_append, List.mem_singleton] at hother
    obtain hother | rfl := hother
    · exact slotted.ends other hother
    · exact ends

/-- A new partition covers a time that no other covers. One with its start would end
with it too, and cover that time. -/
theorem located {located : HolderGroup C} (slotted : g.Slotted secs)
    (reached : Located g time config target located) : located.Slotted secs := by
  cases reached with
  | found => exact slotted
  | created looked made =>
    obtain ⟨holder, created, made⟩ := bind_eq_ok_iff.mp made
    cases made
    have covers := Group.getsIntoInterval_of_created slotted.daily created
    have ends := (Group.createPearlByTimestamp_eq_ok slotted.daily created).2.1
    refine slotted.push laws (fun other hother => ?_) ends
    exact Group.startTimestamp_ne_of_covers ends (slotted.ends other hother) covers
      (findActualHolder_eq_none looked other hother)

theorem detach {now : ℕ} (slotted : g.Slotted secs) :
    (g.detach time now).2.Slotted secs := by
  have sublist : (C.iter (C.removeWhere g.holders (detaches time now)).2).Sublist g.partitions :=
    laws.iter_removeWhere_sublist
  rw [detach_snd]
  refine ⟨slotted.daily, slotted.names.sublist (sublist.map _), fun partition here => ?_⟩
  exact slotted.ends partition (sublist.mem here)

end Slotted

/-! ## What attaching adds -/

/-- The partition that an attach makes starts with the slot of the given start. -/
theorem start_of_createPearlByTimestamp {pearl : Partition engine}
    (daily : DailyPeriod g.settings.timestampPeriod secs)
    (made : g.createPearlByTimestamp time .default = .ok pearl) :
    pearl.holder.startTimestamp = slotStart secs time ∧
      pearl.holder.endTimestamp = pearl.holder.startTimestamp + secs := by
  obtain ⟨holder, created, made⟩ := bind_eq_ok_iff.mp made
  cases made
  obtain ⟨start, ends, -⟩ := Group.createPearlByTimestamp_eq_ok daily created
  exact ⟨start, ends⟩

/-- Attaches name the start of a slot, or one that a partition has already. -/
def AttachesAligned (secs : ℕ) (g : HolderGroup C) : Command engine → Prop
  | .attach startTimestamp _ => slotStart secs startTimestamp = startTimestamp ∨
      ∃ partition ∈ g.partitions, partition.holder.startTimestamp = startTimestamp
  | _ => True

section Runs

variable (laws : C.Lawful filter.has removal)

include laws

theorem Slotted.step (slotted : g.Slotted secs)
    (step : Step (AttachesAligned secs) g g') : g'.Slotted secs := by
  obtain ⟨command, allowed, performed⟩ := step
  cases command with
  | put key data config opened =>
    obtain ⟨⟨res, goal, h⟩, done, performed⟩ := bind_eq_ok_iff.mp performed
    cases performed
    obtain ⟨-, rfl⟩ | ⟨target, located, holder, -, reached, outcome, rfl⟩ := put_cases done
    · exact slotted
    · have same : (Group.putCommon target.partition.holder key data).2.interval = _ :=
        Holder.interval_putCommon
      rw [outcome] at same
      exact (slotted.located laws reached).of_sameShape
        (sameShape_written laws (reached.getElem? laws) same)
  | delete key bobMeta config forceDelete opened =>
    obtain ⟨⟨res, goal, h⟩, done, performed⟩ := bind_eq_ok_iff.mp performed
    cases performed
    obtain ⟨-, same⟩ | ⟨target, located, marked, holder, -, -, reached, outcome, after⟩ :=
      delete_cases done
    · obtain rfl | ⟨reference, rfl⟩ := same
      · exact slotted
      · exact slotted.of_sameShape (sameShape_deleteInHoldersBefore laws)
    · have same : (Group.deleteCommon target.partition.holder key bobMeta true).2.interval = _ :=
        Holder.interval_deleteCommon
      rw [outcome] at same
      have written : (located.written target holder key marked.isOk).Slotted secs :=
        (slotted.located laws reached).of_sameShape
        (sameShape_written laws (reached.getElem? laws) same)
      obtain rfl | ⟨reference, rfl⟩ := after
      · exact written
      · exact written.of_sameShape (sameShape_deleteInHoldersBefore laws)
  | attach startTimestamp opened =>
    obtain ⟨⟨res, h⟩, done, performed⟩ := bind_eq_ok_iff.mp performed
    cases performed
    obtain ⟨-, rfl, -⟩ | ⟨-, fresh, pearl, storage, -, made, rfl⟩ := attach_cases done
    · exact slotted
    · obtain ⟨start, ends⟩ := start_of_createPearlByTimestamp slotted.daily made
      obtain aligned | ⟨partition, here, same⟩ := allowed
      · rw [aligned] at start
        refine slotted.push laws (fun other hother => ?_) ends
        exact fun same => fresh other hother (same.trans start)
      · exact absurd same (fresh partition here)
  | detach startTimestamp now =>
    cases performed
    exact slotted.detach laws

theorem Slotted.run (slotted : g.Slotted secs)
    (run : Relation.ReflTransGen (Step (AttachesAligned secs)) g g') : g'.Slotted secs := by
  induction run with
  | refl => exact slotted
  | tail _ step ih => exact ih.step laws step

end Runs

/-- An attach succeeds only if no partition has the given start, and then it adds exactly
the partition with that start, if and only if the start is that of a slot, or a
partition has it already, or the calendar ends in its slot. Along runs whose attaches
are like that, no two partitions have one directory. -/
theorem attach_adds_requested_iff (laws : C.Lawful filter.has removal)
    (daily : DailyPeriod g.settings.timestampPeriod secs)
    (calendar : g.settings.CalendarEndsAt last) (inside : time ≤ last) (storage : engine.Storage) :
    ((∀ g', g.attach time (.ok storage) = .ok (.ok (), g') →
        (∀ partition ∈ g.partitions, partition.holder.startTimestamp ≠ time) ∧
        ∃ new, g'.partitions = g.partitions ++ [new] ∧ new.holder.startTimestamp = time) ↔
      slotStart secs time = time ∨
      (∃ partition ∈ g.partitions, partition.holder.startTimestamp = time) ∨
      last < slotStart secs time + secs) ∧
    ((g.partitions.map (·.name)).Nodup →
      (∀ partition ∈ g.partitions,
        partition.holder.endTimestamp = partition.holder.startTimestamp + secs) →
      ∀ g' : HolderGroup C, Relation.ReflTransGen (Step (AttachesAligned secs)) g g' →
        (g'.partitions.map (·.name)).Nodup) := by
  refine ⟨⟨fun requested => ?_, fun condition g' done => ?_⟩, fun names ends g' run => ?_⟩
  · by_contra other
    simp only [not_or, not_exists, not_and, not_lt] at other
    obtain ⟨unaligned, fresh, ends⟩ := other
    obtain ⟨holder, created⟩ :=
      (Group.exists_createPearlByTimestamp_iff daily calendar).mpr ⟨inside, fun _ => ends⟩
    have made : g.createPearlByTimestamp time .default = .ok ⟨holder, g.ownerNodeHash⟩ :=
      bind_eq_ok_iff.mpr ⟨holder, created, rfl⟩
    have done : g.attach time (.ok storage) =
        .ok (.ok (), (g.push (Partition.openStorage ⟨holder, g.ownerNodeHash⟩ storage)
          storage).2) := by
      rw [attach, if_neg (by simpa [view] using fresh)]
      exact bind_eq_ok_iff.mpr ⟨_, made, rfl⟩
    obtain ⟨-, new, iter, start⟩ := requested _ done
    rw [partitions_push laws, List.append_cancel_left_eq, List.singleton_inj] at iter
    subst iter
    exact unaligned ((start_of_createPearlByTimestamp daily made).1.symm.trans start)
  · obtain ⟨failed, -⟩ | ⟨-, fresh, pearl, storage', -, made, rfl⟩ := attach_cases done
    · exact absurd rfl failed
    refine ⟨fresh, pearl.openStorage storage', partitions_push laws, ?_⟩
    have start : (pearl.openStorage storage').holder.startTimestamp = slotStart secs time :=
      (start_of_createPearlByTimestamp daily made).1
    obtain aligned | ⟨partition, here, same⟩ | behind := condition
    · rw [start, aligned]
    · exact absurd same (fresh partition here)
    · obtain ⟨holder, created, -⟩ := bind_eq_ok_iff.mp made
      have ends := ((Group.exists_createPearlByTimestamp_iff daily calendar).mp ⟨holder, created⟩).2
      exact absurd (ends rfl) (not_le.mpr behind)
  · exact (Slotted.run laws ⟨daily, names, ends⟩ run).names

/-! ## Two attaches in one slot -/

theorem aligned_attach_adds_requested : ∃ g' : HolderGroup holes,
    (dailyGroup holes).attach 86400 (.ok []) = .ok (.ok (), g') ∧
    (∃ new, g'.partitions = [] ++ [new] ∧ new.holder.startTimestamp = 86400) ∧
    (g'.partitions.map (·.name)).Nodup := by
  have daily : DailyPeriod (dailyGroup holes).settings.timestampPeriod 86400 :=
    ⟨by decide, by decide, by decide⟩
  have calendar : (dailyGroup holes).settings.CalendarEndsAt 8210266876799 :=
    ⟨fun time => by simp [dailyGroup, new, Group.chronoSettings], by decide⟩
  obtain ⟨requested, distinct⟩ :=
    @attach_adds_requested_iff _ _ _ _ _ _ _ _ 86400 ChildContainer.grouped_lawful daily calendar
      (by decide) []
  refine ⟨_, rfl, (requested.mpr (Or.inl rfl) _ rfl).2, ?_⟩
  refine distinct .nil (by rintro _ ⟨⟩) _ (.single ?_)
  exact ⟨.attach 86400 (.ok []), Or.inl rfl, rfl⟩

/-- The partition of a day is attached by its start, and then once more by the middle of
the day: both succeed, and the group has the directory of the day twice. -/
theorem two_attaches_share_a_directory : ∃ g g' : HolderGroup holes,
    (dailyGroup holes).attach 86400 (.ok []) = .ok (.ok (), g) ∧
    g.attach 129600 (.ok []) = .ok (.ok (), g') ∧
    g'.partitions.map (·.name) = [⟨86400, "rXoJ"⟩, ⟨86400, "rXoJ"⟩] :=
  ⟨_, _, rfl, rfl, rfl⟩

end HolderGroup

end Bob.Backend

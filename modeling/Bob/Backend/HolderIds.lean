/-
# Ids after a detach

A write passes the place of its partition in the iteration to the container as if it
were an id, and a detach removes children while it goes through the ids. The first is
right as long as no smaller id is empty, so after a detach it needs a container that
moves later children down. The second misses no child if ids stay, so it needs a
container that leaves a hole. With holes, a key ends up in the filters above another
partition, and a read does not find it if the filters above its own partition are there.
Without, a detach keeps the second of two neighbours that it was to remove.
-/

import Bob.Backend.Holders

namespace Bob.Backend

open Bob.Configs Bob.Math

variable {keySize : ℕ} {engine : StorageEngine keySize} {filter : EngineFilter engine}
  {C : HoldersContainer filter}

/-! ## The keys of a partition -/

namespace Holder

/-- The partition has a record of the key. -/
def HasKey (lawful : engine.Lawful) (holder : Holder engine) (key : BobKey keySize) : Prop :=
  ∃ storage r, holder.storage = some storage ∧ lawful.Holds storage key r

variable {holder : Holder engine} {key : BobKey keySize}

/-- A put to a partition that runs adds no key but its own. -/
theorem hasKey_putCommon (lawful : engine.Lawful) (running : holder.storage.isSome)
    (data : BobData) : ∃ written, Group.putCommon holder key data = (.ok (), written) ∧
      written.storage.isSome ∧
      ∀ other, written.HasKey lawful other → holder.HasKey lawful other ∨ other = key := by
  obtain ⟨storage, hstorage⟩ := Option.isSome_iff_exists.mp running
  obtain ⟨after, hafter, holds⟩ := lawful.exists_write storage key data
  refine ⟨{ holder with storage := some after }, ?_, rfl, ?_⟩
  · simp only [Group.putCommon, write, hstorage, hafter]
  · rintro other ⟨_, r, ⟨⟩, held⟩
    exact ((holds other r).mp held).imp (fun had => ⟨storage, r, hstorage, had⟩) And.left

/-- A mark in a partition that runs adds no key but its own, and not even that one if
the key has to be present. -/
theorem hasKey_deleteCommon (lawful : engine.Lawful) (running : holder.storage.isSome)
    (bobMeta : BobMeta) (force : Bool) : ∃ count marked,
      Group.deleteCommon holder key bobMeta force = (.ok count, marked) ∧
      marked.storage.isSome ∧ ∀ other, marked.HasKey lawful other →
        holder.HasKey lawful other ∨ (force = true ∧ other = key) := by
  obtain ⟨storage, hstorage⟩ := Option.isSome_iff_exists.mp running
  cases force with
  | true =>
    obtain ⟨after, count, hafter, holds⟩ :=
      lawful.exists_forced_delete storage key bobMeta.timestamp.toNat
    refine ⟨count, { holder with storage := some after }, ?_, rfl, ?_⟩
    · simp only [Group.deleteCommon, delete, hstorage, Bool.not_true, hafter]
    · rintro other ⟨_, r, ⟨⟩, held⟩
      exact ((holds other r).mp held).imp (fun had => ⟨storage, r, hstorage, had⟩)
        fun added => ⟨rfl, added.1⟩
  | false =>
    obtain ⟨after, count, hafter, holds⟩ :=
      lawful.exists_delete storage key bobMeta.timestamp.toNat
    refine ⟨count, { holder with storage := some after }, ?_, rfl, ?_⟩
    · simp only [Group.deleteCommon, delete, hstorage, Bool.not_false, hafter]
    · rintro other ⟨_, r, ⟨⟩, held⟩
      obtain had | ⟨present, rfl, -⟩ := (holds other r).mp held
      · exact Or.inl ⟨storage, r, hstorage, had⟩
      · cases newest : lawful.newest storage other with
        | none => exact absurd present (lawful.not_present_of_none newest)
        | some r => exact Or.inl ⟨storage, r, hstorage, (lawful.newest_some newest).1⟩

end Holder

namespace HolderGroup

variable {g g' : HolderGroup C} {lawful : engine.Lawful} {removal : Removal} {time now : ℕ}
  {config : StartTimestampConfig} {key : BobKey keySize} {target : Target engine}

/-! ## When the commands use the right ids -/

/-- Of the partitions that cover a time, the one at this place starts last, and of equal starts
it comes first. -/
structure Latest (g : HolderGroup C) (time position : ℕ) (partition : Partition engine) :
    Prop where
  here : g.partitions[position]? = some partition
  covers : partition.holder.getsIntoInterval time = true
  last : ∀ i other, g.partitions[i]? = some other → other.holder.getsIntoInterval time = true →
    other.holder.startTimestamp < partition.holder.startTimestamp ∨
      other.holder.startTimestamp = partition.holder.startTimestamp ∧ position ≤ i

/-- No id up to the place of the partition that covers the time and starts last is empty. -/
def NoHoleBelow (g : HolderGroup C) (time : ℕ) : Prop :=
  ∀ position partition, g.Latest time position partition →
    ∀ id ≤ position, (C.getChild g.holders id).isSome = true

/-- If children move down, no two neighbours are to be removed. -/
def DetachesApart (removal : Removal) (g : HolderGroup C) (startTimestamp now : ℕ) : Prop :=
  removal = .shiftsDown → g.partitions.IsChain fun a b =>
    ¬ (detaches startTimestamp now a = true ∧ detaches startTimestamp now b = true)

/-- The commands that use the right ids. -/
def Safe (removal : Removal) (g : HolderGroup C) : Command engine → Prop
  | .put _ data _ _ => g.NoHoleBelow data.bobMeta.timestamp.toNat
  | .delete _ bobMeta _ forceDelete _ =>
    forceDelete = true → g.NoHoleBelow bobMeta.timestamp.toNat
  | .attach _ _ => True
  | .detach startTimestamp now => g.DetachesApart removal startTimestamp now

theorem Latest.unique {position position' : ℕ} {partition partition' : Partition engine}
    (latest : g.Latest time position partition) (other : g.Latest time position' partition') :
    position = position' := by
  have one := latest.last _ _ other.here other.covers
  have two := other.last _ _ latest.here latest.covers
  omega

/-- A write goes to the partition that covers its timestamp and starts last. -/
theorem latest_of_findActualHolder (looked : g.findActualHolder time = some target) :
    g.Latest time target.position target.partition := by
  obtain ⟨here, -, covers⟩ := findActualHolder_eq_some looked
  refine ⟨here, covers, fun i other listed covered => ?_⟩
  unfold findActualHolder at looked
  split at looked
  · rename_i position holder found
    obtain ⟨partition, hpartition, rfl⟩ := Option.map_eq_some_iff.mp looked
    have first := (Group.findActualHolder_spec found).1
    rw [view, List.getElem?_map, hpartition, Option.map_some, Option.some.injEq] at first
    subst first
    refine Group.latest_of_findActualHolder found ?_ covered
    rw [view, List.getElem?_map, listed]
    rfl
  · cases looked

section Laws

variable (laws : C.Lawful filter.has removal)

include laws

/-- The id that goes with the place of a write is that of the partition exactly if no
smaller id is empty. -/
theorem Located.idAt_iff {located : HolderGroup C}
    (reached : Located g time config target located) :
    C.idAt located.holders target.position = some target.id ↔ g.NoHoleBelow time := by
  cases reached with
  | found looked =>
    obtain ⟨here, same, -⟩ := findActualHolder_eq_some looked
    have latest := latest_of_findActualHolder looked
    rw [same, ChildContainer.idAt, idAt_eq_self_iff here]
    constructor
    · intro all position partition other
      rw [← latest.unique other]
      exact all
    · exact fun below => below _ _ latest
  | created looked made =>
    refine iff_of_true (laws.idAt_push _ _ _) fun position partition latest => ?_
    have uncovered := findActualHolder_eq_none looked _ (List.mem_of_getElem? latest.here)
    cases uncovered.symm.trans latest.covers

theorem idAt_setPartition {position other : ℕ} {partition : Partition engine} :
    C.idAt (g.setPartition position partition).holders other = C.idAt g.holders other :=
  laws.idAt_modifyAt g.holders position partition other

theorem idAt_written {holder : Holder engine} {succeeded : Bool} {position : ℕ} :
    C.idAt (g.written target holder key succeeded).holders position =
      C.idAt g.holders position := by
  unfold written
  dsimp only
  split_ifs
  · rw [addToParents, laws.idAt_addToParents, idAt_setPartition laws]
  · rw [idAt_setPartition laws]

theorem idAt_deleteInHoldersBefore {bobMeta : BobMeta} {reference position : ℕ} :
    C.idAt (g.deleteInHoldersBefore reference key bobMeta).2.holders position =
      C.idAt g.holders position :=
  deleteInHoldersBefore_induction
    (P := fun h => C.idAt h.holders position = C.idAt g.holders position) rfl
    fun _ _ _ _ same => (idAt_setPartition laws).trans same

theorem put_idAt_iff {data : BobData} {opened : Except OpenError engine.Storage}
    {res : Except (Error keySize) Unit}
    (done : g.put key data config opened = .ok (res, some target, g')) :
    C.idAt g'.holders target.position = some target.id ↔
      g.NoHoleBelow data.bobMeta.timestamp.toNat := by
  obtain ⟨none, -⟩ | ⟨_, located, holder, same, reached, -, rfl⟩ := put_cases done
  · cases none
  · cases same
    rw [idAt_written laws, reached.idAt_iff laws]

theorem delete_idAt_iff {bobMeta : BobMeta} {forceDelete : Bool}
    {opened : Except OpenError engine.Storage} {res : Except (Error keySize) ℕ}
    (done : g.delete key bobMeta config forceDelete opened = .ok (res, some target, g')) :
    C.idAt g'.holders target.position = some target.id ↔
      g.NoHoleBelow bobMeta.timestamp.toNat := by
  obtain ⟨none, -⟩ | ⟨_, located, marked, holder, -, same, reached, -, after⟩ := delete_cases done
  · cases none
  · cases same
    obtain rfl | ⟨reference, rfl⟩ := after
    · rw [idAt_written laws, reached.idAt_iff laws]
    · rw [idAt_deleteInHoldersBefore laws, idAt_written laws, reached.idAt_iff laws]

/-- A detach removes everything that it is to remove exactly if it does not pass over a
neighbour. -/
theorem detach_removes_iff :
    (∀ partition ∈ (g.detach time now).2.partitions, detaches time now partition = false) ↔
      g.DetachesApart removal time now := by
  rw [detach_snd]
  change (∀ partition ∈ C.iter (C.removeWhere g.holders (detaches time now)).2, _) ↔ _
  cases removal with
  | leavesHole =>
    refine iff_of_true (fun partition here => ?_) nofun
    rw [ChildContainer.iter_removeWhere_of_leavesHole laws] at here
    simpa using (List.mem_filter.mp here).2
  | shiftsDown =>
    rw [ChildContainer.iter_removeWhere_of_shiftsDown laws, ChildContainer.forall_passOver_iff]
    exact ⟨fun apart _ => apart, fun apart => apart rfl⟩

end Laws

/-! ## Filters along runs -/

/-- All partitions run, and the filters above a partition have its keys. -/
structure Filtered (lawful : engine.Lawful) (g : HolderGroup C) : Prop where
  running : ∀ partition ∈ g.partitions, partition.holder.storage.isSome
  covered : C.Covered (fun partition key => partition.holder.HasKey lawful key) g.holders

namespace Filtered

section Laws

variable (laws : C.Lawful filter.has removal)

include laws

/-- An open partition is added, with the filter of its storage. -/
theorem push {pearl : Partition engine} {storage : engine.Storage} (filtered : g.Filtered lawful)
    (complete : filter.Complete lawful) :
    (g.push (pearl.openStorage storage) storage).2.Filtered lawful := by
  refine ⟨fun partition here => ?_, filtered.covered.push laws ?_⟩
  · rw [partitions_push laws, List.mem_append, List.mem_singleton] at here
    obtain here | rfl := here
    · exact filtered.running partition here
    · rfl
  · rintro key ⟨_, r, ⟨⟩, held⟩
    exact complete storage key r held

theorem located {located : HolderGroup C} (filtered : g.Filtered lawful)
    (complete : filter.Complete lawful) (reached : Located g time config target located) :
    located.Filtered lawful := by
  cases reached with
  | found => exact filtered
  | created => exact filtered.push laws complete

/-- The partition at a place has a new holder that runs. -/
private theorem running_setPartition {position : ℕ} {partition : Partition engine}
    {holder : Holder engine} (filtered : g.Filtered lawful) (running : holder.storage.isSome) :
    ∀ other ∈ (g.setPartition position (partition.withHolder holder)).partitions,
      other.holder.storage.isSome := by
  intro other here
  rw [partitions_setPartition laws] at here
  obtain here | rfl := List.mem_or_eq_of_mem_set here
  · exact filtered.running other here
  · exact running

/-- A write that added its key under the id of the partition. -/
theorem written {holder : Holder engine} (filtered : g.Filtered lawful)
    (here : g.partitions[target.position]? = some target.partition)
    (named : C.idAt g.holders target.position = some target.id) (running : holder.storage.isSome)
    (grows : ∀ other, holder.HasKey lawful other →
      target.partition.holder.HasKey lawful other ∨ other = key) :
    (g.written target holder key true).Filtered lawful := by
  refine ⟨?_, filtered.covered.write laws here named grows⟩
  intro other member
  rw [HolderGroup.written, if_pos rfl, partitions_addToParents laws] at member
  exact filtered.running_setPartition laws running other member

theorem deleteInHoldersBefore {bobMeta : BobMeta} {reference : ℕ} (filtered : g.Filtered lawful) :
    (g.deleteInHoldersBefore reference key bobMeta).2.Filtered lawful := by
  refine deleteInHoldersBefore_induction (P := Filtered lawful) filtered ?_
  intro h position partition here filtered
  obtain ⟨count, marked, outcome, running, grows⟩ := @Holder.hasKey_deleteCommon _ _ _ key lawful
    (filtered.running partition (List.mem_of_getElem? here)) bobMeta false
  rw [outcome]
  refine ⟨filtered.running_setPartition laws running,
    filtered.covered.modifyAt laws here fun other has => ?_⟩
  exact (grows other has).resolve_right (by simp)

theorem step (filtered : g.Filtered lawful) (complete : filter.Complete lawful)
    (step : Step (Safe removal) g g') : g'.Filtered lawful := by
  obtain ⟨command, safe, performed⟩ := step
  cases command with
  | put key data config opened =>
    obtain ⟨⟨res, goal, h⟩, done, performed⟩ := bind_eq_ok_iff.mp performed
    cases performed
    obtain ⟨-, rfl⟩ | ⟨target, located, holder, -, reached, outcome, rfl⟩ := put_cases done
    · exact filtered
    have before := filtered.located laws complete reached
    obtain ⟨written, same, running, grows⟩ := @Holder.hasKey_putCommon _ _ _ key lawful
      (before.running _ (List.mem_of_getElem? (reached.getElem? laws))) data
    cases outcome.symm.trans same
    exact before.written laws (reached.getElem? laws) ((reached.idAt_iff laws).mpr safe) running
      grows
  | delete key bobMeta config forceDelete opened =>
    obtain ⟨⟨res, goal, h⟩, done, performed⟩ := bind_eq_ok_iff.mp performed
    cases performed
    obtain ⟨-, same⟩ | ⟨target, located, marked, holder, force, -, reached, outcome, after⟩ :=
      delete_cases done
    · obtain rfl | ⟨reference, rfl⟩ := same
      · exact filtered
      · exact filtered.deleteInHoldersBefore laws
    have before := filtered.located laws complete reached
    obtain ⟨count, written, same, running, grows⟩ := @Holder.hasKey_deleteCommon _ _ _ key lawful
      (before.running _ (List.mem_of_getElem? (reached.getElem? laws))) bobMeta true
    cases outcome.symm.trans same
    have settled : (located.written target holder key true).Filtered lawful :=
      before.written laws (reached.getElem? laws) ((reached.idAt_iff laws).mpr (safe force)) running
        fun other has => (grows other has).imp_right And.right
    obtain rfl | ⟨reference, rfl⟩ := after
    · exact settled
    · exact settled.deleteInHoldersBefore laws
  | attach startTimestamp opened =>
    obtain ⟨⟨res, h⟩, done, performed⟩ := bind_eq_ok_iff.mp performed
    cases performed
    obtain ⟨-, rfl, -⟩ | ⟨-, -, pearl, storage, -, -, rfl⟩ := attach_cases done
    · exact filtered
    · exact filtered.push laws complete
  | detach startTimestamp now =>
    cases performed
    rw [detach_snd]
    refine ⟨fun partition here => ?_, filtered.covered.removeWhere laws⟩
    exact filtered.running partition (laws.iter_removeWhere_sublist.mem here)

theorem run (filtered : g.Filtered lawful) (complete : filter.Complete lawful)
    (run : Relation.ReflTransGen (Step (Safe removal)) g g') : g'.Filtered lawful := by
  induction run with
  | refl => exact filtered
  | tail _ step ih => exact ih.step laws complete step

end Laws

end Filtered

/-! ## Reading through filters -/

/-- Two filters that differ only on partitions where a visit does nothing. -/
private theorem visitRev_congr {σ : Type} {possible possible' : ℕ → Holder engine → Bool}
    {visit : σ → Holder engine → σ × Holder engine} {init : σ} {holders : List (Holder engine)}
    {index : ℕ} (idle : ∀ i holder, holders[i]? = some holder →
      possible (index + i) holder ≠ possible' (index + i) holder →
      ∀ seen, visit seen holder = (seen, holder)) :
    Group.visitRev possible visit init holders index =
      Group.visitRev possible' visit init holders index := by
  induction holders generalizing index with
  | nil => rfl
  | cons first rest ih =>
    have later : Group.visitRev possible visit init rest (index + 1) =
        Group.visitRev possible' visit init rest (index + 1) := by
      refine ih fun i holder here differ => ?_
      rw [Nat.add_right_comm] at differ
      exact idle (i + 1) holder here differ
    rw [Group.visitRev, Group.visitRev, later]
    by_cases same : possible index first = possible' index first
    · rw [same]
    · have nothing := idle 0 first rfl same
      simp only [nothing]
      split_ifs <;> rfl

/-- Asking a partition that runs and does not have the key changes nothing. -/
private theorem getFrom_of_not_hasKey {view : Group engine} {holder : Holder engine}
    (running : holder.storage.isSome) (absent : ¬ holder.HasKey lawful key)
    (seen : Group.Found (Option BobData)) : view.getFrom key seen holder = (seen, holder) := by
  obtain ⟨storage, hstorage⟩ := Option.isSome_iff_exists.mp running
  have none : lawful.newest storage key = none := by
    rw [Option.eq_none_iff_forall_ne_some]
    exact fun r newest => absent ⟨storage, r, hstorage, (lawful.newest_some newest).1⟩
  have read : holder.read key = .ok .notFound := by
    rw [Holder.read, hstorage]
    simp only [lawful.read_eq, none]
    rfl
  rw [Group.getFrom, Group.getCommon, read]
  split_ifs <;> rfl

/-- With complete filters a read answers as the group does without its container. -/
theorem Filtered.get_eq (filtered : g.Filtered lawful) (key : BobKey keySize) :
    g.get key = (g.view.get key).1 := by
  have visits : Group.visitRev (fun position _ => C.possibleAt g.holders key position)
      (g.view.getFrom key) ⟨none, none, false⟩ g.view.holders 0 =
      Group.visitRev (g.view.mayContain key) (g.view.getFrom key) ⟨none, none, false⟩
        g.view.holders 0 := by
    refine visitRev_congr fun position holder here differ seen => ?_
    rw [Nat.zero_add] at differ
    rw [view, List.getElem?_map] at here
    obtain ⟨partition, hpartition, rfl⟩ := Option.map_eq_some_iff.mp here
    have running := filtered.running partition (List.mem_of_getElem? hpartition)
    -- a partition with the key passes both filters
    refine @getFrom_of_not_hasKey _ _ lawful key _ _ running (fun has => differ ?_) seen
    obtain ⟨storage, r, hstorage, held⟩ := has
    rw [filtered.covered.possibleAt hpartition ⟨storage, r, hstorage, held⟩, Group.mayContain,
      lawful.mayContain_of_holds (s := storage) ?_ held]
    rw [view, List.map_map, List.getElem?_map, hpartition, Option.map_some, Function.comp_apply,
      hstorage]
  have lock : g.view.reinitLock = g.reinitLock := rfl
  rw [get, Group.get, visits, lock]
  generalize Group.visitRev (g.view.mayContain key) (g.view.getFrom key) ⟨none, none, false⟩
    g.view.holders 0 = visited
  split_ifs
  · rfl
  · dsimp only
    cases visited.1.result with
    | some data => rfl
    | none => cases visited.1.hasError <;> rfl

theorem filtered_new (laws : C.Lawful filter.has removal) {settings : Settings} {size : ℕ}
    {vdiskId : VDiskId} {nodeName : NodeName} {diskName : DiskName} {hash : String} :
    (HolderGroup.new settings size vdiskId nodeName diskName hash : HolderGroup C).Filtered
      lawful := by
  constructor
  · intro partition here
    rw [partitions, HolderGroup.new, laws.iter_new] at here
    cases here
  · intro id partition here
    rw [ChildContainer.getChild, HolderGroup.new, laws.slots_new] at here
    cases here

/-- However a container removes children: the id that a put or a forced delete passes on
is that of the partition it wrote to exactly if no id is empty up to the place of the
partition that covers the time and starts last, and a detach removes every partition that
it is to remove exactly if no two of them are neighbours in a container that moves children
down. Along runs of such commands a search comes to every partition that has the key, and a
read finds what the partitions have. -/
theorem ids_name_written_partitions_iff (lawful : engine.Lawful)
    (complete : filter.Complete lawful) (laws : C.Lawful filter.has removal)
    (g : HolderGroup C) :
    (∀ key data config opened res target g',
      g.put key data config opened = .ok (res, some target, g') →
        (C.idAt g'.holders target.position = some target.id ↔
          g.NoHoleBelow data.bobMeta.timestamp.toNat)) ∧
    (∀ key bobMeta config forceDelete opened res target g',
      g.delete key bobMeta config forceDelete opened = .ok (res, some target, g') →
        (C.idAt g'.holders target.position = some target.id ↔
          g.NoHoleBelow bobMeta.timestamp.toNat)) ∧
    (∀ startTimestamp now,
      (∀ partition ∈ (g.detach startTimestamp now).2.partitions,
        detaches startTimestamp now partition = false) ↔
          g.DetachesApart removal startTimestamp now) ∧
    (g.Filtered lawful → ∀ g', Relation.ReflTransGen (Step (Safe removal)) g g' → ∀ key,
      (∀ position partition, g'.partitions[position]? = some partition →
        partition.holder.HasKey lawful key → C.possibleAt g'.holders key position = true) ∧
      g'.get key = (g'.view.get key).1) := by
  refine ⟨fun _ _ _ _ _ _ _ done => put_idAt_iff laws done,
    fun _ _ _ _ _ _ _ _ done => delete_idAt_iff laws done, fun _ _ => detach_removes_iff laws,
    fun filtered g' run key => ?_⟩
  have reached := filtered.run laws complete run
  exact ⟨fun _ _ here has => reached.covered.possibleAt here has, reached.get_eq key⟩

/-! ## A detach with either kind of container -/

/-- Perform commands one after the other. -/
def performAll (g : HolderGroup C) (commands : List (Command engine)) :
    Except Panic (HolderGroup C) :=
  commands.foldlM perform g

def earlyKey : BobKey 8 := ⟨.replicate 8 3⟩

def lateKey : BobKey 8 := ⟨.replicate 8 7⟩

/-- The first days are attached. Each directory has a blob with another key, so that the storage
has a filter. -/
def attachDays (days : ℕ) : List (Command (logEngine 8)) :=
  (List.range days).map fun day =>
    .attach (86400 * day) (.ok [(earlyKey, .value ⟨[0], ⟨86400 * day.toUInt64⟩⟩)])

/-- Data of the ninth day. -/
def lateData : BobData := ⟨[1], ⟨691205⟩⟩

/-- The first put to a group passes on the right id, and a read finds it. -/
theorem first_put_is_found :
    ∃ (g' : HolderGroup holes) (target : Target (logEngine 8)),
      (dailyGroup holes).put lateKey lateData .default (.ok []) = .ok (.ok (), some target, g') ∧
      ChildContainer.idAt holes g'.holders target.position = some target.id ∧
      g'.get lateKey = (g'.view.get lateKey).1 := by
  have laws : ChildContainer.Lawful holes (logFilter 8).has .leavesHole :=
    ChildContainer.grouped_lawful
  obtain ⟨put, -, -, reads⟩ := ids_name_written_partitions_iff (logEngine.lawful 8)
    logFilter_complete laws (dailyGroup holes)
  have safe : (dailyGroup holes).NoHoleBelow lateData.bobMeta.timestamp.toNat := by
    intro position partition latest
    cases latest.here
  obtain ⟨g', target, done⟩ : ∃ g' target, (dailyGroup holes).put lateKey lateData .default
      (.ok []) = .ok (.ok (), some target, g') := ⟨_, _, rfl⟩
  refine ⟨g', target, done, (put _ _ _ _ _ _ _ done).mpr safe, ?_⟩
  refine (reads (filtered_new laws) g' (.single ?_) lateKey).2
  exact ⟨.put lateKey lateData .default (.ok []), safe, bind_eq_ok_iff.mpr ⟨_, done, rfl⟩⟩

/-- With holes: nine days are attached, the first one is detached, and a put goes to the
last one. Its key is added under the id of the day before, in another group of eight,
and a read does not find it. If children move down: of two partitions with one start,
a detach leaves the second. -/
theorem detach_loses_a_key_or_leaves_a_partition :
    (∃ (g g' : HolderGroup holes) (target : Target (logEngine 8)),
      (dailyGroup holes).performAll (attachDays 9 ++ [.detach 0 1000000000]) = .ok g ∧
      g.put lateKey lateData .default (.ok []) = .ok (.ok (), some target, g') ∧
      target.id = 7 ∧ ChildContainer.idAt holes g'.holders target.position = some 8 ∧
      (g'.view.get lateKey).1 = .ok lateData ∧ g'.get lateKey = .error (.keyNotFound lateKey)) ∧
    (∃ g : HolderGroup shifts,
      (dailyGroup shifts).performAll
        [.attach 0 (.ok []), .attach 43200 (.ok []), .detach 0 1000000000] = .ok g ∧
      g.partitions.map (detaches 0 1000000000) = [true]) :=
  ⟨⟨_, _, _, rfl, rfl, rfl, rfl, rfl, rfl⟩, ⟨_, rfl, rfl⟩⟩

end HolderGroup

end Bob.Backend

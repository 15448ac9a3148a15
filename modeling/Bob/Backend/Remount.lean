/-
# Mounting a vdisk again

A disk controller keeps its groups in a list and hands out clones of them. The partitions
of a group are behind an `Arc`, so a group and its clones have the same ones. The step that
reads use is a plain field, and each clone has its own.

`remount_vdisk` takes the group of the first controller that has the vdisk and mounts the
clone that it gets. The partitions that are read again are those of the stored group too.
The new step is dropped with the clone, and a replica on another disk is not read again.
-/

import Bob.Backend.DiskController
import Bob.Backend.Restart
import Bob.Backend.SafeStep

namespace Bob.Backend

open Bob.Configs Bob.Math

variable {keySize : ℕ} {engine : StorageEngine keySize}

namespace Remount

open Restart (Mounts)

/-! ## Groups and their clones -/

/-- A group as a controller stores it and as it is cloned. -/
structure GroupHandle where
  /-- The place in memory that all clones of the group share. -/
  holders : ℕ
  vdiskId : VDiskId
  nodeName : NodeName
  diskName : DiskName
  safeTimestampStep : Option ℕ
  deriving DecidableEq, Repr

/-- What is behind the `Arc`s: for each place the partitions of a group. -/
abbrev Memory (engine : StorageEngine keySize) := ℕ → Mounts engine

/-- What starting a group learns from outside. -/
structure Outside (engine : StorageEngine keySize) where
  /-- The partitions that the directory of the group names. -/
  listing : Except (Error keySize) (List PartitionName)
  /-- What opening the storage of the partition at a position gives. -/
  opening : ℕ → Except OpenError engine.Storage
  now : ℕ

/-- The directories of the groups. -/
abbrev Directories (engine : StorageEngine keySize) := DiskName → VDiskId → Outside engine

def Outside.call (outside : Outside engine) (kind : Restart.Kind) : Restart.Call engine :=
  ⟨kind, outside.listing, outside.opening⟩

namespace GroupHandle

def new (holders : ℕ) (vdiskId : VDiskId) (nodeName : NodeName) (diskName : DiskName) :
    GroupHandle :=
  ⟨holders, vdiskId, nodeName, diskName, none⟩

/-- What the group finds in its directory. -/
def outside (g : GroupHandle) (directories : Directories engine) : Outside engine :=
  directories g.diskName g.vdiskId

/-- `safe_timestamp_step`, from the partitions as they are. -/
def computeStep (g : GroupHandle) (memory : Memory engine) (now : ℕ) : Option ℕ :=
  Group.safeStep (memory g.holders).settings ((memory g.holders).holders.map (·.holder)) now

/-- `run` and `remount`: the partitions are replaced where all clones see them, and the step
is set in this one, whether or not the call succeeds. -/
def start (g : GroupHandle) (kind : Restart.Kind) (memory : Memory engine)
    (outside : Outside engine) : Except (Error keySize) Unit × Memory engine × GroupHandle :=
  let (res, mounts) := (memory g.holders).call (outside.call kind)
  let memory := Function.update memory g.holders mounts
  (res, memory, { g with safeTimestampStep := g.computeStep memory outside.now })

/-- The group as `Group` has it. -/
def view (g : GroupHandle) (memory : Memory engine) : Group engine where
  holders := (memory g.holders).holders.map (·.holder)
  reinitLock := false
  settings := (memory g.holders).settings
  vdiskId := g.vdiskId
  nodeName := g.nodeName
  diskName := g.diskName
  safeTimestampStep := g.safeTimestampStep

end GroupHandle

/-! ## Controllers -/

structure Controller where
  disk : DiskPath
  vdisks : List VDiskId
  nodeName : NodeName
  settings : Settings
  groups : List GroupHandle
  state : GroupsState

namespace Controller

/-- A clone of the first group with the vdisk. -/
def vdiskGroup (dc : Controller) (vdiskId : VDiskId) : Except (Error keySize) GroupHandle :=
  match dc.groups.find? fun g => g.vdiskId = vdiskId with
  | some g => .ok g
  | none => .error (.vdiskNotFound vdiskId)

/-- New groups, at places from `first` on. -/
def collectNormalGroups (dc : Controller) (first : ℕ) : List GroupHandle :=
  dc.vdisks.zipIdx.map fun (vdiskId, k) => .new (first + k) vdiskId dc.nodeName dc.disk.name

/-- Run the groups where they are stored, up to the first that fails. -/
def runGroups (directories : Directories engine) :
    Memory engine → List GroupHandle →
      Except (Error keySize) Unit × Memory engine × List GroupHandle
  | memory, [] => (.ok (), memory, [])
  | memory, g :: rest =>
    let (res, memory, g) := g.start .run memory (g.outside directories)
    match res with
    | .error e => (.error e, memory, g :: rest)
    | .ok () =>
      let (res, memory, rest) := runGroups directories memory rest
      (res, memory, g :: rest)

end Controller

/-- The places of the groups of some controllers. -/
def places (controllers : List Controller) : List ℕ :=
  (controllers.flatMap (·.groups)).map (·.holders)

/-- The controllers of a node and their memory. Each group was made with a place of its
own. -/
structure Node (engine : StorageEngine keySize) where
  diskControllers : List Controller
  memory : Memory engine
  /-- The places in use are below this one. -/
  allocated : ℕ
  separate : (places diskControllers).Nodup
  inUse : ∀ place ∈ places diskControllers, place < allocated

/-! ## What starting a group does to its partitions -/

section Start

variable {mounts : Mounts engine} {c : Restart.Call engine} {names : List PartitionName}

theorem listing_of_call_eq_ok (succeeds : (mounts.call c).1 = .ok ()) :
    ∃ names, c.listing = .ok names := by
  cases listing : c.listing with
  | ok names => exact ⟨names, rfl⟩
  | error e => simp [Mounts.call, Mounts.runUnderReinitLock, listing] at succeeds

/-- Opening the storages leaves the starts as they are. -/
theorem map_start_runPearls (opening : ℕ → Except OpenError engine.Storage) (call position : ℕ)
    (holders : List (Partition engine)) :
    ((Restart.runPearls opening call position holders).holders.map (·.holder)).map
        (·.startTimestamp) = (holders.map (·.holder)).map (·.startTimestamp) := by
  induction holders generalizing position with
  | nil => rfl
  | cons holder rest ih =>
    rw [Restart.runPearls]
    split
    · rfl
    · simp only [List.map_cons, ih, Partition.openStorage, Partition.withHolder]

/-- The step depends on the starts of the partitions only. -/
theorem safeStep_congr {settings : Settings} {first second : List (Holder engine)} {now : ℕ}
    (same : first.map (·.startTimestamp) = second.map (·.startTimestamp)) :
    Group.safeStep settings first now = Group.safeStep settings second now := by
  simp only [Group.safeStep, same]

/-- The step that the partitions of a directory give. -/
def directoryStep (settings : Settings) (names : List PartitionName) (now : ℕ)
    (engine : StorageEngine keySize) : Option ℕ :=
  Group.safeStep settings
    ((Restart.readVdiskDirectory settings names : List (Partition engine)).map (·.holder)) now

theorem settings_call : (mounts.call c).2.settings = mounts.settings := by
  cases kind : c.kind <;> cases listing : c.listing <;>
    simp [Mounts.call, Mounts.runUnderReinitLock, listing, Mounts.release, kind]

theorem safeStep_call (listing : c.listing = .ok names) (now : ℕ) :
    Group.safeStep (mounts.call c).2.settings ((mounts.call c).2.holders.map (·.holder)) now =
      directoryStep mounts.settings names now engine := by
  rw [settings_call]
  apply safeStep_congr
  cases kind : c.kind <;>
    simp only [Mounts.call, Mounts.runUnderReinitLock, listing, Mounts.release, kind,
      map_start_runPearls]

theorem calls_call : (mounts.call c).2.calls = mounts.calls + 1 := by
  cases kind : c.kind <;> cases listing : c.listing <;>
    simp [Mounts.call, Mounts.runUnderReinitLock, listing, Mounts.release, kind]

variable {g : GroupHandle} {kind : Restart.Kind} {memory : Memory engine}
  {outside : Outside engine}

/-- The clones of a group see what starting it has done. -/
theorem memory_start :
    (g.start kind memory outside).2.1 g.holders = ((memory g.holders).call (outside.call kind)).2 :=
  Function.update_self ..

theorem memory_start_of_ne {place : ℕ} (ne : place ≠ g.holders) :
    (g.start kind memory outside).2.1 place = memory place :=
  Function.update_of_ne ne ..

theorem computeStep_start (listing : outside.listing = .ok names) :
    g.computeStep (g.start kind memory outside).2.1 outside.now =
      directoryStep (memory g.holders).settings names outside.now engine := by
  rw [GroupHandle.computeStep, memory_start]
  exact safeStep_call listing _

/-- The clone that was started has the step of the partitions that it has put there. -/
theorem view_start :
    (g.start kind memory outside).2.2.view (g.start kind memory outside).2.1 =
      { (Group.new (memory g.holders).settings g.vdiskId g.nodeName g.diskName : Group engine) with
        holders := ((memory g.holders).call (outside.call kind)).2.holders.map (·.holder)
        safeTimestampStep := Group.safeStep (memory g.holders).settings
          (((memory g.holders).call (outside.call kind)).2.holders.map (·.holder))
          outside.now } := by
  have here : (g.start kind memory outside).2.1 (g.start kind memory outside).2.2.holders =
      ((memory g.holders).call (outside.call kind)).2 := memory_start
  have step : (g.start kind memory outside).2.2.safeTimestampStep =
      g.computeStep (g.start kind memory outside).2.1 outside.now := rfl
  rw [GroupHandle.view, here, settings_call, step, GroupHandle.computeStep, memory_start,
    settings_call]
  rfl

/-- What a run makes of a group is determined by its partitions. -/
theorem run_eq_map_holders (g : Group engine) (settings : Settings) (now : ℕ) :
    g.run settings now = ((g.run settings now).map (·.holders)).map fun holders =>
      { (Group.new settings g.vdiskId g.nodeName g.diskName : Group engine) with
        holders := holders
        safeTimestampStep := Group.safeStep settings holders now } := by
  unfold Group.run
  dsimp only
  cases (Group.readVdiskDirectory settings (g.holders.map (·.startTimestamp)).dedup).mapM
    fun holder => holder.prepareStorage (Group.onDisk g.holders holder.startTimestamp) <;> rfl

/-- Running a group is the run of the group model, if its storages open as the engine says
over what is on disk. -/
theorem run_view {hash : String}
    (listing : outside.listing =
      .ok (((g.view memory).holders.map (·.startTimestamp)).dedup.map (⟨·, hash⟩)))
    (opening : ∀ p (holder : Holder engine), (Group.readVdiskDirectory (memory g.holders).settings
        ((g.view memory).holders.map (·.startTimestamp)).dedup)[p]? = some holder →
      outside.opening p =
        engine.openDir (Group.onDisk (g.view memory).holders holder.startTimestamp)) :
    (g.view memory).run (memory g.holders).settings outside.now =
      (g.start .run memory outside).1.map fun _ =>
        (g.start .run memory outside).2.2.view (g.start .run memory outside).2.1 := by
  have opened := Restart.run_eq_call (g.view memory) (memory g.holders) (outside.call .run)
    outside.now hash rfl listing opening
  have result : (g.start .run memory outside).1 =
      ((memory g.holders).call (outside.call .run)).1 := rfl
  rw [run_eq_map_holders, opened, result]
  cases ((memory g.holders).call (outside.call .run)).1 with
  | error e => rfl
  | ok _ =>
    exact congrArg Except.ok view_start.symm

end Start

/-! ## Places -/

section Places

variable {controllers : List Controller} {dc : Controller} {groups : List GroupHandle}
  {state : GroupsState} {allocated count i : ℕ}

theorem places_append (first second : List Controller) :
    places (first ++ second) = places first ++ places second := by
  simp [places]

theorem places_cons (dc : Controller) (rest : List Controller) :
    places (dc :: rest) = dc.groups.map (·.holders) ++ places rest := by
  simp [places]

/-- A controller gets other groups. They keep places that it had, or have new ones. -/
theorem places_set (found : controllers[i]? = some dc) (separate : (places controllers).Nodup)
    (inUse : ∀ place ∈ places controllers, place < allocated)
    (distinct : (groups.map (·.holders)).Nodup)
    (origin : ∀ place ∈ groups.map (·.holders), place ∈ dc.groups.map (·.holders) ∨
      allocated ≤ place ∧ place < allocated + count) :
    (places (controllers.set i { dc with groups := groups, state := state })).Nodup ∧
      ∀ place ∈ places (controllers.set i { dc with groups := groups, state := state }),
        place < allocated + count := by
  obtain ⟨inside, rfl⟩ := List.getElem?_eq_some_iff.mp found
  have before : places controllers = places (controllers.take i) ++
      (controllers[i].groups.map (·.holders) ++ places (controllers.drop (i + 1))) := by
    rw [← places_cons, ← places_append, List.getElem_cons_drop, List.take_append_drop]
  have after : places (controllers.set i { controllers[i] with groups := groups, state := state }) =
      places (controllers.take i) ++
        (groups.map (·.holders) ++ places (controllers.drop (i + 1))) := by
    rw [List.set_eq_take_append_cons_drop, if_pos inside, places_append, places_cons]
  rw [before] at separate inUse
  rw [after]
  -- a new place is in no other controller, and neither is one of its own
  simp only [List.nodup_append, List.mem_append, or_imp, forall_and] at separate inUse ⊢
  grind

theorem nodup_holders (separate : (places controllers).Nodup) (member : dc ∈ controllers) :
    (dc.groups.map (·.holders)).Nodup := by
  have own := (List.singleton_sublist.mpr member).flatMap (·.groups)
  rw [List.flatMap_singleton] at own
  exact separate.sublist (own.map _)

theorem map_holders_collectNormalGroups (dc : Controller) (first : ℕ) :
    (dc.collectNormalGroups first).map (·.holders) = List.range' first dc.vdisks.length := by
  apply List.ext_getElem
  · simp [Controller.collectNormalGroups]
  · intro k _ _
    simp [Controller.collectNormalGroups, GroupHandle.new]

theorem map_holders_runGroups (directories : Directories engine) (memory : Memory engine)
    (groups : List GroupHandle) :
    (Controller.runGroups directories memory groups).2.2.map (·.holders) =
      groups.map (·.holders) := by
  induction groups generalizing memory with
  | nil => rfl
  | cons g rest ih =>
    -- the group keeps its place whether it starts or not
    have same : (g.start .run memory (g.outside directories)).2.2.holders = g.holders :=
      rfl
    simp only [Controller.runGroups]
    split
    · rw [List.map_cons, List.map_cons, same]
    · rw [List.map_cons, List.map_cons, same, ih]

end Places

namespace Node

variable {node node' : Node engine} {vdiskId : VDiskId}

/-- A controller gets other groups. They keep places that it had, or have new ones. -/
def replaceGroups (node : Node engine) (i : ℕ) {dc : Controller}
    (found : node.diskControllers[i]? = some dc) (groups : List GroupHandle)
    (state : GroupsState) (memory : Memory engine) (count : ℕ)
    (distinct : (groups.map (·.holders)).Nodup)
    (origin : ∀ place ∈ groups.map (·.holders), place ∈ dc.groups.map (·.holders) ∨
      node.allocated ≤ place ∧ place < node.allocated + count) : Node engine where
  diskControllers := node.diskControllers.set i { dc with groups := groups, state := state }
  memory := memory
  allocated := node.allocated + count
  separate := (places_set found node.separate node.inUse distinct origin).1
  inUse := (places_set found node.separate node.inUse distinct origin).2

/-- The controllers as they are created, before their groups are made. -/
def new (settings : Settings) (nodeName : NodeName) (disks : List (DiskPath × List VDiskId)) :
    Node engine where
  diskControllers := disks.map fun (disk, vdisks) =>
    ⟨disk, vdisks, nodeName, settings, [], .notReady⟩
  memory := fun _ => .new settings
  allocated := 0
  separate := by
    rw [places, List.flatMap_map, List.flatMap_eq_nil_iff.mpr fun _ _ => rfl]
    exact List.nodup_nil
  inUse := by simp [places]

/-- `init`: a controller that is not ready makes its groups. -/
def init (node : Node engine) (i : ℕ) : Node engine :=
  match found : node.diskControllers[i]? with
  | none => node
  | some dc =>
    if dc.state = .notReady then
      node.replaceGroups i found (dc.collectNormalGroups node.allocated) .initialized
        (fun place => if node.allocated ≤ place then .new dc.settings else node.memory place)
        dc.vdisks.length
        (by rw [map_holders_collectNormalGroups]; exact List.nodup_range')
        (by
          intro place member
          rw [map_holders_collectNormalGroups, List.mem_range'_1] at member
          exact .inr member)
    else node

/-- `run`: a controller makes its groups if it has to, and runs them where they are. If a
group fails, the controller stays as it is, or drops its groups if the disk is gone. -/
def run (node : Node engine) (directories : Directories engine) (available : Bool) (i : ℕ) :
    Except (Error keySize) Unit × Node engine :=
  let node := node.init i
  match found : node.diskControllers[i]? with
  | none => (.error .internal, node)
  | some dc =>
    match dc.state with
    | .notReady => (.error .internal, node)
    | .ready => (.ok (), node)
    | .initialized =>
      let ran := Controller.runGroups directories node.memory dc.groups
      let kept := ran.1.isOk || available
      let groups := if kept then ran.2.2 else []
      let state := if ran.1.isOk then .ready else if available then .initialized else .notReady
      have same : groups.map (·.holders) = if kept then dc.groups.map (·.holders) else [] := by
        rw [← map_holders_runGroups directories node.memory dc.groups]
        exact apply_ite (List.map _) (kept = true) _ _
      have distinct : (dc.groups.map (·.holders)).Nodup :=
        nodup_holders node.separate (List.mem_of_getElem? found)
      (ran.1, node.replaceGroups i found groups state ran.2.1 0
        (by rw [same]; split_ifs; exacts [distinct, List.nodup_nil])
        (by
          intro place member
          rw [same] at member
          split_ifs at member
          · exact .inl member
          · cases member))

/-- Memory changes, and nothing else. -/
def withMemory (node : Node engine) (memory : Memory engine) : Node engine :=
  { node with memory := memory }

/-- `remount_vdisk` of the pearl backend. -/
def remountVdisk (node : Node engine) (directories : Directories engine) (vdiskId : VDiskId) :
    Except (Error keySize) Unit × Node engine :=
  match node.diskControllers.find? fun dc => dc.vdisks.any fun vd => vd = vdiskId with
  | none => (.error (.vdiskNotFound vdiskId), node)
  | some neededDc =>
    match neededDc.vdiskGroup vdiskId with
    | .error e => (.error e, node)
    | .ok group =>
      -- the clone, with its new step, is dropped
      let (res, memory, _) :=
        group.start .remount node.memory (group.outside directories)
      (res, node.withMemory memory)

/-- The groups that are stored for the replicas of a vdisk on the disks of the node. -/
def replicas (node : Node engine) (vdiskId : VDiskId) : List GroupHandle :=
  (node.diskControllers.filter fun dc => vdiskId ∈ dc.vdisks).filterMap fun dc =>
    dc.groups.find? fun g => g.vdiskId = vdiskId

/-- A stored group is as a remount should leave it: its partitions have been read from its
directory by this very call, and its step is what `safe_timestamp_step` computes from them. -/
structure Refreshed (node node' : Node engine) (directories : Directories engine)
    (g : GroupHandle) : Prop where
  holders : node'.memory g.holders = ((node.memory g.holders).call
    ((g.outside directories).call .remount)).2
  step : g.safeTimestampStep =
    g.computeStep node'.memory (g.outside directories).now

/-- The places of the stored groups of a vdisk are different ones. -/
theorem nodup_replicas : ((node.replicas vdiskId).map (·.holders)).Nodup := by
  have picked (dc : Controller) :
      (dc.groups.find? fun g => g.vdiskId = vdiskId).toList.Sublist dc.groups := by
    cases found : dc.groups.find? fun g => g.vdiskId = vdiskId with
    | none => exact List.nil_sublist _
    | some g => exact List.singleton_sublist.mpr (List.mem_of_find?_eq_some found)
  rw [replicas, List.filterMap_eq_flatMap_toList]
  refine node.separate.sublist (List.Sublist.map _ ?_)
  exact (List.Sublist.flatMap_right _ fun dc _ => picked dc).trans (List.filter_sublist.flatMap _)

@[simp] theorem memory_withMemory {memory : Memory engine} :
    (node.withMemory memory).memory = memory := rfl

theorem replicas_withMemory {memory : Memory engine} :
    (node.withMemory memory).replicas vdiskId = node.replicas vdiskId := rfl

/-- The first controller with the vdisk stores the first replica. -/
theorem replicas_of_needed {neededDc : Controller} {g : GroupHandle}
    (needed : (node.diskControllers.find? fun dc => dc.vdisks.any fun vd => vd = vdiskId) =
      some neededDc)
    (stored : neededDc.vdiskGroup vdiskId = (.ok g : Except (Error keySize) GroupHandle)) :
    ∃ rest, node.replicas vdiskId = g :: rest := by
  obtain ⟨has, before, after, split, others⟩ := List.find?_eq_some_iff_append.mp needed
  have skipped : before.filter (fun dc => vdiskId ∈ dc.vdisks) = [] := by
    refine List.filter_eq_nil_iff.mpr fun dc member has => ?_
    have none : ∀ vd ∈ dc.vdisks, vd ≠ vdiskId := by simpa using others dc member
    exact none vdiskId (of_decide_eq_true has) rfl
  have first : (neededDc.groups.find? fun g => g.vdiskId = vdiskId) = some g := by
    unfold Controller.vdiskGroup at stored
    split at stored <;> cases stored
    assumption
  have kept : decide (vdiskId ∈ neededDc.vdisks) = true := by simpa using has
  rw [replicas, split, List.filter_append, skipped, List.nil_append, List.filter_cons, if_pos kept,
    List.filterMap_cons, first]
  exact ⟨_, rfl⟩

/-- A remount that succeeds has started the group of the first replica, and has changed
nothing but its partitions. -/
theorem remountVdisk_eq_ok {directories : Directories engine}
    (done : node.remountVdisk directories vdiskId = (.ok (), node')) :
    ∃ g rest names, node.replicas vdiskId = g :: rest ∧
      (g.outside directories).listing = .ok names ∧
      node' = node.withMemory (g.start .remount node.memory (g.outside directories)).2.1 := by
  unfold remountVdisk at done
  split at done
  · cases done
  · rename_i neededDc needed
    split at done
    · cases done
    · rename_i g stored
      simp only [Prod.mk.injEq] at done
      obtain ⟨succeeds, rfl⟩ := done
      obtain ⟨rest, first⟩ := replicas_of_needed needed stored
      obtain ⟨names, listing⟩ := listing_of_call_eq_ok succeeds
      exact ⟨g, rest, names, first, listing, rfl⟩

/-- A group that is not the one that was mounted has the partitions of before. -/
theorem not_refreshed_of_ne {g other : GroupHandle} {directories : Directories engine}
    (ne : other.holders ≠ g.holders) :
    ¬ Refreshed node
      (node.withMemory (g.start .remount node.memory (g.outside directories)).2.1)
      directories other := by
  intro refreshed
  have counted := congrArg Mounts.calls refreshed.holders
  rw [memory_withMemory, memory_start_of_ne ne, calls_call] at counted
  exact Nat.ne_of_lt (Nat.lt_succ_self _) counted

/-- After a remount that succeeds, all stored groups of the vdisk are refreshed exactly if
there is only one and it had the step of its directory already. -/
theorem remount_refreshes_iff {directories : Directories engine}
    (done : node.remountVdisk directories vdiskId = (.ok (), node')) :
    (∀ g ∈ node'.replicas vdiskId, Refreshed node node' directories g) ↔
      ∃ g names, node.replicas vdiskId = [g] ∧ (g.outside directories).listing = .ok names ∧
        g.safeTimestampStep = directoryStep (node.memory g.holders).settings names
          (g.outside directories).now engine := by
  obtain ⟨g, rest, names, first, listing, rfl⟩ := remountVdisk_eq_ok done
  rw [replicas_withMemory, first]
  constructor
  · intro refreshed
    have alone : rest = [] := by
      refine List.eq_nil_iff_forall_not_mem.mpr fun other member => ?_
      have distinct : (((g :: rest)).map (·.holders)).Nodup := first ▸ nodup_replicas
      rw [List.map_cons, List.nodup_cons] at distinct
      have elsewhere : other.holders ≠ g.holders := fun same =>
        distinct.1 (same ▸ List.mem_map_of_mem member)
      exact not_refreshed_of_ne elsewhere (refreshed other (List.mem_cons_of_mem _ member))
    subst alone
    refine ⟨g, names, rfl, listing, ?_⟩
    rw [(refreshed g List.mem_cons_self).step]
    exact computeStep_start listing
  · rintro ⟨g', names', single, listing', step⟩ other member
    obtain ⟨rfl, rfl⟩ := List.cons.inj single
    cases listing.symm.trans listing'
    cases List.mem_singleton.mp member
    exact ⟨memory_start, step.trans (computeStep_start listing).symm⟩

/-! Two nodes with a step configured. The first has its vdisk on one disk; the second has it
on two. -/

def disk (name : String) : DiskPath := ⟨⟨name⟩, "/" ++ name⟩

/-- The directories of all groups name partitions with these starts. -/
def directoriesWith (starts : List ℕ) (now : ℕ) : Directories (logEngine 8) := fun _ _ =>
  ⟨.ok (starts.map (⟨·, "hash"⟩)), fun _ => .ok [], now⟩

/-- A node after its start, with one partition in each group. -/
def startedNode (disks : List DiskPath) : Node (logEngine 8) :=
  (List.range disks.length).foldl (fun node i => (node.run (directoriesWith [0] 100) true i).2)
    (.new (Group.steppedSettings (.ofDays 2)) ⟨"alpha"⟩ (disks.map fun disk => (disk, [⟨0⟩])))

/-- With one replica and a directory as it was, the group is refreshed. -/
theorem single_group_is_refreshed : ∃ node' : Node (logEngine 8),
    (startedNode [disk "disk1"]).remountVdisk (directoriesWith [0] 100) ⟨0⟩ = (.ok (), node') ∧
      ∀ g ∈ node'.replicas ⟨0⟩,
        Refreshed (startedNode [disk "disk1"]) node' (directoriesWith [0] 100) g := by
  exact ⟨_, rfl, (remount_refreshes_iff rfl).mpr ⟨_, _, rfl, rfl, rfl⟩⟩

/-- A partition ten days later is there when the vdisk is mounted again, and the stored step
stays. With two replicas, the second is not read again. -/
theorem groups_are_not_refreshed :
    (∃ node' : Node (logEngine 8),
      (startedNode [disk "disk1"]).remountVdisk (directoriesWith [0, 864000] 864100) ⟨0⟩ =
        (.ok (), node') ∧
      (node'.replicas ⟨0⟩).map (·.safeTimestampStep) = [some 172801] ∧
      (node'.replicas ⟨0⟩).map (·.computeStep node'.memory 864100) = [some 1728001] ∧
      ¬ ∀ g ∈ node'.replicas ⟨0⟩, Refreshed (startedNode [disk "disk1"]) node'
        (directoriesWith [0, 864000] 864100) g) ∧
    ∃ node' : Node (logEngine 8),
      (startedNode [disk "disk1", disk "disk2"]).remountVdisk (directoriesWith [0] 100) ⟨0⟩ =
        (.ok (), node') ∧
      (node'.replicas ⟨0⟩).map (·.diskName) = [⟨"disk1"⟩, ⟨"disk2"⟩] ∧
      (node'.replicas ⟨0⟩).map (fun g => (node'.memory g.holders).calls) = [2, 1] ∧
      ¬ ∀ g ∈ node'.replicas ⟨0⟩, Refreshed (startedNode [disk "disk1", disk "disk2"]) node'
        (directoriesWith [0] 100) g := by
  refine ⟨⟨_, rfl, rfl, rfl, fun refreshed => ?_⟩, _, rfl, rfl, rfl, fun refreshed => ?_⟩
  · exact absurd (refreshed _ (.head _)).step (by decide)
  · have counted := congrArg Mounts.calls (refreshed _ (.tail _ (.head _))).holders
    exact absurd counted (by decide)

end Node

end Remount

end Bob.Backend

/-
# Balanced generation

Without racks all nodes are in one rack. If each node has one disk, a vdisk takes the
least used disks of nodes that it does not use yet, one after the other. With no more
replicas than nodes there always is such a node, so `simple_gen` does not fail, the
replicas of a vdisk are on distinct nodes, and the numbers of replicas of any two disks
differ by at most one.

The counters are compared with the replicas that were really made. This holds for any
center, whatever the racks and disks are.
-/

import Bob.Generator.Generate

namespace Bob.Generator

open Bob.Configs Bob.Math

/-! ## Counters -/

namespace Center

/-- The counters of disks tell how many replicas each has. -/
def Counts (center : Center) (replicas : List Replica) : Prop :=
  ∀ node disk, center.counter.disksUsedCount node disk = replicas.count ⟨node.str, disk.str⟩

variable {center : Center} {vdisk : VDisk} {replicas : List Replica}

theorem disksUsedCount_push (rack : String) (node : NodeName) (disk : DiskName)
    (otherNode : NodeName) (otherDisk : DiskName) :
    (center.pushReplicaToVdisk vdisk rack node disk).1.counter.disksUsedCount otherNode otherDisk =
      center.counter.disksUsedCount otherNode otherDisk +
        if otherNode = node ∧ otherDisk = disk then 1 else 0 := by
  simp only [pushReplicaToVdisk, Counter.incDiskUsedCount, Counter.incRackUsedCount]
  by_cases sameNode : otherNode = node
  · subst sameNode
    by_cases sameDisk : otherDisk = disk
    · subst sameDisk
      simp
    · simp [sameDisk]
  · simp [sameNode]

theorem Counts.push (counts : center.Counts (replicas ++ vdisk.replicas)) (rack : String)
    (node : NodeName) (disk : DiskName) :
    (center.pushReplicaToVdisk vdisk rack node disk).1.Counts
      (replicas ++ (center.pushReplicaToVdisk vdisk rack node disk).2.replicas) := by
  intro otherNode otherDisk
  have same : (⟨node.str, disk.str⟩ : Replica) = ⟨otherNode.str, otherDisk.str⟩ ↔
      otherNode = node ∧ otherDisk = disk := by
    obtain ⟨node⟩ := node
    obtain ⟨otherNode⟩ := otherNode
    obtain ⟨disk⟩ := disk
    obtain ⟨otherDisk⟩ := otherDisk
    simp [eq_comm]
  rw [disksUsedCount_push, counts, pushReplicaToVdisk]
  simp only [List.count_append, List.count_singleton, beq_iff_eq, same, Nat.add_assoc]

end Center

/-! ## One rack with one disk on each node -/

structure Rack.OneDiskEach (rack : Rack) : Prop where
  names : (rack.nodes.map (·.name)).Nodup
  one : ∀ node ∈ rack.nodes, node.disks.length = 1

namespace Rack

variable {rack : Rack} {counter : Counter} {used : List NodeName} {place other : Node × Disk}

/-- A free disk is found, and it is one of the least used. -/
theorem nextDisk_of_free (free : rack.freeDisks used ≠ []) :
    ∃ place ∈ rack.freeDisks used, rack.nextDisk counter used = .ok place ∧
      ∀ other ∈ rack.freeDisks used, counter.diskUsedCount place ≤ counter.diskUsedCount other := by
  cases hleast : (rack.freeDisks used).argmin counter.diskUsedCount with
  | none => exact absurd (List.argmin_eq_none.mp hleast) free
  | some place =>
    have member := List.argmin_mem hleast
    refine ⟨place, member, ?_, fun other hother => List.le_of_mem_argmin hother hleast⟩
    -- the fallback exists as well, since the rack has a disk
    cases hfallback : (nodeDisks rack.nodes).argmin counter.diskUsedCount with
    | none =>
      have listed := (mem_freeDisks_iff.mp member).1
      rw [List.argmin_eq_none.mp hfallback] at listed
      cases listed
    | some fallback =>
      simp only [nextDisk, minUsedDisk, hfallback, hleast]
      rfl

namespace OneDiskEach

theorem place_eq (one : rack.OneDiskEach) (hplace : place ∈ nodeDisks rack.nodes)
    (hother : other ∈ nodeDisks rack.nodes) (same : place.1.name = other.1.name) :
    place = other := by
  obtain ⟨hnode, hdisk⟩ := mem_nodeDisks_iff.mp hplace
  obtain ⟨hotherNode, hotherDisk⟩ := mem_nodeDisks_iff.mp hother
  have sameNode := List.inj_on_of_nodup_map one.names hnode hotherNode same
  obtain ⟨only, honly⟩ := List.length_eq_one_iff.mp (one.one place.1 hnode)
  rw [honly, List.mem_singleton] at hdisk
  rw [← sameNode, honly, List.mem_singleton] at hotherDisk
  exact Prod.ext sameNode (hdisk.trans hotherDisk.symm)

/-- While there are fewer replicas than nodes, some node is free. -/
theorem freeDisks_ne_nil (one : rack.OneDiskEach) (room : used.length < rack.nodes.length) :
    rack.freeDisks used ≠ [] := by
  intro full
  have covered : rack.nodes.map (·.name) ⊆ used := by
    intro name member
    obtain ⟨node, hnode, rfl⟩ := List.mem_map.mp member
    refine freeDisks_eq_nil_iff.mp full _ (mem_slots_iff.mpr ⟨node, hnode, ?_, rfl⟩)
    intro empty
    simpa [empty] using one.one node hnode
  have bound := (List.subperm_of_subset one.names covered).length_le
  rw [List.length_map] at bound
  omega

end OneDiskEach

end Rack

/-! ## One vdisk -/

/-- A vdisk is being made, after some replicas of others. -/
structure Filling (rack : Rack) (made : List Replica) (center : Center) (vdisk : VDisk) :
    Prop where
  racks : center.racks = [rack]
  counts : center.Counts (made ++ vdisk.replicas)
  has : ∀ replica ∈ vdisk.replicas, Has [rack] replica
  nodes : (getUsedNodesNames vdisk.replicas).Nodup
  even : EvenlyFilled (nodeDisks rack.nodes) center.counter.diskUsedCount
    fun place => place.1.name ∈ getUsedNodesNames vdisk.replicas

namespace Filling

variable {rack : Rack} {made : List Replica} {center : Center} {vdisk : VDisk}

theorem nextRack (filling : Filling rack made center vdisk) : center.nextRack = .ok rack := by
  rw [Center.nextRack, filling.racks]
  rfl

theorem rackForReplica (filling : Filling rack made center vdisk) :
    center.rackForReplica rack.name vdisk = .ok rack := by
  have byName : center.rackByName rack.name = .ok rack := by
    simp [Center.rackByName, filling.racks]
  simp only [Center.rackForReplica, byName, filling.nextRack, ite_self]

/-- One more replica. -/
theorem push (one : rack.OneDiskEach) (filling : Filling rack made center vdisk)
    (room : vdisk.replicas.length < rack.nodes.length) :
    ∃ place, rack.nextDisk center.counter (getUsedNodesNames vdisk.replicas) = .ok place ∧
      Filling rack made
        (center.pushReplicaToVdisk vdisk rack.name place.1.name place.2.name).1
        (center.pushReplicaToVdisk vdisk rack.name place.1.name place.2.name).2 := by
  have free : rack.freeDisks (getUsedNodesNames vdisk.replicas) ≠ [] :=
    one.freeDisks_ne_nil (by rwa [getUsedNodesNames, List.length_map])
  obtain ⟨place, hplace, found, least⟩ := @Rack.nextDisk_of_free _ center.counter _ free
  obtain ⟨member, fresh⟩ := Rack.mem_freeDisks_iff.mp hplace
  have used : getUsedNodesNames
      (center.pushReplicaToVdisk vdisk rack.name place.1.name place.2.name).2.replicas =
        getUsedNodesNames vdisk.replicas ++ [place.1.name] := by
    rw [Center.pushReplicaToVdisk, getUsedNodesNames, getUsedNodesNames, List.map_append]
    rfl
  refine ⟨place, found, filling.racks, filling.counts.push _ _ _, ?_, ?_, ?_⟩
  · intro replica here
    rcases List.mem_append.mp here with earlier | last
    · exact filling.has replica earlier
    · exact ⟨rack, .head _, place, member, List.mem_singleton.mp last⟩
  · rw [used, ← List.concat_eq_append]
    exact filling.nodes.concat fresh
  · refine filling.even.take member fresh ?_ ?_ ?_ ?_
    · exact fun other hother unused => least other (Rack.mem_freeDisks_iff.mpr ⟨hother, unused⟩)
    · simp [Counter.diskUsedCount, Center.disksUsedCount_push]
    · intro other hother differs
      have otherName : other.1.name ≠ place.1.name :=
        fun same => differs (one.place_eq hother member same)
      simp [Counter.diskUsedCount, Center.disksUsedCount_push, otherName]
    · intro other hother
      rw [used, List.mem_append, List.mem_singleton, or_comm]
      refine or_congr_left ⟨one.place_eq hother member, fun same => by rw [same]⟩

/-- The loop of `create_vdisk`. -/
theorem addReplicas (one : rack.OneDiskEach) (rounds : ℕ)
    (filling : Filling rack made center vdisk)
    (room : vdisk.replicas.length + rounds ≤ rack.nodes.length) :
    ∃ center' vdisk', Center.addReplicas rack.name rounds (center, vdisk) = .ok (center', vdisk') ∧
      vdisk'.replicas.length = vdisk.replicas.length + rounds ∧
      Filling rack made center' vdisk' := by
  induction rounds generalizing center vdisk with
  | zero => exact ⟨center, vdisk, rfl, rfl, filling⟩
  | succ rounds ih =>
    obtain ⟨place, found, pushed⟩ := filling.push one (by omega)
    have step : center.addReplica rack.name vdisk =
        .ok (center.pushReplicaToVdisk vdisk rack.name place.1.name place.2.name) :=
      bind_eq_ok_iff.mpr ⟨rack, filling.rackForReplica, bind_eq_ok_iff.mpr ⟨place, found, rfl⟩⟩
    have longer := @Center.length_pushReplicaToVdisk center vdisk rack.name place.1.name
      place.2.name
    obtain ⟨center', vdisk', rest, length, filled⟩ := ih pushed (by omega)
    refine ⟨center', vdisk', ?_, by omega, filled⟩
    rw [Center.addReplicas, step]
    exact rest

end Filling

/-! ## All vdisks -/

/-- Some vdisks were made, and none is in the making. -/
structure Filled (rack : Rack) (replicasCount : ℕ) (vdisks : List VDisk) (center : Center) :
    Prop where
  racks : center.racks = [rack]
  counts : center.Counts (vdisks.flatMap (·.replicas))
  vdisks : ∀ vdisk ∈ vdisks, vdisk.replicas.length = replicasCount ∧
    (getUsedNodesNames vdisk.replicas).Nodup ∧ ∀ replica ∈ vdisk.replicas, Has [rack] replica
  even : EvenlyFilled (nodeDisks rack.nodes) center.counter.diskUsedCount fun _ => False

/-- The states of the loop of `simple_gen`: what was made so far, and the center. -/
inductive Made (replicasCount : ℕ) (start : Center) : List VDisk → Center → Prop
  | start : Made replicasCount start [] start
  | create {vdisks center center' vdisk} : Made replicasCount start vdisks center →
      center.createVdisk (UInt32.ofNat vdisks.length) replicasCount = .ok (center', vdisk) →
      Made replicasCount start (vdisks ++ [vdisk]) center'

section Vdisks

variable {rack : Rack} {replicasCount : ℕ} {vdisks : List VDisk} {center start : Center}

/-- The next vdisk is made. -/
theorem Filled.createVdisk (one : rack.OneDiskEach) (positive : 1 ≤ replicasCount)
    (fits : replicasCount ≤ rack.nodes.length) (filled : Filled rack replicasCount vdisks center)
    (id : VDiskId) :
    ∃ center' vdisk, center.createVdisk id replicasCount = .ok (center', vdisk) ∧
      Filled rack replicasCount (vdisks ++ [vdisk]) center' := by
  have filling : Filling rack (vdisks.flatMap (·.replicas)) center ⟨id, []⟩ :=
    ⟨filled.racks, by rw [List.append_nil]; exact filled.counts, by simp,
      List.nodup_nil, filled.even.restart fun _ _ => List.not_mem_nil⟩
  obtain ⟨place, found, first⟩ := filling.push one (Nat.lt_of_lt_of_le positive fits)
  have single := @Center.length_pushReplicaToVdisk center ⟨id, []⟩ rack.name place.1.name
    place.2.name
  rw [List.length_nil, Nat.zero_add] at single
  obtain ⟨center', vdisk, added, length, done⟩ := first.addReplicas one (replicasCount - 1)
    (by omega)
  refine ⟨center', vdisk, ?_, done.racks, ?_, fun other hother => ?_, ?_⟩
  · exact bind_eq_ok_iff.mpr ⟨rack, filling.nextRack, bind_eq_ok_iff.mpr ⟨place, found, added⟩⟩
  · rw [List.flatMap_append, List.flatMap_singleton]
    exact done.counts
  · rcases List.mem_append.mp hother with earlier | last
    · exact filled.vdisks other earlier
    · rw [List.mem_singleton.mp last]
      exact ⟨by omega, done.nodes, done.has⟩
  · exact done.even.restart fun _ _ => not_false

theorem Made.filled (one : rack.OneDiskEach) (positive : 1 ≤ replicasCount)
    (fits : replicasCount ≤ rack.nodes.length) (empty : Filled rack replicasCount [] start)
    (made : Made replicasCount start vdisks center) :
    Filled rack replicasCount vdisks center := by
  induction made with
  | start => exact empty
  | create _ created ih =>
    obtain ⟨_, _, again, filled⟩ := ih.createVdisk one positive fits _
    rw [created] at again
    cases again
    exact filled

/-- The loop makes as many vdisks as asked for. -/
theorem Made.createVdisks (one : rack.OneDiskEach) (positive : 1 ≤ replicasCount)
    (fits : replicasCount ≤ rack.nodes.length) (empty : Filled rack replicasCount [] start)
    (count : ℕ) (made : Made replicasCount start vdisks center) :
    ∃ rest center', Center.createVdisks replicasCount count vdisks.length center = .ok rest ∧
      rest.length = count ∧ Made replicasCount start (vdisks ++ rest) center' := by
  induction count generalizing vdisks center with
  | zero => exact ⟨[], center, rfl, rfl, by rwa [List.append_nil]⟩
  | succ count ih =>
    have filled := made.filled one positive fits empty
    obtain ⟨next, vdisk, created, -⟩ := filled.createVdisk one positive fits
      (UInt32.ofNat vdisks.length)
    obtain ⟨rest, center', later, length, all⟩ := ih (made.create created)
    rw [List.length_append, List.length_singleton] at later
    refine ⟨vdisk :: rest, center', ?_, by simp [length], by rwa [List.append_cons]⟩
    exact bind_eq_ok_iff.mpr ⟨(next, vdisk), created, bind_eq_ok_iff.mpr ⟨rest, later, rfl⟩⟩

end Vdisks

/-! ## Generation without racks -/

/-- The center that `simple_gen` starts with, when racks are not in use. -/
def plainCenter (config : Cluster) : Center :=
  ⟨[⟨"unknown", config.nodes.map Node.ofConfig, true⟩], .new⟩

/-- How many replicas of some vdisks are on a disk. -/
def replicasOn (vdisks : List VDisk) (node : ClusterNode) (disk : DiskPath) : ℕ :=
  (vdisks.flatMap (·.replicas)).count ⟨node.name, disk.name.str⟩

/-- The loop of `simple_gen` is in a state with these vdisks and this center. -/
def Generates (order : AnyOrder Rack) (config : Cluster) (replicasCount : ℕ) (useRacks : Bool)
    (vdisks : List VDisk) (center : Center) : Prop :=
  ∃ start, Center.fromClusterConfig order config useRacks = .ok start ∧
    start.validate = .ok () ∧ Made replicasCount start vdisks center

/-- The counters are right, each vdisk has its replicas on disks of distinct nodes of the
file, and no disk has two replicas more than another. -/
structure Balanced (config : Cluster) (replicasCount : ℕ) (vdisks : List VDisk)
    (center : Center) : Prop where
  counters : ∀ node ∈ config.nodes, ∀ disk ∈ node.disks,
    center.counter.disksUsedCount ⟨node.name⟩ disk.name = replicasOn vdisks node disk
  nodes : ∀ vdisk ∈ vdisks, vdisk.replicas.length = replicasCount ∧
    (vdisk.replicas.map (·.node)).Nodup ∧ ∀ replica ∈ vdisk.replicas, config.Lists replica
  even : ∀ node ∈ config.nodes, ∀ disk ∈ node.disks, ∀ other ∈ config.nodes,
    ∀ otherDisk ∈ other.disks, replicasOn vdisks node disk ≤ replicasOn vdisks other otherDisk + 1

section Plain

variable {order : AnyOrder Rack} {config : Cluster} {replicasCount : ℕ} {useRacks : Bool}
  {vdisks : List VDisk} {center : Center}

theorem oneDiskEach_plainCenter (valid : (plainCenter config).validate = .ok ())
    (one : ∀ node ∈ config.nodes, node.disks.length = 1) :
    Rack.OneDiskEach ⟨"unknown", config.nodes.map Node.ofConfig, true⟩ := by
  constructor
  · have distinct := (Center.distinct_of_validate valid).nodes
    rwa [plainCenter, List.flatMap_singleton] at distinct
  · intro node hnode
    obtain ⟨listed, hlisted, rfl⟩ := List.mem_map.mp hnode
    rw [Node.ofConfig, List.length_map]
    exact one listed hlisted

theorem filled_plainCenter :
    Filled ⟨"unknown", config.nodes.map Node.ofConfig, true⟩ replicasCount []
      (plainCenter config) where
  racks := rfl
  counts := fun _ _ => rfl
  vdisks := by simp
  even := .zero fun _ _ => rfl

theorem Filled.balanced
    (built : Center.fromClusterConfig order config useRacks = .ok (plainCenter config))
    (filled : Filled ⟨"unknown", config.nodes.map Node.ofConfig, true⟩ replicasCount vdisks
      center) :
    Balanced config replicasCount vdisks center := by
  have counter (node : ClusterNode) (disk : DiskPath) :
      center.counter.disksUsedCount ⟨node.name⟩ disk.name = replicasOn vdisks node disk :=
    filled.counts ⟨node.name⟩ disk.name
  have place {node : ClusterNode} (hnode : node ∈ config.nodes) {disk : DiskPath}
      (hdisk : disk ∈ node.disks) : (Node.ofConfig node, (⟨disk.name, true⟩ : Disk)) ∈
        nodeDisks (config.nodes.map Node.ofConfig) :=
    mem_nodeDisks_iff.mpr ⟨List.mem_map_of_mem hnode, List.mem_map_of_mem hdisk⟩
  refine ⟨fun node _ disk _ => counter node disk, fun vdisk hvdisk => ?_, ?_⟩
  · obtain ⟨length, nodup, has⟩ := filled.vdisks vdisk hvdisk
    refine ⟨length, List.Nodup.of_map NodeName.mk ?_, fun replica here => ?_⟩
    · rwa [List.map_map]
    · exact lists_of_has built (has replica here)
  · intro node hnode disk hdisk other hother otherDisk hotherDisk
    rw [← counter, ← counter]
    exact filled.even.le_add_one (place hnode hdisk) (place hother hotherDisk)

/-- Without racks and with one disk on each node, generation is balanced after each vdisk,
and it makes as many vdisks as it should. -/
theorem simpleGen_balanced (unused : (!useRacks || config.racks.isEmpty) = true)
    (one : ∀ node ∈ config.nodes, node.disks.length = 1) (positive : 1 ≤ replicasCount)
    (fits : replicasCount ≤ config.nodes.length) :
    (∀ vdisks center, Generates order config replicasCount useRacks vdisks center →
      Balanced config replicasCount vdisks center) ∧
    ((plainCenter config).validate = .ok () → ∀ totalVdisks vdisksPerDisk count,
      vdisksCount (plainCenter config) replicasCount totalVdisks vdisksPerDisk = .ok count →
      ∃ vdisks center, Generates order config replicasCount useRacks vdisks center ∧
        vdisks.length = count ∧
        simpleGen order config replicasCount totalVdisks vdisksPerDisk useRacks =
          .ok { config with vdisks := config.vdisks ++ vdisks }) := by
  have built : Center.fromClusterConfig order config useRacks = .ok (plainCenter config) :=
    Center.fromClusterConfig_eq_of_no_racks unused
  have room : replicasCount ≤
      (⟨"unknown", config.nodes.map Node.ofConfig, true⟩ : Rack).nodes.length := by
    rwa [List.length_map]
  constructor
  · rintro vdisks center ⟨start, again, valid, made⟩
    rw [built] at again
    cases again
    have filled := made.filled (oneDiskEach_plainCenter valid one) positive room filled_plainCenter
    exact filled.balanced built
  · intro valid totalVdisks vdisksPerDisk count counted
    obtain ⟨vdisks, center, created, length, made⟩ := Made.start.createVdisks
      (oneDiskEach_plainCenter valid one) positive room filled_plainCenter count
    refine ⟨vdisks, center, ⟨_, built, valid, made⟩, length, ?_⟩
    refine bind_eq_ok_iff.mpr ⟨_, built, bind_eq_ok_iff.mpr ⟨(), valid, ?_⟩⟩
    exact bind_eq_ok_iff.mpr ⟨count, counted, bind_eq_ok_iff.mpr ⟨vdisks, created, rfl⟩⟩

end Plain

/-- Three nodes with one disk each. -/
def threeNodes : Cluster where
  nodes :=
    [⟨"n1", "n1:20000", [⟨⟨"d1"⟩, "/d1"⟩]⟩, ⟨"n2", "n2:20000", [⟨⟨"d1"⟩, "/d1"⟩]⟩,
      ⟨"n3", "n3:20000", [⟨⟨"d1"⟩, "/d1"⟩]⟩]
  vdisks := []
  racks := []

/-- The second of two vdisks crosses from one level to the next. -/
theorem balanced_two_vdisks_on_three_nodes :
    ∃ vdisks center, Generates .launched threeNodes 2 false vdisks center ∧
      vdisks.map (·.replicas) = [[⟨"n1", "d1"⟩, ⟨"n2", "d1"⟩], [⟨"n3", "d1"⟩, ⟨"n1", "d1"⟩]] ∧
      Balanced threeNodes 2 vdisks center := by
  obtain ⟨balanced, generated⟩ := @simpleGen_balanced .launched threeNodes 2 false rfl
    (by decide) (by decide) (by decide)
  obtain ⟨vdisks, center, reached, -, made⟩ := generated rfl (some 2) none 2 rfl
  have computed : simpleGen .launched threeNodes 2 (some 2) none false = .ok { threeNodes with
      vdisks := [⟨0, [⟨"n1", "d1"⟩, ⟨"n2", "d1"⟩]⟩, ⟨1, [⟨"n3", "d1"⟩, ⟨"n1", "d1"⟩]⟩] } := rfl
  rw [computed] at made
  have same := congrArg Cluster.vdisks (Except.ok.inj made)
  have listed : vdisks = [⟨0, [⟨"n1", "d1"⟩, ⟨"n2", "d1"⟩]⟩, ⟨1, [⟨"n3", "d1"⟩, ⟨"n1", "d1"⟩]⟩] :=
    same.symm
  exact ⟨vdisks, center, reached, by rw [listed]; rfl, balanced vdisks center reached⟩

end Bob.Generator

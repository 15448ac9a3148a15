/-
# Generating vdisks

`simple_gen` makes vdisks one after the other. The first replica of a vdisk goes to the
least used rack, the third to the same rack again, and each other replica to the rack
that is the least used by then. Within a rack it prefers nodes that the vdisk does not
use.

Which racks are chosen does not depend on nodes and disks. So there is a plan of racks,
computed from their names alone, and the generated file follows it. The replicas of
each vdisk are on distinct nodes just when the plan never asks a rack for more nodes
with disks than it has.
-/

import Bob.Generator.Center

namespace Bob.Generator

open Bob.Configs Bob.Math

/-! ## The source -/

def replicaInFirstRack : ℕ := 2

def shouldPlaceInFirstRack (vdisk : VDisk) : Bool := vdisk.replicas.length = replicaInFirstRack

namespace Center

def rackForReplica (center : Center) (firstRack : String) (vdisk : VDisk) : Except Stop Rack :=
  if shouldPlaceInFirstRack vdisk then
    match center.rackByName firstRack with
    | .ok rack => .ok rack
    | .error _ => center.nextRack
  else center.nextRack

/-- One round of the loop of `create_vdisk`. -/
def addReplica (center : Center) (firstRack : String) (vdisk : VDisk) :
    Except Stop (Center × VDisk) := do
  let bannedNodes := getUsedNodesNames vdisk.replicas
  let rack ← center.rackForReplica firstRack vdisk
  let place ← rack.nextDisk center.counter bannedNodes
  return center.pushReplicaToVdisk vdisk rack.name place.1.name place.2.name

/-- The loop of `create_vdisk`. Each round adds a replica, so the rounds can be counted. -/
def addReplicas (firstRack : String) : ℕ → Center × VDisk → Except Stop (Center × VDisk)
  | 0, state => .ok state
  | rounds + 1, (center, vdisk) => do
    let state ← center.addReplica firstRack vdisk
    addReplicas firstRack rounds state

def createVdisk (center : Center) (id : VDiskId) (replicasCount : ℕ) :
    Except Stop (Center × VDisk) := do
  let firstRack ← center.nextRack
  let place ← firstRack.nextDisk center.counter []
  let state := center.pushReplicaToVdisk ⟨id, []⟩ firstRack.name place.1.name place.2.name
  addReplicas firstRack.name (replicasCount - state.2.replicas.length) state

/-- The loop of `simple_gen`, when some vdisks have been made. -/
def createVdisks (replicasCount : ℕ) : ℕ → ℕ → Center → Except Stop (List VDisk)
  | 0, _, _ => .ok []
  | count + 1, made, center => do
    let (center, vdisk) ← center.createVdisk (UInt32.ofNat made) replicasCount
    let rest ← createVdisks replicasCount count (made + 1) center
    return vdisk :: rest

end Center

def ceil (a b : ℕ) : Except Stop ℕ :=
  if b = 0 then
    .error (.panic "attempt to calculate the remainder with a divisor of zero")
  else if a % b > 0 then .ok (a / b + 1)
  else .ok (a / b)

/-- How many vdisks are to be made. The product is of 64 bits. -/
def vdisksCount (center : Center) (replicasCount : ℕ) (totalVdisks vdisksPerDisk : Option ℕ) :
    Except Stop ℕ :=
  match vdisksPerDisk, totalVdisks with
  | some vdpd, _ => ceil (vdpd * center.disksCount % 2 ^ 64) replicasCount
  | none, some total => .ok total
  | none, none => .error (.panic "called `Option::unwrap()` on a `None` value")

def simpleGen (order : AnyOrder Rack) (config : Cluster) (replicasCount : ℕ)
    (totalVdisks vdisksPerDisk : Option ℕ) (useRacks : Bool) : Except Stop Cluster := do
  let center ← Center.fromClusterConfig order config useRacks
  center.validate
  let count ← vdisksCount center replicasCount totalVdisks vdisksPerDisk
  let vdisks ← Center.createVdisks replicasCount count 0 center
  return { config with vdisks := config.vdisks ++ vdisks }

/-! ## The plan of racks -/

/-- The counters when a rack has been used once more. -/
def useRack (used : String → ℕ) (rack : String) : String → ℕ :=
  Function.update used rack (used rack + 1)

/-- The rack of a replica, when some have been placed. -/
def planReplica (names : List String) (first : String) (placed : ℕ) (used : String → ℕ) :
    Option String :=
  if placed = replicaInFirstRack then some first else names.argmin used

/-- The racks of the next replicas, and the counters after them. -/
def planReplicas (names : List String) (first : String) :
    ℕ → ℕ → (String → ℕ) → List String × (String → ℕ)
  | 0, _, used => ([], used)
  | rounds + 1, placed, used =>
    match planReplica names first placed used with
    | none => ([], used)
    | some rack =>
      let rest := planReplicas names first rounds (placed + 1) (useRack used rack)
      (rack :: rest.1, rest.2)

/-- The racks of the replicas of one vdisk. -/
def planVdisk (names : List String) (replicasCount : ℕ) (used : String → ℕ) :
    List String × (String → ℕ) :=
  match names.argmin used with
  | none => ([], used)
  | some first =>
    let rest := planReplicas names first (replicasCount - 1) 1 (useRack used first)
    (first :: rest.1, rest.2)

def planVdisks (names : List String) (replicasCount : ℕ) : ℕ → (String → ℕ) → List (List String)
  | 0, _ => []
  | count + 1, used =>
    let vdisk := planVdisk names replicasCount used
    vdisk.1 :: planVdisks names replicasCount count vdisk.2

/-! ## Following the plan -/

/-- The nodes with disks of the rack with a name. -/
def slotsOf (racks : List Rack) (name : String) : List NodeName :=
  ((racks.find? fun rack => rack.name = name).map Rack.slots).getD []

/-- The racks have the disk that a replica names. -/
def Has (racks : List Rack) (replica : Replica) : Prop :=
  ∃ rack ∈ racks, ∃ place ∈ nodeDisks rack.nodes,
    replica = ⟨place.1.name.str, place.2.name.str⟩

namespace Center

variable {center center' : Center} {vdisk vdisk' : VDisk} {first : String} {rack : Rack}

theorem slotsOf_name (distinct : center.Distinct) (listed : rack ∈ center.racks) :
    slotsOf center.racks rack.name = rack.slots := by
  rw [slotsOf, find?_key_eq_some distinct.racks listed]
  rfl

theorem exists_rack_of_mem_slotsOf {racks : List Rack} {name : String} {node : NodeName}
    (member : node ∈ slotsOf racks name) :
    ∃ rack ∈ racks, rack.name = name ∧ node ∈ rack.slots := by
  unfold slotsOf at member
  cases found : racks.find? fun rack => rack.name = name with
  | none => simp [found] at member
  | some rack =>
    rw [found] at member
    exact ⟨rack, List.mem_of_find?_eq_some found, by simpa using List.find?_some found, member⟩

theorem mem_names_of_mem_slots {node : NodeName} (member : node ∈ rack.slots) :
    node ∈ rack.nodes.map (·.name) := by
  obtain ⟨listed, hlisted, -, rfl⟩ := Rack.mem_slots_iff.mp member
  exact List.mem_map_of_mem hlisted

theorem nodup_slots (distinct : center.Distinct) (listed : rack ∈ center.racks) :
    rack.slots.Nodup :=
  ((List.nodup_flatMap.mp distinct.nodes).1 rack listed).sublist (List.filter_sublist.map _)

theorem nodup_slotsOf (distinct : center.Distinct) (name : String) :
    (slotsOf center.racks name).Nodup := by
  unfold slotsOf
  cases found : center.racks.find? fun rack => rack.name = name with
  | none => exact List.nodup_nil
  | some rack => exact nodup_slots distinct (List.mem_of_find?_eq_some found)

/-- A node is in one rack only. -/
theorem slotsOf_disjoint (distinct : center.Distinct) (a b : String) (node : NodeName)
    (inA : node ∈ slotsOf center.racks a) (inB : node ∈ slotsOf center.racks b) : a = b := by
  obtain ⟨rackA, hA, rfl, nodeA⟩ := exists_rack_of_mem_slotsOf inA
  obtain ⟨rackB, hB, rfl, nodeB⟩ := exists_rack_of_mem_slotsOf inB
  by_contra ne
  have symm : Std.Symm (Function.onFun List.Disjoint fun rack : Rack => rack.nodes.map (·.name)) :=
    ⟨fun _ _ apart => apart.symm⟩
  have apart := (List.nodup_flatMap.mp distinct.nodes).2.forall hA hB fun same => ne (by rw [same])
  exact apart (mem_names_of_mem_slots nodeA) (mem_names_of_mem_slots nodeB)

/-- The names of the racks. -/
def names (center : Center) : List String := center.racks.map (·.name)

theorem nextRack_spec (found : center.nextRack = .ok rack) :
    rack ∈ center.racks ∧ center.names.argmin center.counter.racksUsedCount = some rack.name := by
  unfold nextRack at found
  split at found
  · rename_i least hleast
    cases found
    refine ⟨List.argmin_mem hleast, ?_⟩
    rw [names, argmin_map]
    exact congrArg (Option.map Rack.name) hleast
  · cases found

theorem rackByName_spec {name : String} (listed : name ∈ center.names) :
    ∃ rack ∈ center.racks, center.rackByName name = .ok rack ∧ rack.name = name := by
  obtain ⟨rack, hrack, rfl⟩ := List.mem_map.mp listed
  obtain ⟨other, found⟩ := Option.isSome_iff_exists.mp
    (List.find?_isSome.mpr ⟨rack, hrack, decide_eq_true rfl⟩ :
      (center.racks.find? fun other => other.name = rack.name).isSome)
  exact ⟨other, List.mem_of_find?_eq_some found, by rw [rackByName, found],
    by simpa using List.find?_some found⟩

/-- The rack of a replica is the planned one. -/
theorem rackForReplica_spec (known : first ∈ center.names)
    (found : center.rackForReplica first vdisk = .ok rack) :
    rack ∈ center.racks ∧
      planReplica center.names first vdisk.replicas.length center.counter.racksUsedCount =
        some rack.name := by
  unfold rackForReplica at found
  unfold planReplica
  by_cases third : vdisk.replicas.length = replicaInFirstRack
  · obtain ⟨chosen, listed, byName, named⟩ := rackByName_spec known
    rw [shouldPlaceInFirstRack, if_pos (decide_eq_true third), byName] at found
    cases found
    rw [if_pos third, named]
    exact ⟨listed, rfl⟩
  · rw [shouldPlaceInFirstRack, if_neg (by simpa using third)] at found
    rw [if_neg third]
    exact nextRack_spec found

end Center

/-! ### One vdisk -/

/-- The racks and nodes that the replicas of a vdisk went to. -/
structure Traced (racks : List Rack) (vdisk : VDisk) (trace : List (String × NodeName)) :
    Prop where
  nodes : trace.map Prod.snd = getUsedNodesNames vdisk.replicas
  greedy : Guarded (TakesFree (slotsOf racks)) trace
  has : ∀ replica ∈ vdisk.replicas, Has racks replica

namespace Traced

variable {center : Center} {vdisk : VDisk} {trace : List (String × NodeName)}

theorem empty (id : VDiskId) : Traced center.racks ⟨id, []⟩ [] := ⟨rfl, .nil, by simp⟩

/-- A replica goes to a node that is free, if its rack has one. -/
theorem push (distinct : center.Distinct) (traced : Traced center.racks vdisk trace) {rack : Rack}
    (listed : rack ∈ center.racks) {place : Node × Disk}
    (found : rack.nextDisk center.counter (getUsedNodesNames vdisk.replicas) = .ok place) :
    Traced center.racks
      (center.pushReplicaToVdisk vdisk rack.name place.1.name place.2.name).2
      (trace ++ [(rack.name, place.1.name)]) := by
  obtain ⟨member, fresh⟩ := Rack.nextDisk_cases found
  refine ⟨?_, Guarded.append_iff.mpr ⟨traced.greedy, ?_⟩, ?_⟩
  · rw [List.map_append, traced.nodes, Center.pushReplicaToVdisk, getUsedNodesNames,
      getUsedNodesNames, List.map_append]
    rfl
  · intro before event after split
    obtain ⟨rfl, rfl, rfl⟩ : before = [] ∧ event = (rack.name, place.1.name) ∧ after = [] := by
      cases before with
      | nil => simpa [eq_comm] using split
      | cons => simp at split
    rw [List.append_nil, TakesFree, Center.slotsOf_name distinct listed, traced.nodes]
    refine ⟨Rack.mem_slots_of_mem_nodeDisks member, fun used => ?_⟩
    exact fresh.elim (absurd used) (·.1)
  · intro replica hreplica
    rcases List.mem_append.mp hreplica with old | new
    · exact traced.has replica old
    · exact ⟨rack, listed, place, member, List.mem_singleton.mp new⟩

end Traced

namespace Center

variable {center center' : Center} {vdisk vdisk' : VDisk} {first : String}
  {trace : List (String × NodeName)}

theorem length_pushReplicaToVdisk (rack : String) (node : NodeName) (disk : DiskName) :
    (center.pushReplicaToVdisk vdisk rack node disk).2.replicas.length =
      vdisk.replicas.length + 1 := by
  rw [pushReplicaToVdisk, List.length_append, List.length_singleton]

theorem Distinct.push (distinct : center.Distinct) (vdisk : VDisk) (rack : String)
    (node : NodeName) (disk : DiskName) :
    (center.pushReplicaToVdisk vdisk rack node disk).1.Distinct :=
  distinct.of_racks_eq rfl

/-- The remaining replicas of a vdisk follow the plan. -/
theorem addReplicas_follows (rounds : ℕ) (distinct : center.Distinct) (known : first ∈ center.names)
    (traced : Traced center.racks vdisk trace)
    (done : addReplicas first rounds (center, vdisk) = .ok (center', vdisk')) :
    center'.racks = center.racks ∧ vdisk'.id = vdisk.id ∧
      vdisk'.replicas.length = vdisk.replicas.length + rounds ∧
      ∃ racks : List String,
        planReplicas center.names first rounds vdisk.replicas.length
          center.counter.racksUsedCount = (racks, center'.counter.racksUsedCount) ∧
        ∃ trace', Traced center.racks vdisk' trace' ∧
          trace'.map Prod.fst = trace.map Prod.fst ++ racks := by
  induction rounds generalizing center vdisk trace with
  | zero =>
    cases done
    exact ⟨rfl, rfl, rfl, [], rfl, trace, traced, (List.append_nil _).symm⟩
  | succ rounds ih =>
    obtain ⟨⟨next, grown⟩, one, rest⟩ := bind_eq_ok_iff.mp done
    obtain ⟨rack, hrack, one⟩ := bind_eq_ok_iff.mp one
    obtain ⟨place, hplace, one⟩ := bind_eq_ok_iff.mp one
    cases one
    obtain ⟨listed, planned⟩ := rackForReplica_spec known hrack
    -- the step leaves the racks alone, so the induction hypothesis applies to its result
    obtain ⟨same, id, length, racks, plan, trace', traced', racks_eq⟩ := ih
      (distinct.push vdisk rack.name place.1.name place.2.name) known
      (traced.push distinct listed hplace) rest
    rw [length_pushReplicaToVdisk] at length plan
    refine ⟨same, id, by omega, rack.name :: racks, ?_, trace', traced', ?_⟩
    · have later : planReplicas center.names first rounds (vdisk.replicas.length + 1)
          (useRack center.counter.racksUsedCount rack.name) =
            (racks, center'.counter.racksUsedCount) := plan
      simp only [planReplicas, planned, later]
    · rw [racks_eq, List.map_append, List.append_assoc]
      rfl

/-- A vdisk has as many replicas as asked for, and they follow the plan. -/
theorem createVdisk_follows {id : VDiskId} {replicasCount : ℕ} (distinct : center.Distinct)
    (positive : 1 ≤ replicasCount)
    (created : center.createVdisk id replicasCount = .ok (center', vdisk')) :
    center'.racks = center.racks ∧ vdisk'.id = id ∧ vdisk'.replicas.length = replicasCount ∧
      ∃ trace, Traced center.racks vdisk' trace ∧
        planVdisk center.names replicasCount center.counter.racksUsedCount =
          (trace.map Prod.fst, center'.counter.racksUsedCount) := by
  obtain ⟨rack, hrack, created⟩ := bind_eq_ok_iff.mp created
  obtain ⟨place, hplace, created⟩ := bind_eq_ok_iff.mp created
  obtain ⟨listed, planned⟩ := nextRack_spec hrack
  replace created : addReplicas rack.name (replicasCount - 1) (center.pushReplicaToVdisk ⟨id, []⟩
    rack.name place.1.name place.2.name) = .ok (center', vdisk') := created
  obtain ⟨same, hid, length, racks, plan, trace, traced, racks_eq⟩ := addReplicas_follows _
    (distinct.push ⟨id, []⟩ rack.name place.1.name place.2.name) (List.mem_map_of_mem listed)
    ((Traced.empty id).push distinct listed hplace) created
  rw [length_pushReplicaToVdisk] at length plan
  refine ⟨same, hid, by simp only [List.length_nil] at length; omega, trace, traced, ?_⟩
  have later : planReplicas center.names rack.name (replicasCount - 1) 1
      (useRack center.counter.racksUsedCount rack.name) =
        (racks, center'.counter.racksUsedCount) := plan
  simp only [planVdisk, planned, later, racks_eq]
  rfl

end Center

/-! ### All vdisks -/

/-- In no vdisk of the plan a rack is asked for more nodes with disks than it has. -/
def Spread (center : Center) (replicasCount count : ℕ) : Prop :=
  ∀ racks ∈ planVdisks center.names replicasCount count center.counter.racksUsedCount,
    ∀ rack ∈ center.racks, racks.count rack.name ≤ rack.slots.length

namespace Center

variable {center : Center} {replicasCount : ℕ} {vdisk : VDisk}
  {trace : List (String × NodeName)}

/-- The replicas of a vdisk are on distinct nodes just when no rack was chosen more often
than it has nodes with disks. -/
theorem nodup_nodes_iff (distinct : center.Distinct) (traced : Traced center.racks vdisk trace) :
    (vdisk.replicas.map (·.node)).Nodup ↔
      ∀ rack ∈ center.racks, (trace.map Prod.fst).count rack.name ≤ rack.slots.length := by
  have names : (vdisk.replicas.map (·.node)).Nodup ↔ (trace.map Prod.snd).Nodup := by
    have injective : Function.Injective NodeName.mk := fun _ _ same => congrArg NodeName.str same
    have wrapped : getUsedNodesNames vdisk.replicas =
        (vdisk.replicas.map (·.node)).map NodeName.mk := by
      rw [List.map_map]
      rfl
    rw [traced.nodes, wrapped, List.nodup_map_iff injective]
  rw [names, nodup_snd_iff_count_le (nodup_slotsOf distinct) (slotsOf_disjoint distinct)
    traced.greedy]
  constructor
  · intro counts rack listed
    rw [← slotsOf_name distinct listed]
    exact counts rack.name
  · intro counts name
    -- a name that was chosen is that of a rack, and others have count zero
    by_cases chosen : name ∈ trace.map Prod.fst
    · obtain ⟨entry, member, rfl⟩ := List.mem_map.mp chosen
      obtain ⟨rack, listed, named, -⟩ :=
        exists_rack_of_mem_slotsOf (mem_slots_of_guarded traced.greedy member)
      rw [← named, slotsOf_name distinct listed]
      exact counts rack listed
    · rw [List.count_eq_zero_of_not_mem chosen]
      exact Nat.zero_le _

theorem spread_succ_iff {center' : Center} {count : ℕ} (same : center'.racks = center.racks)
    (planned : planVdisk center.names replicasCount center.counter.racksUsedCount =
      (trace.map Prod.fst, center'.counter.racksUsedCount)) :
    Spread center replicasCount (count + 1) ↔
      (∀ rack ∈ center.racks, (trace.map Prod.fst).count rack.name ≤ rack.slots.length) ∧
        Spread center' replicasCount count := by
  rw [Spread, Spread, planVdisks, planned, List.forall_mem_cons, names, names, same]

/-- The vdisks of a run of the generator. -/
structure Generated (center : Center) (replicasCount count made : ℕ) (vdisks : List VDisk) :
    Prop where
  length : vdisks.length = count
  ids : vdisks.map (·.id) = (List.range' made count).map UInt32.ofNat
  replicas : ∀ vdisk ∈ vdisks, vdisk.replicas.length = replicasCount
  has : ∀ vdisk ∈ vdisks, ∀ replica ∈ vdisk.replicas, Has center.racks replica
  nodup_iff : (∀ vdisk ∈ vdisks, (vdisk.replicas.map (·.node)).Nodup) ↔
    Spread center replicasCount count

theorem generated_createVdisks {count made : ℕ} {vdisks : List VDisk} (distinct : center.Distinct)
    (positive : 1 ≤ replicasCount)
    (created : createVdisks replicasCount count made center = .ok vdisks) :
    Generated center replicasCount count made vdisks := by
  induction count generalizing made center vdisks with
  | zero =>
    cases created
    exact ⟨rfl, rfl, by simp, by simp, by simp [Spread, planVdisks]⟩
  | succ count ih =>
    obtain ⟨⟨center', vdisk⟩, first, created⟩ := bind_eq_ok_iff.mp created
    obtain ⟨rest, others, created⟩ := bind_eq_ok_iff.mp created
    cases created
    obtain ⟨same, id, length, trace, traced, planned⟩ :=
      createVdisk_follows distinct positive first
    -- the plan goes on with the counters that the first vdisk leaves
    have later := ih (distinct.of_racks_eq same) others
    constructor
    · rw [List.length_cons, later.length]
    · rw [List.map_cons, later.ids, id, List.range'_succ, List.map_cons]
    · exact List.forall_mem_cons.mpr ⟨length, later.replicas⟩
    · refine List.forall_mem_cons.mpr ⟨traced.has, fun vdisk hvdisk replica hreplica => ?_⟩
      rw [← same]
      exact later.has vdisk hvdisk replica hreplica
    · rw [List.forall_mem_cons, later.nodup_iff, nodup_nodes_iff distinct traced,
        spread_succ_iff same planned]

end Center

/-! ## Generated files -/

section Generated

variable {parseUri : UriParser} {order : AnyOrder Rack} {config config' : Cluster}
  {useRacks : Bool} {center : Center} {replicasCount count : ℕ}
  {totalVdisks vdisksPerDisk : Option ℕ}

/-- The names of the nodes of the file that have disks. -/
def nodesWithDisks (config : Cluster) : List String :=
  (config.nodes.filter fun node => node.disks ≠ []).map (·.name)

/-- A disk of the center is a disk of the file. -/
theorem lists_of_has (built : Center.fromClusterConfig order config useRacks = .ok center)
    {replica : Replica} (has : Has center.racks replica) : config.Lists replica := by
  obtain ⟨rack, hrack, place, hplace, rfl⟩ := has
  obtain ⟨hnode, hdisk⟩ := mem_nodeDisks_iff.mp hplace
  obtain ⟨node, listed, same⟩ := Center.mem_config_of_fromClusterConfig built hrack hnode
  rw [← same] at hdisk
  obtain ⟨disk, member, called⟩ := List.mem_map.mp hdisk
  exact ⟨node, listed, by rw [← same]; rfl, disk, member, by rw [← called]⟩

/-- A generated file is valid and has the replicas of each vdisk on distinct nodes just
when the plan asks no rack for more nodes with disks than it has and the ids of the
vdisks do not wrap around. -/
theorem generated_config_valid_iff (hardware : config.HardwareValid parseUri)
    (noVdisks : config.vdisks = [])
    (built : Center.fromClusterConfig order config useRacks = .ok center)
    (counted : vdisksCount center replicasCount totalVdisks vdisksPerDisk = .ok count)
    (vdisks : 1 ≤ count) (replicas : 1 ≤ replicasCount)
    (generated : simpleGen order config replicasCount totalVdisks vdisksPerDisk useRacks =
      .ok config') :
    (config'.validate parseUri = .ok () ∧
        ∀ vdisk ∈ config'.vdisks, vdisk.replicas.length = replicasCount ∧
          (vdisk.replicas.map (·.node)).Nodup) ↔
      Spread center replicasCount count ∧ count ≤ 2 ^ 32 := by
  obtain ⟨_, built', generated⟩ := bind_eq_ok_iff.mp generated
  cases built.symm.trans built'
  obtain ⟨_, accepted, generated⟩ := bind_eq_ok_iff.mp generated
  obtain ⟨_, counted', generated⟩ := bind_eq_ok_iff.mp generated
  cases counted.symm.trans counted'
  obtain ⟨made, created, generated⟩ := bind_eq_ok_iff.mp generated
  cases generated
  rw [noVdisks, List.nil_append]
  have result := Center.generated_createVdisks (Center.distinct_of_validate accepted) replicas
    created
  have placed : ∀ vdisk ∈ made, ∀ replica ∈ vdisk.replicas, config.Lists replica :=
    fun vdisk hvdisk replica hreplica =>
      lists_of_has built (result.has vdisk hvdisk replica hreplica)
  have ids := @Cluster.checkIds_sortedIds_iff { config with vdisks := made }
    (by rw [result.ids, result.length, List.range_eq_range'])
  rw [(hardware.withVdisks made).validate_eq_ok_iff placed, ids, ← result.nodup_iff, result.length]
  constructor
  · rintro ⟨⟨-, bound, -⟩, vdisks⟩
    exact ⟨fun vdisk hvdisk => (vdisks vdisk hvdisk).2, bound⟩
  · rintro ⟨distinct, bound⟩
    refine ⟨⟨?_, bound, fun vdisk hvdisk => ⟨?_, (distinct vdisk hvdisk).of_map _⟩⟩,
      fun vdisk hvdisk => ⟨result.replicas vdisk hvdisk, distinct vdisk hvdisk⟩⟩
    · exact List.ne_nil_of_length_pos (by rw [result.length]; exact vdisks)
    · exact List.ne_nil_of_length_pos (by rw [result.replicas vdisk hvdisk]; exact replicas)

end Generated

/-! Three nodes in two racks, and three replicas for each vdisk. The first vdisk begins in
the larger rack and the second in the smaller one. There the second vdisk has its third
replica too, on the disk of its first. -/

def anyUri : UriParser := fun address => .ok ⟨some 20000, address⟩

def rackedHardware : Cluster where
  nodes := [⟨"n1", "n1:20000", [⟨⟨"d1"⟩, "/d1"⟩]⟩, ⟨"n2", "n2:20000", [⟨⟨"d1"⟩, "/d1"⟩]⟩,
    ⟨"n3", "n3:20000", [⟨⟨"d1"⟩, "/d1"⟩]⟩]
  vdisks := []
  racks := [⟨"small", ["n1"]⟩, ⟨"large", ["n2", "n3"]⟩]

theorem hardwareValid_rackedHardware : rackedHardware.HardwareValid anyUri where
  nodes_ne_nil := List.cons_ne_nil _ _
  racks := by decide
  nodes := by decide
  nodup_names := by decide
  nodup_addresses := by decide
  nodup_racks := by decide
  nodup_rack_nodes := by decide
  known := by decide

def rackedCenter : Center :=
  ⟨[Center.rackOf rackedHardware ⟨"large", ["n2", "n3"]⟩,
    Center.rackOf rackedHardware ⟨"small", ["n1"]⟩], .new⟩

theorem built_rackedCenter :
    Center.fromClusterConfig .launched rackedHardware true = .ok rackedCenter := rfl

/-- One vdisk fits. -/
theorem first_vdisk_is_spread :
    ∃ config, simpleGen .launched rackedHardware 3 (some 1) none true = .ok config ∧
      config.validate anyUri = .ok () ∧
        ∀ vdisk ∈ config.vdisks, vdisk.replicas.length = 3 ∧
          (vdisk.replicas.map (·.node)).Nodup := by
  have spread : Spread rackedCenter 3 1 := by
    unfold Spread
    decide
  have generated : simpleGen .launched rackedHardware 3 (some 1) none true =
      .ok { rackedHardware with
        vdisks := [⟨0, [⟨"n2", "d1"⟩, ⟨"n1", "d1"⟩, ⟨"n3", "d1"⟩]⟩] } := rfl
  exact ⟨_, generated, (generated_config_valid_iff hardwareValid_rackedHardware rfl
    built_rackedCenter rfl (by decide) (by decide) generated).mpr ⟨spread, by decide⟩⟩

theorem second_vdisk_repeats_a_replica :
    rackedHardware.HardwareValid anyUri ∧ rackedHardware.vdisks = [] ∧
      3 ≤ (nodesWithDisks rackedHardware).length ∧
      ∃ config, simpleGen .launched rackedHardware 3 (some 2) none true = .ok config ∧
        config.vdisks.map (·.replicas) =
          [[⟨"n2", "d1"⟩, ⟨"n1", "d1"⟩, ⟨"n3", "d1"⟩],
            [⟨"n1", "d1"⟩, ⟨"n2", "d1"⟩, ⟨"n1", "d1"⟩]] ∧
        config.validate anyUri ≠ .ok () :=
  ⟨hardwareValid_rackedHardware, rfl, by decide, _, rfl, rfl, by decide +kernel⟩

end Bob.Generator

/-
# Expanding a cluster file

`simple_expand` places the vdisks of an old file on new hardware. Each replica has a chain
of preferences: a disk of the old vdisk that is among the least used, a rack where the old
vdisk was, a node that the vdisk does not use yet, and last the least used disk of the
rack. Ids, numbers of replicas and the places themselves are always right. Only the last
preference can choose a disk that is a replica of the vdisk already.

Disks, nodes and racks are marked as old or new first. This affects nothing but their
order, which an unstable sort leaves open where the marks are equal.
-/

import Bob.Generator.Generate

namespace Bob.Generator

open Bob.Configs Bob.Math

/-! ## Marking what is new -/

/-- The orders that nothing determines: of the racks in their two hash maps, and of what
unstable sorts compare as equal. -/
structure Orders where
  racks : AnyOrder Rack
  oldRacks : AnyOrder Rack
  sortRacks : AnyOrder Rack
  sortNodes : AnyOrder Node
  sortDisks : AnyOrder Disk

def Orders.launched : Orders := ⟨.launched, .launched, .launched, .launched, .launched⟩

/-- `sort_unstable_by_key` with the old items first. -/
def sortOldFirst {α : Type*} (order : AnyOrder α) (isOld : α → Bool) (items : List α) : List α :=
  order.arrange (items.filter isOld) ++ order.arrange (items.filter fun item => !isOld item)

theorem sortOldFirst_perm {α : Type*} (order : AnyOrder α) (isOld : α → Bool) (items : List α) :
    (sortOldFirst order isOld items).Perm items :=
  ((order.perm _).append (order.perm _)).trans (List.filter_append_perm isOld items)

/-- Mark a disk, and tell whether a listed disk before its own was another one. -/
def Disk.markNew (disk : Disk) (node : NodeName) : List (NodeName × DiskName) → Disk × Bool
  | [] => (disk, false)
  | (newNode, newDisk) :: rest =>
    if node = newNode ∧ disk.name = newDisk then ({ disk with isOld := false }, false)
    else ((disk.markNew node rest).1, true)

def Node.markNew (orders : Orders) (disks : List (NodeName × DiskName)) (node : Node) : Node :=
  let marked := node.disks.map fun disk => disk.markNew node.name disks
  let oldNode := marked.any (·.2)
  { node with
    disks := sortOldFirst orders.sortDisks Disk.isOld (marked.map (·.1))
    isOld := if oldNode then node.isOld else false }

def Rack.markNew (orders : Orders) (disks : List (NodeName × DiskName)) (rack : Rack) : Rack :=
  { rack with
    nodes := sortOldFirst orders.sortNodes Node.isOld (rack.nodes.map (Node.markNew orders disks)) }

def Center.markNew (orders : Orders) (disks : List (NodeName × DiskName)) (racks : List String)
    (center : Center) : Center :=
  let marked := center.racks.map fun rack =>
    { rack.markNew orders disks with isOld := if rack.name ∈ racks then false else rack.isOld }
  { center with racks := sortOldFirst orders.sortRacks Rack.isOld marked }

/-- The disks of the new nodes that the old nodes have. -/
def getNewDisks (oldNodes newNodes : List ClusterNode) : List (NodeName × DiskName) :=
  newNodes.flatMap fun node =>
    (node.disks.filter fun disk =>
      -- the source does not negate this
      oldNodes.any fun oldNode => oldNode.disks.any fun oldDisk =>
        node.name = oldNode.name && node.address = oldNode.address && disk = oldDisk).map
      fun disk => (⟨node.name⟩, disk.name)

def getNewRacks (oldRacks newRacks : List Configs.Rack) : List String :=
  (newRacks.filter fun rack => !oldRacks.any fun oldRack => rack.name = oldRack.name).map (·.name)

/-! ## Checking the hardware -/

/-- The debug text of some items. -/
def debugList (items : List String) : String := "[" ++ ", ".intercalate items ++ "]"

def Center.nodeDiskPairs (center : Center) : List (String × String) :=
  center.racks.flatMap fun rack =>
    (nodeDisks rack.nodes).map fun place => (place.1.name.str, place.2.name.str)

/-- The messages list what is missing, in the order of the old center. -/
def checkExpandConfigs (old new : Center) (useRacks : Bool) : Except Stop Unit := do
  let missingRacks := (old.names.filter (· ∉ new.names)).dedup
  ensure (!useRacks || missingRacks.isEmpty)
    (.err ("some racks was removed from config, check_expand_configs: ERR [" ++
      debugList (missingRacks.map (·.quote)) ++ "]"))
  let missingPairs := (old.nodeDiskPairs.filter (· ∉ new.nodeDiskPairs)).dedup
  ensure missingPairs.isEmpty
    (.err ("some nodes or disks was removed from config, check_expand_configs: ERR [" ++
      debugList (missingPairs.map fun pair => "(" ++ pair.1.quote ++ ", " ++ pair.2.quote ++ ")")
      ++ "]"))

/-! ## Choosing a place -/

/-- Go on with something else after an error. A panic is passed on. -/
def onErr {α : Type} (first alternative : Except Stop α) : Except Stop α :=
  match first with
  | .ok value => .ok value
  | .error (.err _) => alternative
  | .error (.panic message) => .error (.panic message)

/-- The first of the least used items that is listed. -/
def firstListed {α : Type} (used : α → ℕ) (listed : α → Bool) (empty missing : Stop)
    (items : List α) : Except Stop α :=
  match (items.map used).min? with
  | none => .error empty
  | some minKey =>
    match items.find? fun item => used item = minKey && listed item with
    | some item => .ok item
    | none => .error missing

theorem mem_of_firstListed {α : Type} {used : α → ℕ} {listed : α → Bool} {empty missing : Stop}
    {items : List α} {item : α} (found : firstListed used listed empty missing items = .ok item) :
    item ∈ items := by
  unfold firstListed at found
  split at found
  · cases found
  split at found
  · rename_i first hfirst
    cases found
    exact List.mem_of_find?_eq_some hfirst
  · cases found

theorem onErr_eq_ok {α : Type} {first alternative : Except Stop α} {value : α}
    (result : onErr first alternative = .ok value) :
    first = .ok value ∨ alternative = .ok value := by
  cases first with
  | ok other => exact .inl result
  | error stop =>
    cases stop with
    | err message => exact .inr result
    | panic message => cases result

def replicaOf (place : Node × Disk) : Replica := ⟨place.1.name.str, place.2.name.str⟩

def Rack.nextDiskFromList (rack : Rack) (counter : Counter) (replicas : List NodeName)
    (list : List Replica) : Except Stop (Node × Disk) :=
  firstListed counter.diskUsedCount (fun place => list.contains (replicaOf place))
    (.err "Empty disks list") (.err "Can't find disk") (rack.freeDisks replicas)

namespace Center

def iterDisks (center : Center) : List (Rack × Node × Disk) :=
  center.racks.flatMap fun rack => (nodeDisks rack.nodes).map fun place => (rack, place)

def nextDisk (center : Center) : Except Stop (Rack × Node × Disk) :=
  match center.iterDisks.argmin fun place => center.counter.diskUsedCount place.2 with
  | some place => .ok place
  | none => .error (.panic "checked by constructor")

def nextDiskFromList (center : Center) (list : List Replica) : Except Stop (Rack × Node × Disk) :=
  firstListed (fun place => center.counter.diskUsedCount place.2)
    (fun place => list.contains (replicaOf place.2))
    (.panic "checked by constructor") (.err "Can't find disk") center.iterDisks

def nextRackFromList (center : Center) (list : List String) : Except Stop Rack :=
  if list.isEmpty then .error (.err "Empty list")
  else firstListed (fun rack => center.counter.racksUsedCount rack.name)
    (fun rack => list.contains rack.name)
    (.panic "checked by constructor") (.err "Can't find rack") center.racks

/-! ## Vdisks from old ones -/

/-- The first replica. -/
def startVdisk (center : Center) (oldVdisk : VDisk) : Except Stop (Center × VDisk) := do
  let (rack, place) ← onErr (center.nextDiskFromList oldVdisk.replicas) center.nextDisk
  return center.pushReplicaToVdisk ⟨oldVdisk.id, []⟩ rack.name place.1.name place.2.name

/-- The racks where the old vdisk was. -/
def preferredRacks (center : Center) (oldVdisk : VDisk) : List String :=
  (center.racks.filter fun rack => oldVdisk.replicas.any fun replica =>
    (rack.nodes.map (·.name.str)).contains replica.node).map (·.name)

def rackFrom (center : Center) (preferred : List String) : Except Stop Rack :=
  onErr (center.nextRackFromList preferred) center.nextRack

/-- One round of the loop of `create_vdisk_from_another`. -/
def addReplicaFrom (preferred : List String) (oldVdisk : VDisk) (center : Center) (vdisk : VDisk) :
    Except Stop (Center × VDisk) := do
  let bannedNodes := getUsedNodesNames vdisk.replicas
  let rack ← center.rackFrom preferred
  let place ← onErr (rack.nextDiskFromList center.counter bannedNodes oldVdisk.replicas)
    (rack.nextDisk center.counter bannedNodes)
  return center.pushReplicaToVdisk vdisk rack.name place.1.name place.2.name

def addReplicasFrom (preferred : List String) (oldVdisk : VDisk) :
    ℕ → Center × VDisk → Except Stop (Center × VDisk)
  | 0, state => .ok state
  | rounds + 1, (center, vdisk) => do
    let state ← addReplicaFrom preferred oldVdisk center vdisk
    addReplicasFrom preferred oldVdisk rounds state

def createVdiskFromAnother (center : Center) (oldVdisk : VDisk) : Except Stop (Center × VDisk) := do
  let state ← center.startVdisk oldVdisk
  addReplicasFrom (state.1.preferredRacks oldVdisk) oldVdisk
    (oldVdisk.replicas.length - state.2.replicas.length) state

def createVdisksFrom : List VDisk → Center → Except Stop (List VDisk)
  | [], _ => .ok []
  | oldVdisk :: rest, center => do
    let (center, vdisk) ← center.createVdiskFromAnother oldVdisk
    let vdisks ← createVdisksFrom rest center
    return vdisk :: vdisks

end Center

/-- The center of the hardware with its marks. -/
def expandCenter (orders : Orders) (config hardwareConfig : Cluster) (useRacks : Bool) :
    Except Stop Center := do
  let center ← Center.fromClusterConfig orders.racks hardwareConfig useRacks
  center.validate
  let oldCenter ← Center.fromClusterConfig orders.oldRacks config useRacks
  oldCenter.validate
  checkExpandConfigs oldCenter center useRacks
  let newDisks := getNewDisks config.nodes hardwareConfig.nodes
  let newRacks := if !useRacks then [] else getNewRacks config.racks hardwareConfig.racks
  return center.markNew orders newDisks newRacks

def simpleExpand (orders : Orders) (config hardwareConfig : Cluster) (useRacks : Bool) :
    Except Stop Cluster := do
  let center ← expandCenter orders config hardwareConfig useRacks
  let vdisks ← Center.createVdisksFrom config.vdisks center
  return { hardwareConfig with vdisks := hardwareConfig.vdisks ++ vdisks }

/-! ## What marking leaves alone -/

section Marking

variable {orders : Orders} {disks : List (NodeName × DiskName)} {racks : List String}

@[simp] theorem name_markNew_disk (disk : Disk) (node : NodeName) :
    (disk.markNew node disks).1.name = disk.name := by
  induction disks with
  | nil => rfl
  | cons new rest ih =>
    rw [Disk.markNew]
    split_ifs
    · rfl
    · exact ih

theorem mem_disks_markNew {node : Node} {disk : Disk}
    (member : disk ∈ (node.markNew orders disks).disks) :
    ∃ old ∈ node.disks, old.name = disk.name := by
  have marked := (sortOldFirst_perm _ _ _).mem_iff.mp member
  rw [List.map_map] at marked
  obtain ⟨old, listed, rfl⟩ := List.mem_map.mp marked
  exact ⟨old, listed, (name_markNew_disk old node.name).symm⟩

theorem mem_nodes_markNew {rack : Rack} {node : Node}
    (member : node ∈ (rack.markNew orders disks).nodes) :
    ∃ old ∈ rack.nodes, old.markNew orders disks = node :=
  List.mem_map.mp ((sortOldFirst_perm _ _ _).mem_iff.mp member)

theorem names_markNew_perm (rack : Rack) :
    ((rack.markNew orders disks).nodes.map (·.name)).Perm (rack.nodes.map (·.name)) := by
  refine ((sortOldFirst_perm _ _ _).map _).trans (.of_eq ?_)
  rw [List.map_map]
  rfl

/-- A rack keeps its number of nodes with disks. -/
theorem length_slots_markNew (rack : Rack) :
    (rack.markNew orders disks).slots.length = rack.slots.length := by
  have same (node : Node) : (node.markNew orders disks).disks = [] ↔ node.disks = [] := by
    rw [← List.length_eq_zero_iff, ← List.length_eq_zero_iff, Node.markNew,
      (sortOldFirst_perm _ _ _).length_eq, List.length_map, List.length_map]
  rw [Rack.slots, Rack.slots, List.length_map, List.length_map, ← List.countP_eq_length_filter,
    ← List.countP_eq_length_filter, Rack.markNew, (sortOldFirst_perm _ _ _).countP_eq,
    List.countP_map]
  exact List.countP_congr fun node _ => by simp [same]

/-- The racks of a marked center, in some order. -/
theorem racks_markNew_perm (center : Center) :
    (center.markNew orders disks racks).racks.Perm (center.racks.map fun rack =>
      { rack.markNew orders disks with
        isOld := if rack.name ∈ racks then false else rack.isOld }) :=
  sortOldFirst_perm _ _ _

/-- Marking adds no disks. -/
theorem has_of_markNew {center : Center} {replica : Replica}
    (has : Has (center.markNew orders disks racks).racks replica) : Has center.racks replica := by
  obtain ⟨rack, hrack, ⟨node, disk⟩, hplace, rfl⟩ := has
  obtain ⟨old, hold, rfl⟩ := List.mem_map.mp ((racks_markNew_perm center).mem_iff.mp hrack)
  obtain ⟨hnode, hdisk⟩ := mem_nodeDisks_iff.mp hplace
  obtain ⟨oldNode, holdNode, rfl⟩ := mem_nodes_markNew hnode
  obtain ⟨oldDisk, holdDisk, named⟩ := mem_disks_markNew hdisk
  exact ⟨old, hold, (oldNode, oldDisk), mem_nodeDisks_iff.mpr ⟨holdNode, holdDisk⟩,
    by rw [named]; rfl⟩

/-- Marking changes no names. -/
theorem Center.Distinct.markNew {center : Center} (distinct : center.Distinct) :
    (center.markNew orders disks racks).Distinct := by
  constructor
  · refine ((racks_markNew_perm center).map _).nodup_iff.mpr ?_
    rw [List.map_map]
    exact distinct.racks
  · refine ((racks_markNew_perm center).flatMap_right _).nodup_iff.mpr ?_
    rw [List.flatMap_map]
    exact (List.Perm.flatMap_left _ fun rack _ => names_markNew_perm rack).nodup_iff.mpr
      distinct.nodes

end Marking

/-! ## Vdisks on distinct disks -/

namespace Center

variable {center center' : Center} {vdisk vdisk' oldVdisk : VDisk} {preferred : List String}
  {rack : Rack} {place : Node × Disk}

/-- Whatever preference the place comes from, its node is not in use if the rack has more nodes
with disks than the vdisk has replicas. -/
theorem unused_of_large (found : onErr
      (rack.nextDiskFromList center.counter (getUsedNodesNames vdisk.replicas) oldVdisk.replicas)
      (rack.nextDisk center.counter (getUsedNodesNames vdisk.replicas)) = .ok place) :
    place ∈ nodeDisks rack.nodes ∧
      (rack.slots.Nodup → vdisk.replicas.length < rack.slots.length →
        place.1.name ∉ getUsedNodesNames vdisk.replicas) := by
  rcases onErr_eq_ok found with listed | next
  · obtain ⟨member, unused⟩ := Rack.mem_freeDisks_iff.mp (mem_of_firstListed listed)
    exact ⟨member, fun _ _ => unused⟩
  · obtain ⟨member, unused | ⟨full, -⟩⟩ := Rack.nextDisk_cases next
    · exact ⟨member, fun _ _ => unused⟩
    · -- the fallback is for a rack all nodes of which are in use
      refine ⟨member, fun distinct large => ?_⟩
      have bound := (List.subperm_of_subset distinct full).length_le
      rw [getUsedNodesNames, List.length_map] at bound
      omega

theorem mem_of_rackFrom (found : center.rackFrom preferred = .ok rack) : rack ∈ center.racks := by
  rcases onErr_eq_ok found with listed | next
  · unfold nextRackFromList at listed
    split_ifs at listed
    exact mem_of_firstListed listed
  · exact (nextRack_spec next).1

theorem mem_of_startVdisk {chosen : Rack × Node × Disk} {list : List Replica}
    (found : onErr (center.nextDiskFromList list) center.nextDisk = .ok chosen) :
    chosen.1 ∈ center.racks ∧ chosen.2 ∈ nodeDisks chosen.1.nodes := by
  have member : chosen ∈ center.iterDisks := by
    rcases onErr_eq_ok found with listed | next
    · exact mem_of_firstListed listed
    · unfold nextDisk at next
      split at next
      · rename_i least hleast
        cases next
        exact List.argmin_mem hleast
      · cases next
  obtain ⟨rack, hrack, inRack⟩ := List.mem_flatMap.mp member
  obtain ⟨place, hplace, rfl⟩ := List.mem_map.mp inRack
  exact ⟨hrack, hplace⟩

/-- What the loops keep of a center and a vdisk. -/
structure Extends (center : Center) (vdisk : VDisk) (center' : Center) (vdisk' : VDisk)
    (rounds : ℕ) : Prop where
  racks : center'.racks = center.racks
  id : vdisk'.id = vdisk.id
  length : vdisk'.replicas.length = vdisk.replicas.length + rounds
  has : (∀ replica ∈ vdisk.replicas, Has center.racks replica) →
    ∀ replica ∈ vdisk'.replicas, Has center.racks replica
  nodup : center.Distinct → (∀ rack ∈ center.racks, vdisk'.replicas.length ≤ rack.slots.length) →
    vdisk.replicas.Nodup → vdisk'.replicas.Nodup

theorem Extends.push (vdisk : VDisk) (listed : rack ∈ center.racks)
    (member : place ∈ nodeDisks rack.nodes)
    (unused : center.Distinct → vdisk.replicas.length < rack.slots.length →
      place.1.name ∉ getUsedNodesNames vdisk.replicas) :
    Extends center vdisk
      (center.pushReplicaToVdisk vdisk rack.name place.1.name place.2.name).1
      (center.pushReplicaToVdisk vdisk rack.name place.1.name place.2.name).2 1 where
  racks := rfl
  id := rfl
  length := length_pushReplicaToVdisk _ _ _
  has := by
    intro before replica hreplica
    rcases List.mem_append.mp hreplica with old | new
    · exact before replica old
    · exact ⟨rack, listed, place, member, List.mem_singleton.mp new⟩
  nodup := by
    intro distinct large nodup
    have fresh : place.1.name ∉ getUsedNodesNames vdisk.replicas := by
      have bound := large rack listed
      rw [length_pushReplicaToVdisk] at bound
      exact unused distinct bound
    refine List.nodup_append.mpr ⟨nodup, List.pairwise_singleton _ _, ?_⟩
    rintro replica old _ new rfl
    rw [List.mem_singleton.mp new] at old
    exact fresh (List.mem_map_of_mem old)

theorem Extends.trans {center'' : Center} {vdisk'' : VDisk} {first second : ℕ}
    (one : Extends center vdisk center' vdisk' first)
    (two : Extends center' vdisk' center'' vdisk'' second) :
    Extends center vdisk center'' vdisk'' (first + second) where
  racks := two.racks.trans one.racks
  id := two.id.trans one.id
  length := by rw [two.length, one.length, Nat.add_assoc]
  has := by
    intro before replica hreplica
    rw [← one.racks]
    refine two.has (fun other hother => ?_) replica hreplica
    rw [one.racks]
    exact one.has before other hother
  nodup := by
    intro distinct large nodup
    refine two.nodup (distinct.of_racks_eq one.racks) (by rwa [one.racks]) ?_
    refine one.nodup distinct (fun rack listed => ?_) nodup
    have bound := large rack listed
    rw [two.length] at bound
    omega

theorem startVdisk_spec (start : center.startVdisk oldVdisk = .ok (center', vdisk')) :
    Extends center ⟨oldVdisk.id, []⟩ center' vdisk' 1 := by
  obtain ⟨⟨rack, place⟩, chosen, start⟩ := bind_eq_ok_iff.mp start
  obtain ⟨listed, member⟩ := mem_of_startVdisk chosen
  cases start
  exact Extends.push _ listed member fun _ _ => List.not_mem_nil

theorem addReplicaFrom_spec
    (added : addReplicaFrom preferred oldVdisk center vdisk = .ok (center', vdisk')) :
    Extends center vdisk center' vdisk' 1 := by
  obtain ⟨rack, hrack, added⟩ := bind_eq_ok_iff.mp added
  obtain ⟨place, hplace, added⟩ := bind_eq_ok_iff.mp added
  obtain ⟨member, unused⟩ := unused_of_large hplace
  have listed := mem_of_rackFrom hrack
  cases added
  exact Extends.push vdisk listed member fun distinct => unused (nodup_slots distinct listed)

theorem addReplicasFrom_spec (rounds : ℕ)
    (added : addReplicasFrom preferred oldVdisk rounds (center, vdisk) = .ok (center', vdisk')) :
    Extends center vdisk center' vdisk' rounds := by
  induction rounds generalizing center vdisk with
  | zero =>
    cases added
    exact ⟨rfl, rfl, rfl, id, fun _ _ => id⟩
  | succ rounds ih =>
    obtain ⟨⟨next, grown⟩, one, rest⟩ := bind_eq_ok_iff.mp added
    rw [Nat.add_comm]
    exact (addReplicaFrom_spec one).trans (ih rest)

/-- A vdisk that is made from another has its id and as many replicas. -/
theorem createVdiskFromAnother_spec (replicated : oldVdisk.replicas ≠ [])
    (created : center.createVdiskFromAnother oldVdisk = .ok (center', vdisk')) :
    Extends center ⟨oldVdisk.id, []⟩ center' vdisk' oldVdisk.replicas.length := by
  obtain ⟨⟨started, vdisk⟩, start, rest⟩ := bind_eq_ok_iff.mp created
  have first := startVdisk_spec start
  have one : vdisk.replicas.length = 1 := first.length
  have positive := List.length_pos_iff.mpr replicated
  have whole := first.trans (addReplicasFrom_spec _ rest)
  dsimp only at whole
  rwa [one, Nat.add_sub_cancel' positive] at whole

/-- The vdisks of a run of the expansion. -/
structure Expanded (center : Center) (oldVdisks vdisks : List VDisk) : Prop where
  ids : vdisks.map (·.id) = oldVdisks.map (·.id)
  lengths : vdisks.map (·.replicas.length) = oldVdisks.map (·.replicas.length)
  has : ∀ vdisk ∈ vdisks, ∀ replica ∈ vdisk.replicas, Has center.racks replica
  nodup : center.Distinct → (∀ oldVdisk ∈ oldVdisks, ∀ rack ∈ center.racks,
    oldVdisk.replicas.length ≤ rack.slots.length) → ∀ vdisk ∈ vdisks, vdisk.replicas.Nodup

theorem expanded_createVdisksFrom {oldVdisks vdisks : List VDisk}
    (replicated : ∀ oldVdisk ∈ oldVdisks, oldVdisk.replicas ≠ [])
    (created : createVdisksFrom oldVdisks center = .ok vdisks) :
    Expanded center oldVdisks vdisks := by
  induction oldVdisks generalizing center vdisks with
  | nil =>
    cases created
    exact ⟨rfl, rfl, by simp, by simp⟩
  | cons oldVdisk rest ih =>
    obtain ⟨⟨center', vdisk⟩, first, created⟩ := bind_eq_ok_iff.mp created
    obtain ⟨others, hothers, created⟩ := bind_eq_ok_iff.mp created
    cases created
    obtain ⟨here, inRest⟩ := List.forall_mem_cons.mp replicated
    have made := createVdiskFromAnother_spec here first
    have length : vdisk.replicas.length = oldVdisk.replicas.length :=
      made.length.trans (Nat.zero_add _)
    have later := ih inRest hothers
    constructor
    · rw [List.map_cons, List.map_cons, made.id, later.ids]
    · rw [List.map_cons, List.map_cons, length, later.lengths]
    · refine List.forall_mem_cons.mpr ⟨made.has (by simp), fun vdisk hvdisk replica hreplica => ?_⟩
      rw [← made.racks]
      exact later.has vdisk hvdisk replica hreplica
    · intro distinct large
      obtain ⟨largeHere, largeRest⟩ := List.forall_mem_cons.mp large
      refine List.forall_mem_cons.mpr ⟨made.nodup distinct ?_ List.nodup_nil, ?_⟩
      · rwa [length]
      · exact later.nodup (distinct.of_racks_eq made.racks) (by rwa [made.racks])

end Center

/-! ## Expanded files -/

section Expanded

variable {parseUri : UriParser} {orders : Orders} {config hardwareConfig config' : Cluster}
  {useRacks : Bool} {center : Center}

/-- The numbers of nodes with disks: of each rack or, if there are none, of the file. -/
def rackSizes (config : Cluster) (useRacks : Bool) : List ℕ :=
  if !useRacks || config.racks.isEmpty then [config.nodes.countP fun node => node.disks ≠ []]
  else config.racks.map fun rack =>
    config.nodes.countP fun node => node.disks ≠ [] ∧ node.name ∈ rack.nodes

/-- Each rack has at least as many nodes with disks as a vdisk has replicas. -/
def Roomy (config hardwareConfig : Cluster) (useRacks : Bool) : Prop :=
  ∀ vdisk ∈ config.vdisks, ∀ size ∈ rackSizes hardwareConfig useRacks,
    vdisk.replicas.length ≤ size

instance : Decidable (Roomy config hardwareConfig useRacks) :=
  inferInstanceAs (Decidable (∀ vdisk ∈ config.vdisks, ∀ size ∈ rackSizes hardwareConfig useRacks,
    vdisk.replicas.length ≤ size))

theorem length_slots_mem_rackSizes {order : AnyOrder Rack} {rack : Rack}
    (built : Center.fromClusterConfig order config useRacks = .ok center)
    (listed : rack ∈ center.racks) : rack.slots.length ∈ rackSizes config useRacks := by
  unfold rackSizes
  split_ifs with unused
  · rw [Center.fromClusterConfig_eq_of_no_racks unused] at built
    cases built
    cases List.mem_singleton.mp listed
    simp [Rack.slots, List.filter_map, Node.ofConfig, Function.comp_def,
      List.countP_eq_length_filter]
  · have perm := Center.racks_perm_of_fromClusterConfig (Bool.eq_false_iff.mpr unused) built
    obtain ⟨fileRack, inFile, rfl⟩ := List.mem_map.mp (perm.mem_iff.mp listed)
    refine List.mem_map.mpr ⟨fileRack, inFile, ?_⟩
    simp [Center.rackOf, Rack.slots, List.filter_map, List.filter_filter, Node.ofConfig,
      Function.comp_def, List.countP_eq_length_filter]

/-- The marked center has distinct names, and its disks and racks are those of the hardware. -/
theorem expandCenter_spec
    (prepared : expandCenter orders config hardwareConfig useRacks = .ok center) :
    center.Distinct ∧ (∀ replica, Has center.racks replica → hardwareConfig.Lists replica) ∧
      ∀ rack ∈ center.racks, rack.slots.length ∈ rackSizes hardwareConfig useRacks := by
  obtain ⟨unmarked, built, prepared⟩ := bind_eq_ok_iff.mp prepared
  obtain ⟨_, accepted, prepared⟩ := bind_eq_ok_iff.mp prepared
  obtain ⟨_, -, prepared⟩ := bind_eq_ok_iff.mp prepared
  obtain ⟨_, -, prepared⟩ := bind_eq_ok_iff.mp prepared
  obtain ⟨_, -, prepared⟩ := bind_eq_ok_iff.mp prepared
  cases prepared
  refine ⟨(Center.distinct_of_validate accepted).markNew,
    fun replica has => lists_of_has built (has_of_markNew has), fun rack listed => ?_⟩
  obtain ⟨old, hold, rfl⟩ := List.mem_map.mp ((racks_markNew_perm unmarked).mem_iff.mp listed)
  exact (length_slots_markNew old).symm ▸ length_slots_mem_rackSizes built hold

end Expanded

/-! Two nodes, of which one has two disks. When the third replica of the second vdisk has
no node left, all disks were used once, and the first of them has a replica already. -/

def twoNodes : List ClusterNode :=
  [⟨"n1", "n1:20000", [⟨⟨"d1"⟩, "/d1"⟩]⟩,
    ⟨"n2", "n2:20000", [⟨⟨"d1"⟩, "/d1"⟩, ⟨⟨"d2"⟩, "/d2"⟩]⟩]

/-- The nodes as hardware. -/
def hardwareOf (nodes : List ClusterNode) : Cluster := ⟨nodes, [], [], .mod⟩

theorem hardwareValid_hardwareOf {nodes : List ClusterNode} (nonempty : nodes ≠ [])
    (accepted : ∀ node ∈ nodes, node.validate anyUri = .ok ())
    (names : (nodes.map (·.name)).Nodup) (addresses : (nodes.map (·.address)).Nodup) :
    (hardwareOf nodes).HardwareValid anyUri :=
  ⟨nonempty, by simp [hardwareOf], accepted, names, addresses, List.nodup_nil, List.nodup_nil,
    by simp [hardwareOf]⟩

def evenCluster : Cluster := ⟨twoNodes, [⟨0, [⟨"n1", "d1"⟩, ⟨"n2", "d1"⟩]⟩], [], .mod⟩

def unevenCluster : Cluster :=
  ⟨twoNodes, [⟨0, [⟨"n2", "d2"⟩]⟩, ⟨1, [⟨"n1", "d1"⟩, ⟨"n2", "d1"⟩, ⟨"n2", "d2"⟩]⟩], [], .mod⟩

theorem hardwareValid_twoNodes : (hardwareOf twoNodes).HardwareValid anyUri :=
  hardwareValid_hardwareOf (List.cons_ne_nil _ _) (by decide) (by decide) (by decide)

end Bob.Generator

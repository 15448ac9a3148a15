/-
# The center of the cluster file generator

`ccg` fills a cluster file with vdisks. It works on a center: the racks with their nodes
and disks, and counters of how often each of them was used. A replica goes to a rack,
and there to the least used disk of a node that the vdisk does not use yet. If there is
no such node, it goes to the least used disk of the rack, whatever its node is.

Racks are kept in a hash map while the center is built, so they come in any order. The
counters have an entry for each rack and each disk from the start, and are total here.
-/

import Bob.Common.NodeConfig
import Bob.Math.Completion
import Bob.Math.Greedy
import Mathlib.Data.Char
import Mathlib.Data.List.Lex

namespace Bob.Generator

open Bob.Configs Bob.Math

/-! ## Racks, nodes and disks -/

structure Disk where
  name : DiskName
  isOld : Bool
  deriving DecidableEq, Repr

structure Node where
  name : NodeName
  disks : List Disk
  isOld : Bool
  deriving DecidableEq, Repr

structure Rack where
  name : String
  nodes : List Node
  isOld : Bool
  deriving DecidableEq, Repr

/-- How often racks and disks were used. -/
structure Counter where
  racksUsedCount : String → ℕ
  disksUsedCount : NodeName → DiskName → ℕ

structure Center where
  racks : List Rack
  counter : Counter

namespace Counter

def new : Counter := ⟨fun _ => 0, fun _ _ => 0⟩

def incRackUsedCount (counter : Counter) (rack : String) : Counter :=
  { counter with
    racksUsedCount := Function.update counter.racksUsedCount rack
      (counter.racksUsedCount rack + 1) }

def incDiskUsedCount (counter : Counter) (node : NodeName) (disk : DiskName) : Counter :=
  { counter with
    disksUsedCount := Function.update counter.disksUsedCount node
      (Function.update (counter.disksUsedCount node) disk
        (counter.disksUsedCount node disk + 1)) }

def diskUsedCount (counter : Counter) (place : Node × Disk) : ℕ :=
  counter.disksUsedCount place.1.name place.2.name

end Counter

/-- The disks of some nodes, in their order. -/
def nodeDisks (nodes : List Node) : List (Node × Disk) :=
  nodes.flatMap fun node => node.disks.map fun disk => (node, disk)

theorem mem_nodeDisks_iff {nodes : List Node} {node : Node} {disk : Disk} :
    (node, disk) ∈ nodeDisks nodes ↔ node ∈ nodes ∧ disk ∈ node.disks := by
  simp only [nodeDisks, List.mem_flatMap, List.mem_map, Prod.mk.injEq]
  constructor
  · rintro ⟨_, hnode, _, hdisk, rfl, rfl⟩
    exact ⟨hnode, hdisk⟩
  · rintro ⟨hnode, hdisk⟩
    exact ⟨node, hnode, disk, hdisk, rfl, rfl⟩

theorem nodeDisks_eq_nil_iff {nodes : List Node} :
    nodeDisks nodes = [] ↔ ∀ node ∈ nodes, node.disks = [] := by
  simp [nodeDisks, List.flatMap_eq_nil_iff]

/-! ## Choosing a disk in a rack -/

namespace Rack

def disksCount (rack : Rack) : ℕ := (rack.nodes.map fun node => node.disks.length).sum

def minUsedDisk (rack : Rack) (counter : Counter) : Except Stop (Node × Disk) :=
  match (nodeDisks rack.nodes).argmin counter.diskUsedCount with
  | some place => .ok place
  | none => .error (.err "Empty disks list")

/-- The disks of the nodes that are not in use. -/
def freeDisks (rack : Rack) (replicas : List NodeName) : List (Node × Disk) :=
  nodeDisks (rack.nodes.filter fun node => node.name ∉ replicas)

def nextDisk (rack : Rack) (counter : Counter) (replicas : List NodeName) :
    Except Stop (Node × Disk) := do
  -- the argument of `unwrap_or` is evaluated in any case, and may fail
  let fallback ← rack.minUsedDisk counter
  return ((rack.freeDisks replicas).argmin counter.diskUsedCount).getD fallback

/-- The names of the nodes that have disks. -/
def slots (rack : Rack) : List NodeName :=
  (rack.nodes.filter fun node => node.disks ≠ []).map (·.name)

variable {rack : Rack} {counter : Counter} {replicas : List NodeName} {place : Node × Disk}

theorem mem_slots_iff {name : NodeName} :
    name ∈ rack.slots ↔ ∃ node ∈ rack.nodes, node.disks ≠ [] ∧ node.name = name := by
  simp [slots, and_assoc]

theorem mem_slots_of_mem_nodeDisks (member : place ∈ nodeDisks rack.nodes) :
    place.1.name ∈ rack.slots := by
  obtain ⟨hnode, hdisk⟩ := mem_nodeDisks_iff.mp member
  exact mem_slots_iff.mpr ⟨place.1, hnode, List.ne_nil_of_mem hdisk, rfl⟩

theorem mem_freeDisks_iff :
    place ∈ rack.freeDisks replicas ↔
      place ∈ nodeDisks rack.nodes ∧ place.1.name ∉ replicas := by
  obtain ⟨node, disk⟩ := place
  rw [freeDisks, mem_nodeDisks_iff, mem_nodeDisks_iff, List.mem_filter, decide_eq_true_eq]
  tauto

theorem freeDisks_eq_nil_iff :
    rack.freeDisks replicas = [] ↔ ∀ name ∈ rack.slots, name ∈ replicas := by
  rw [freeDisks, nodeDisks_eq_nil_iff]
  constructor
  · intro empty name member
    obtain ⟨node, hnode, hdisks, rfl⟩ := mem_slots_iff.mp member
    by_contra free
    exact hdisks (empty node (List.mem_filter.mpr ⟨hnode, decide_eq_true free⟩))
  · intro used node member
    obtain ⟨hnode, free⟩ := List.mem_filter.mp member
    by_contra hdisks
    exact of_decide_eq_true free (used _ (mem_slots_iff.mpr ⟨node, hnode, hdisks, rfl⟩))

theorem mem_of_minUsedDisk (found : rack.minUsedDisk counter = .ok place) :
    place ∈ nodeDisks rack.nodes := by
  unfold minUsedDisk at found
  split at found
  · rename_i least hleast
    cases found
    exact List.argmin_mem hleast
  · cases found

/-- What `next_disk` returns: a disk of a node that is not in use or, if all nodes with
disks are, the least used disk of the rack. -/
theorem nextDisk_cases (found : rack.nextDisk counter replicas = .ok place) :
    place ∈ nodeDisks rack.nodes ∧
      (place.1.name ∉ replicas ∨
        (∀ name ∈ rack.slots, name ∈ replicas) ∧ rack.minUsedDisk counter = .ok place) := by
  obtain ⟨fallback, hfallback, chosen⟩ := bind_eq_ok_iff.mp found
  cases hleast : (rack.freeDisks replicas).argmin counter.diskUsedCount with
  | some least =>
    rw [hleast] at chosen
    cases chosen
    obtain ⟨listed, free⟩ := mem_freeDisks_iff.mp (List.argmin_mem hleast)
    exact ⟨listed, .inl free⟩
  | none =>
    rw [hleast] at chosen
    cases chosen
    exact ⟨mem_of_minUsedDisk hfallback,
      .inr ⟨freeDisks_eq_nil_iff.mp (List.argmin_eq_none.mp hleast), hfallback⟩⟩

end Rack

/-! ## The center -/

namespace Center

def new : Center := ⟨[], .new⟩

def push (center : Center) (rack : Rack) : Center :=
  { center with racks := center.racks ++ [rack] }

def disksCount (center : Center) : ℕ := (center.racks.map Rack.disksCount).sum

def pushReplicaToVdisk (center : Center) (vdisk : VDisk) (rack : String) (node : NodeName)
    (disk : DiskName) : Center × VDisk :=
  ({ center with counter := (center.counter.incRackUsedCount rack).incDiskUsedCount node disk },
    { vdisk with replicas := vdisk.replicas ++ [⟨node.str, disk.str⟩] })

def nextRack (center : Center) : Except Stop Rack :=
  match center.racks.argmin fun rack => center.counter.racksUsedCount rack.name with
  | some rack => .ok rack
  | none => .error (.panic "checked by constructor")

def rackByName (center : Center) (name : String) : Except Stop Rack :=
  match center.racks.find? fun rack => rack.name = name with
  | some rack => .ok rack
  | none => .error (.err s!"Rack with name {name} not found")

/-- Neighbours of the sorted names are equal. -/
def hasDuplicates (names : List String) : Bool :=
  let sorted := names.insertionSort fun a b => a.toList ≤ b.toList
  (sorted.zip sorted.tail).any fun pair => pair.1 = pair.2

def validate (center : Center) : Except Stop Unit := do
  ensure (!hasDuplicates (center.racks.map (·.name)))
    (.err "config contains duplicates racks names")
  ensure (!hasDuplicates (center.racks.flatMap fun rack => rack.nodes.map (·.name.str)))
    (.err "config contains duplicates nodes names")

end Center

def getUsedNodesNames (replicas : List Replica) : List NodeName := replicas.map fun r => ⟨r.node⟩

/-! ## Building the center -/

def Node.ofConfig (node : ClusterNode) : Node :=
  ⟨⟨node.name⟩, node.disks.map fun disk => ⟨disk.name, true⟩, true⟩

/-- The maps that are filled from the racks of the file. -/
structure RackMaps where
  racks : Dict String Rack
  nodeRackMap : Dict NodeName String

def addRackNode (rack : String) (nodeRackMap : Dict NodeName String) (node : String) :
    Except Stop (Dict NodeName String) :=
  if nodeRackMap.lookup ⟨node⟩ = none then .ok (nodeRackMap.insert ⟨node⟩ rack)
  else .error (.err ("Center::from_cluster_config: config contains duplicate nodes in racks " ++
    s!"[rack: {rack}, node: {node}]"))

def addRack (maps : RackMaps) (rack : Configs.Rack) : Except Stop RackMaps :=
  if maps.racks.lookup rack.name = none then do
    let nodeRackMap ← rack.nodes.foldlM (addRackNode rack.name) maps.nodeRackMap
    return ⟨maps.racks.insert rack.name ⟨rack.name, [], true⟩, nodeRackMap⟩
  else .error (.err
    s!"Center::from_cluster_config: config contains duplicate racks [{rack.name}]")

/-- Put a node in its rack. -/
def addNode (nodeRackMap : Dict NodeName String) (racks : Dict String Rack) (node : Node) :
    Except Stop (Dict String Rack) :=
  match nodeRackMap.lookup node.name with
  | none => .error (.err ("Center::from_cluster_config: not found rack for node " ++
      s!"[node_name: {node.name.str}]"))
  | some rackName =>
    match racks.lookup rackName with
    | none => .error (.err s!"Center::from_cluster_config: rack not found [rack_name: {rackName}]")
    | some rack => .ok (racks.insert rackName { rack with nodes := rack.nodes ++ [node] })

def Center.fromClusterConfig (order : AnyOrder Rack) (config : Cluster) (useRacks : Bool) :
    Except Stop Center :=
  let nodes := config.nodes.map Node.ofConfig
  if !useRacks || config.racks.isEmpty then
    .ok (Center.new.push ⟨"unknown", nodes, true⟩)
  else do
    let maps ← config.racks.foldlM addRack ⟨∅, ∅⟩
    let racks ← nodes.foldlM (addNode maps.nodeRackMap) maps.racks
    let center := (order.arrange racks.values).foldl Center.push Center.new
    ensure (center.disksCount ≠ 0)
      (.err "Center::from_cluster_config: config should contain disks")
    return center

/-! ## What the center has -/

namespace Center

theorem foldl_push (center : Center) (racks : List Rack) :
    racks.foldl push center = { center with racks := center.racks ++ racks } := by
  induction racks generalizing center with
  | nil => simp
  | cons rack rest ih => simp [ih, push]

/-- A rack of the file with its nodes. -/
def rackOf (config : Cluster) (rack : Configs.Rack) : Rack :=
  ⟨rack.name, (config.nodes.filter fun node => node.name ∈ rack.nodes).map Node.ofConfig, true⟩

section Building

variable {racks : List Configs.Rack} {maps maps' : RackMaps}

theorem foldlM_addRackNode {rack : String} {nodes : List String}
    {nodeRackMap nodeRackMap' : Dict NodeName String}
    (done : nodes.foldlM (addRackNode rack) nodeRackMap = .ok nodeRackMap') (name : NodeName) :
    nodeRackMap'.lookup name =
        (if name.str ∈ nodes then some rack else nodeRackMap.lookup name) ∧
      (name.str ∈ nodes → nodeRackMap.lookup name = none) := by
  induction nodes generalizing nodeRackMap with
  | nil =>
    cases done
    simp
  | cons node rest ih =>
    rw [List.foldlM_cons] at done
    obtain ⟨next, added, rest_done⟩ := bind_eq_ok_iff.mp done
    unfold addRackNode at added
    split_ifs at added with fresh
    cases added
    obtain ⟨later, unseen⟩ := ih rest_done
    by_cases here : name = ⟨node⟩
    · subst here
      have once : node ∉ rest := by
        intro again
        simpa using unseen again
      rw [later, if_neg once, AList.lookup_insert, if_pos List.mem_cons_self]
      exact ⟨rfl, fun _ => fresh⟩
    · have other : name.str ≠ node := fun same => here (by rw [← same])
      rw [AList.lookup_insert_ne here] at later unseen
      simp only [List.mem_cons, other, false_or]
      exact ⟨later, unseen⟩

/-- The maps know the racks and nodes that were added. -/
structure Knows (racks : List Configs.Rack) (maps : RackMaps) : Prop where
  distinct : (racks.map (·.name)).Nodup
  lookupRack : ∀ name, maps.racks.lookup name =
    if name ∈ racks.map (·.name) then some ⟨name, [], true⟩ else none
  lookupNode : ∀ name rack, maps.nodeRackMap.lookup name = some rack ↔
    ∃ r ∈ racks, r.name = rack ∧ name.str ∈ r.nodes

theorem Knows.addRack {rack : Configs.Rack} (knows : Knows racks maps)
    (added : addRack maps rack = .ok maps') : Knows (racks ++ [rack]) maps' := by
  unfold Generator.addRack at added
  split_ifs at added with fresh
  obtain ⟨nodeRackMap, mapped, result⟩ := bind_eq_ok_iff.mp added
  cases result
  constructor
  · have unlisted : rack.name ∉ racks.map (·.name) := by
      intro listed
      rw [knows.lookupRack, if_pos listed] at fresh
      cases fresh
    rw [List.map_append, List.map_singleton, List.nodup_append]
    refine ⟨knows.distinct, List.pairwise_singleton _ _, ?_⟩
    rintro name listed other here rfl
    rw [List.mem_singleton.mp here] at listed
    exact unlisted listed
  · intro name
    by_cases here : name = rack.name
    · subst here
      rw [AList.lookup_insert]
      simp
    · rw [AList.lookup_insert_ne here, knows.lookupRack]
      simp [here]
  · intro name other
    obtain ⟨lookup, unseen⟩ := foldlM_addRackNode mapped name
    rw [lookup]
    simp only [List.mem_append, List.mem_singleton, or_and_right, exists_or, exists_eq_left]
    rw [← knows.lookupNode]
    split_ifs with listed
    · simp [unseen listed, listed]
    · simp [listed]

theorem Knows.foldlM {config : List Configs.Rack} (knows : Knows racks maps)
    (done : config.foldlM Generator.addRack maps = .ok maps') : Knows (racks ++ config) maps' := by
  induction config generalizing racks maps with
  | nil =>
    cases done
    rwa [List.append_nil]
  | cons rack rest ih =>
    rw [List.foldlM_cons] at done
    obtain ⟨next, added, rest_done⟩ := bind_eq_ok_iff.mp done
    have step := ih (knows.addRack added) rest_done
    rwa [List.append_assoc] at step

/-- A rack with those of the nodes that the map puts there. -/
def rackWith (nodeRackMap : Dict NodeName String) (nodes : List Node) (name : String) : Rack :=
  ⟨name, nodes.filter fun node => nodeRackMap.lookup node.name = some name, true⟩

theorem foldlM_addNode {nodeRackMap : Dict NodeName String} {names : List String}
    {done rest : List Node} {racks racks' : Dict String Rack}
    (filled : ∀ name, racks.lookup name =
      if name ∈ names then some (rackWith nodeRackMap done name) else none)
    (added : rest.foldlM (addNode nodeRackMap) racks = .ok racks') (name : String) :
    racks'.lookup name =
      if name ∈ names then some (rackWith nodeRackMap (done ++ rest) name) else none := by
  induction rest generalizing done racks with
  | nil =>
    cases added
    rw [List.append_nil, filled]
  | cons node rest ih =>
    rw [List.foldlM_cons] at added
    obtain ⟨next, one, others⟩ := bind_eq_ok_iff.mp added
    rw [List.append_cons]
    refine ih (fun name => ?_) others
    unfold addNode at one
    split at one
    · cases one
    rename_i rackName inRack
    rw [filled] at one
    split_ifs at one with listed
    cases one
    by_cases here : name = rackName
    · subst here
      simp [rackWith, listed, inRack]
    · have other : nodeRackMap.lookup node.name ≠ some name := by
        rw [inRack]
        exact fun same => here (Option.some.inj same).symm
      rw [AList.lookup_insert_ne here, filled]
      simp [rackWith, other]

end Building

variable {order : AnyOrder Rack} {config : Cluster} {useRacks : Bool} {center : Center}

/-- Without racks all nodes are in one rack. -/
theorem fromClusterConfig_eq_of_no_racks (unused : (!useRacks || config.racks.isEmpty) = true) :
    fromClusterConfig order config useRacks =
      .ok ⟨[⟨"unknown", config.nodes.map Node.ofConfig, true⟩], .new⟩ := by
  rw [fromClusterConfig, if_pos unused]
  rfl

theorem rackWith_eq_rackOf {maps : RackMaps} (knows : Knows config.racks maps)
    {rack : Configs.Rack} (listed : rack ∈ config.racks) :
    rackWith maps.nodeRackMap (config.nodes.map Node.ofConfig) rack.name = rackOf config rack := by
  have inRack (node : ClusterNode) :
      maps.nodeRackMap.lookup (Node.ofConfig node).name = some rack.name ↔
        node.name ∈ rack.nodes := by
    rw [knows.lookupNode]
    constructor
    · rintro ⟨other, hother, same, member⟩
      rwa [← List.inj_on_of_nodup_map knows.distinct hother listed same]
    · exact fun member => ⟨rack, listed, rfl, member⟩
  simp only [rackWith, rackOf, List.filter_map, Function.comp_def, inRack]

/-- The racks of the center are those of the file with their nodes, in some order. -/
theorem racks_perm_of_fromClusterConfig (used : (!useRacks || config.racks.isEmpty) = false)
    (built : fromClusterConfig order config useRacks = .ok center) :
    center.racks.Perm (config.racks.map (rackOf config)) := by
  rw [fromClusterConfig, if_neg (by rw [used]; exact Bool.false_ne_true)] at built
  obtain ⟨maps, mapped, built⟩ := bind_eq_ok_iff.mp built
  obtain ⟨racks, filled, built⟩ := bind_eq_ok_iff.mp built
  obtain ⟨-, -, built⟩ := bind_eq_ok_iff.mp built
  rw [foldl_push] at built
  cases built
  have start : Knows [] ⟨∅, ∅⟩ := ⟨List.nodup_nil, by simp, by simp⟩
  have knows := start.foldlM mapped
  rw [List.nil_append] at knows
  have lookup := @foldlM_addNode maps.nodeRackMap (config.racks.map (·.name)) [] _ _ _
    knows.lookupRack filled
  have perm := Dict.values_perm_map knows.distinct lookup
  rw [List.map_map, List.nil_append] at perm
  refine (order.perm _).trans (perm.trans (.of_eq ?_))
  exact List.map_congr_left fun rack listed => rackWith_eq_rackOf knows listed

/-- The nodes of the center are nodes of the file. -/
theorem mem_config_of_fromClusterConfig
    (built : fromClusterConfig order config useRacks = .ok center) {rack : Rack}
    (hrack : rack ∈ center.racks) {node : Node} (hnode : node ∈ rack.nodes) :
    ∃ listed ∈ config.nodes, Node.ofConfig listed = node := by
  cases used : !useRacks || config.racks.isEmpty with
  | true =>
    rw [fromClusterConfig_eq_of_no_racks used] at built
    cases built
    cases List.mem_singleton.mp hrack
    exact List.mem_map.mp hnode
  | false =>
    have member := (racks_perm_of_fromClusterConfig used built).mem_iff.mp hrack
    obtain ⟨other, -, rfl⟩ := List.mem_map.mp member
    obtain ⟨listed, inRack, same⟩ := List.mem_map.mp hnode
    exact ⟨listed, (List.mem_filter.mp inRack).1, same⟩

/-! ### Distinct names -/

private theorem nodup_of_distinct_neighbours {names : List String}
    (sorted : names.Pairwise fun a b => a.toList ≤ b.toList)
    (distinct : (names.zip names.tail).any (fun pair => pair.1 = pair.2) = false) :
    names.Nodup := by
  induction names with
  | nil => exact List.nodup_nil
  | cons first rest ih =>
    obtain ⟨least, sortedRest⟩ := List.pairwise_cons.mp sorted
    cases rest with
    | nil => exact List.pairwise_singleton _ _
    | cons second rest =>
      simp only [List.tail_cons, List.zip_cons_cons, List.any_cons, Bool.or_eq_false_iff,
        decide_eq_false_iff_not] at distinct
      refine List.nodup_cons.mpr ⟨fun again => ?_, ih sortedRest distinct.2⟩
      -- a name that comes again is not before its neighbour, so it is equal to it
      rcases List.mem_cons.mp again with same | later
      · exact distinct.1 same
      · have below := (List.pairwise_cons.mp sortedRest).1 first later
        exact distinct.1 (String.toList_inj.mp
          (le_antisymm (least second List.mem_cons_self) below))

theorem nodup_of_not_hasDuplicates {names : List String} (distinct : hasDuplicates names = false) :
    names.Nodup := by
  have sorted : (names.insertionSort fun a b => a.toList ≤ b.toList).Pairwise
      fun a b => a.toList ≤ b.toList := by
    have total : Std.Total fun a b : String => a.toList ≤ b.toList := ⟨fun a b => le_total _ _⟩
    have trans : IsTrans String fun a b => a.toList ≤ b.toList := ⟨fun a b c => le_trans⟩
    exact List.pairwise_insertionSort _ _
  exact (List.perm_insertionSort _ _).nodup_iff.mp (nodup_of_distinct_neighbours sorted distinct)

/-- The racks of a valid center have distinct names, and so have all their nodes. -/
structure Distinct (center : Center) : Prop where
  racks : (center.racks.map (·.name)).Nodup
  nodes : (center.racks.flatMap fun rack => rack.nodes.map (·.name)).Nodup

theorem Distinct.of_racks_eq {center' : Center} (distinct : center.Distinct)
    (same : center'.racks = center.racks) : center'.Distinct := by
  constructor
  · rw [same]
    exact distinct.racks
  · rw [same]
    exact distinct.nodes

theorem distinct_of_validate (accepted : center.validate = .ok ()) : center.Distinct := by
  simp only [validate, seq_eq_ok_iff, ensure_eq_ok_iff, Bool.not_eq_true'] at accepted
  refine ⟨nodup_of_not_hasDuplicates accepted.1, ?_⟩
  have names := nodup_of_not_hasDuplicates accepted.2
  refine List.Nodup.of_map NodeName.str ?_
  simpa only [List.map_flatMap, List.map_map, Function.comp_def] using names

end Center

end Bob.Generator

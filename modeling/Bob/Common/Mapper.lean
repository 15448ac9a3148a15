/-
# The virtual disk mapper

`Virtual` answers where a key lives: which vdisk it belongs to, which nodes hold
that vdisk, which disks of the local node, and how many replicas each node has.
Every lookup of the source ends in an `expect`; here it ends in a panic value,
and `Virtual.WellFormed` is the invariant under which none is reached.

The counter behind the choice of support nodes is shared by all requests and is
passed to that choice as an argument.
-/

import Bob.Common.NodeConfig

namespace Bob

open Bob.Math Bob.Configs

/-- A virtual disk as the mapper holds it: its replicas and the nodes they are on. -/
structure DataVDisk where
  id : VDiskId
  replicas : List NodeDisk
  nodes : List Node
  deriving DecidableEq, Repr

/-- The mapper of one node. -/
structure Virtual where
  localNodeName : NodeName
  localNodeAddress : String
  disks : List DiskPath
  vdisks : Dict VDiskId DataVDisk
  nodes : List Node
  distributionFunc : DistributionFunc

namespace Virtual

variable {keySize : ℕ}

/-! ## Construction -/

/-- The node made of an entry of the cluster file and its position. -/
def prepareNode (conf : ClusterNode × ℕ) : Node where
  index := UInt16.ofNat conf.2
  name := ⟨conf.1.name⟩
  address := conf.1.address

/-- Number the nodes of the cluster file. An index has 16 bits. -/
def prepareNodes (cluster : Cluster) : Except Panic (List Node) :=
  cluster.nodes.zipIdx.mapM fun conf =>
    if conf.2 < 2 ^ 16 then .ok (prepareNode conf) else .error ⟨"usize to u16"⟩

/-- The vdisk with its nodes: those that some replica names, in cluster order. -/
def prepareVdisk (nodes : List Node) (id : VDiskId) (replicas : List NodeDisk) : DataVDisk where
  id := id
  replicas := replicas
  nodes := nodes.filter fun node => replicas.any fun r => r.nodeName = node.name

def prepareVdisksMap (cluster : Cluster) (nodes : List Node) :
    Except Panic (Dict VDiskId DataVDisk) :=
  match cluster.collectVdiskReplicas with
  | .error e => .error ⟨s!"called `Result::unwrap()` on an `Err` value: {e}"⟩
  | .ok vdisksReplicas => .ok (vdisksReplicas.mapEntries (prepareVdisk nodes))

/-- The mapper of a node whose configuration has been prepared. -/
def new (config : NodeConfig) (cluster : Cluster) : Except Panic Virtual := do
  let nodes ← prepareNodes cluster
  let vdisks ← prepareVdisksMap cluster nodes
  match nodes.find? fun node => node.name = ⟨config.name⟩ with
  | none => .error ⟨"found node with name"⟩
  | some node =>
    pure
      { localNodeName := ⟨config.name⟩
        localNodeAddress := node.address
        disks := config.disks
        vdisks := vdisks
        nodes := nodes
        distributionFunc := cluster.distributionFunc }

/-! ## Lookups -/

/-- One byte of the little-endian remainder: the remainder so far and the weight
of the byte, both modulo `len`. -/
def modStep (len : ℕ) (acc : ℕ × ℕ) (byte : UInt8) : ℕ × ℕ :=
  ((acc.1 + acc.2 * byte.toNat) % len, (acc.2 <<< 8) % len)

def getVdiskIdByMod (key : BobKey keySize) (len : ℕ) : Except Panic ℕ :=
  -- the loop divides once per byte, so an empty key never divides
  if len = 0 ∧ 0 < keySize then
    .error ⟨"attempt to calculate the remainder with a divisor of zero"⟩
  else .ok (key.bytes.toList.foldl (modStep len) (0, 1)).1

def vdiskIdFromKey (mapper : Virtual) (key : BobKey keySize) : Except Panic VDiskId :=
  match mapper.distributionFunc with
  | .mod => do
    let id ← getVdiskIdByMod key mapper.vdisks.size
    -- the conversion from `usize` ends in `expect`
    if id < 2 ^ 32 then .ok (UInt32.ofNat id) else .error ⟨"usize to u32"⟩

def getVdisk (mapper : Virtual) (id : VDiskId) : Option DataVDisk := mapper.vdisks.lookup id

def getVdiskForKey (mapper : Virtual) (key : BobKey keySize) :
    Except Panic (Option DataVDisk) := do
  let id ← mapper.vdiskIdFromKey key
  pure (mapper.getVdisk id)

def getTargetNodesForKey (mapper : Virtual) (key : BobKey keySize) :
    Except Panic (List Node) := do
  let id ← mapper.vdiskIdFromKey key
  match mapper.vdisks.lookup id with
  | some vdisk => .ok vdisk.nodes
  | none => .error ⟨"vdisk not found"⟩

/-- The vdisks with a replica on the named local disk. -/
def getVdisksByDisk (mapper : Virtual) (disk : DiskName) : List VDiskId :=
  mapper.vdisks.entries.filterMap fun entry =>
    if (entry.2.replicas.filter fun r => r.nodeName = mapper.localNodeName).any
        fun replica => replica.diskName = disk then some entry.1
    else none

/-- One round of the loop over the replicas: a local replica creates the list if
there is none yet, and is appended to it. -/
def pushLocal (localNodeName : NodeName) (disks : Option (List DiskPath)) (replica : NodeDisk) :
    Option (List DiskPath) :=
  if replica.nodeName = localNodeName then some (disks.getD [] ++ [DiskPath.ofNodeDisk replica])
  else disks

/-- The vdisk of a key and its disk paths on this node, if there are any. -/
def getOperation (mapper : Virtual) (key : BobKey keySize) :
    Except Panic (VDiskId × Option (List DiskPath)) := do
  match ← mapper.getVdiskForKey key with
  | none => .error ⟨"vdisk not found"⟩
  | some vdisk => .ok (vdisk.id, vdisk.replicas.foldl (pushLocal mapper.localNodeName) none)

/-- How many replicas of the key's vdisk each node holds. -/
def getReplicasCountByNode (mapper : Virtual) (key : BobKey keySize) :
    Except Panic (Dict NodeName ℕ) := do
  let id ← mapper.vdiskIdFromKey key
  match mapper.vdisks.lookup id with
  | some vdisk => .ok (Dict.tally (vdisk.replicas.map (·.nodeName)))
  -- an `if let`, not an `expect`: an unknown vdisk has no counts
  | none => .ok ∅

/-! ## The invariant -/

/-- What a vdisk of a well-formed mapper looks like. -/
structure WellPlaced (mapper : Virtual) (id : VDiskId) (vdisk : DataVDisk) : Prop where
  id_eq : vdisk.id = id
  replicas_ne_nil : vdisk.replicas ≠ []
  /-- A disk carries at most one replica of a vdisk. -/
  nodup_replicas : (vdisk.replicas.map fun r => (r.nodeName, r.diskName)).Nodup
  /-- Replicas are on nodes of the cluster. -/
  replica_mem : ∀ replica ∈ vdisk.replicas, replica.nodeName ∈ mapper.nodes.map (·.name)
  nodes_eq : vdisk.nodes =
    mapper.nodes.filter fun node => vdisk.replicas.any fun r => r.nodeName = node.name

/-- The invariant of the mapper: names and indexes are unique, ids have no gaps,
and every vdisk is placed on nodes of the cluster. -/
structure WellFormed (mapper : Virtual) : Prop where
  nodup_names : (mapper.nodes.map (·.name)).Nodup
  nodup_indexes : (mapper.nodes.map (·.index)).Nodup
  local_mem : mapper.localNodeName ∈ mapper.nodes.map (·.name)
  size_pos : 0 < mapper.vdisks.size
  size_le : mapper.vdisks.size ≤ 2 ^ 32
  /-- Ids are the numbers below the number of vdisks. -/
  mem_keys : ∀ id : VDiskId, id ∈ mapper.vdisks.keys ↔ id.toNat < mapper.vdisks.size
  placed : ∀ id vdisk, mapper.vdisks.lookup id = some vdisk → mapper.WellPlaced id vdisk

/-- The disk paths of the replicas placed on the local node. -/
def localPaths (mapper : Virtual) (vdisk : DataVDisk) : List DiskPath :=
  (vdisk.replicas.filter fun r => r.nodeName = mapper.localNodeName).map DiskPath.ofNodeDisk

/-- The local node has a path for each of its replicas. -/
theorem length_localPaths {mapper : Virtual} {vdisk : DataVDisk} :
    (mapper.localPaths vdisk).length =
      (vdisk.replicas.map (·.nodeName)).count mapper.localNodeName := by
  rw [localPaths, List.length_map, List.count_eq_countP, List.countP_map,
    List.countP_eq_length_filter]
  rfl

namespace WellPlaced

variable {mapper : Virtual} {id : VDiskId} {vdisk : DataVDisk}

/-- The nodes of a vdisk are the nodes its replicas name. -/
theorem mem_names_iff (placed : mapper.WellPlaced id vdisk) {name : NodeName} :
    name ∈ vdisk.nodes.map (·.name) ↔ name ∈ vdisk.replicas.map (·.nodeName) := by
  rw [placed.nodes_eq]
  constructor
  · intro hname
    obtain ⟨node, hnode, rfl⟩ := List.mem_map.mp hname
    obtain ⟨-, named⟩ := List.mem_filter.mp hnode
    obtain ⟨replica, hreplica, same⟩ := List.any_eq_true.mp named
    exact List.mem_map.mpr ⟨replica, hreplica, of_decide_eq_true same⟩
  · intro hname
    obtain ⟨replica, hreplica, rfl⟩ := List.mem_map.mp hname
    obtain ⟨node, hnode, same⟩ := List.mem_map.mp (placed.replica_mem replica hreplica)
    refine List.mem_map.mpr ⟨node, List.mem_filter.mpr ⟨hnode, ?_⟩, same⟩
    exact List.any_eq_true.mpr ⟨replica, hreplica, decide_eq_true same.symm⟩

/-- The local node is a target exactly when it has a path. -/
theorem local_mem_iff (placed : mapper.WellPlaced id vdisk) :
    mapper.localNodeName ∈ vdisk.nodes.map (·.name) ↔ mapper.localPaths vdisk ≠ [] := by
  rw [placed.mem_names_iff, ← List.count_pos_iff, ← length_localPaths, List.length_pos_iff]

/-- Failures are collected for the local node and for the remote nodes apart.
Together they are the failures among the nodes of the vdisk. -/
theorem failed_iff (placed : mapper.WellPlaced id vdisk) {localOk : Bool} {remoteOk : Node → Bool}
    (vacuous : mapper.localPaths vdisk = [] → localOk = true) {name : NodeName} :
    (name ∈ (if localOk then [] else [mapper.localNodeName]) ∨
      ∃ node ∈ vdisk.nodes.filter (fun node => node.name ≠ mapper.localNodeName),
        node.name = name ∧ remoteOk node = false) ↔
    ∃ node ∈ vdisk.nodes, node.name = name ∧
      (if node.name = mapper.localNodeName then localOk else remoteOk node) = false := by
  constructor
  · rintro (here | ⟨node, hnode, rfl, failed⟩)
    · cases localOk with
      | true => cases here
      | false =>
        -- a local failure needs a local path, and then this node is one of the vdisk
        have target := placed.local_mem_iff.mpr fun empty => Bool.false_ne_true (vacuous empty)
        obtain ⟨node, listed, named⟩ := List.mem_map.mp target
        exact ⟨node, listed, named.trans (List.mem_singleton.mp here).symm, by rw [if_pos named]⟩
    · obtain ⟨listed, remote⟩ := List.mem_filter.mp hnode
      exact ⟨node, listed, rfl, by rw [if_neg (of_decide_eq_true remote), failed]⟩
  · rintro ⟨node, listed, rfl, failed⟩
    split_ifs at failed with here
    · rw [failed]
      exact Or.inl (List.mem_singleton.mpr here)
    · exact Or.inr ⟨node, List.mem_filter.mpr ⟨listed, decide_eq_true here⟩, rfl, failed⟩

theorem nodes_ne_nil (placed : mapper.WellPlaced id vdisk) : vdisk.nodes ≠ [] := by
  obtain ⟨replica, hreplica⟩ := List.exists_mem_of_ne_nil _ placed.replicas_ne_nil
  have named := placed.mem_names_iff.mpr (List.mem_map_of_mem hreplica)
  rintro empty
  simp [empty] at named

theorem nodes_sublist (placed : mapper.WellPlaced id vdisk) : vdisk.nodes.Sublist mapper.nodes := by
  rw [placed.nodes_eq]
  exact List.filter_sublist

theorem nodup_names (placed : mapper.WellPlaced id vdisk) (wf : mapper.WellFormed) :
    (vdisk.nodes.map (·.name)).Nodup :=
  wf.nodup_names.sublist (placed.nodes_sublist.map _)

/-- Each replica is either at a remote node of the vdisk or on a local path. -/
theorem sum_count_remote_nodes (placed : mapper.WellPlaced id vdisk) (wf : mapper.WellFormed) :
    ((vdisk.nodes.filter fun node => node.name ≠ mapper.localNodeName).map fun node =>
        (vdisk.replicas.map (·.nodeName)).count node.name).sum +
      (mapper.localPaths vdisk).length = vdisk.replicas.length := by
  let names := vdisk.replicas.map (·.nodeName)
  let remote (name : NodeName) : Bool := name ≠ mapper.localNodeName
  -- the nodes of the vdisk are the distinct names among its replicas, so counting
  -- by node counts every replica once
  have perm : ((vdisk.nodes.map (·.name)).filter remote).Perm (names.dedup.filter remote) := by
    apply List.Perm.filter
    refine (List.perm_ext_iff_of_nodup (placed.nodup_names wf) (List.nodup_dedup _)).mpr ?_
    intro name
    rw [placed.mem_names_iff, List.mem_dedup]
  have sums := (perm.map names.count).sum_eq
  rw [List.sum_map_count_dedup_filter_eq_countP, List.filter_map, List.map_map] at sums
  have split := List.length_eq_countP_add_countP remote (l := names)
  rw [length_localPaths, List.count_eq_countP, ← List.length_map (f := (·.nodeName))]
  refine Eq.trans (congrArg₂ (· + ·) sums (List.countP_congr fun name _ => ?_)) split.symm
  simp [remote]

end WellPlaced

private theorem foldl_pushLocal {name : NodeName} {replicas : List NodeDisk}
    {start : Option (List DiskPath)} :
    replicas.foldl (pushLocal name) start =
      let paths := (replicas.filter fun r => r.nodeName = name).map DiskPath.ofNodeDisk
      if paths.isEmpty then start else some (start.getD [] ++ paths) := by
  induction replicas generalizing start with
  | nil => rfl
  | cons replica rest ih =>
    rw [List.foldl_cons, ih]
    -- only the first local replica creates the list, so without one the start is kept
    by_cases here : replica.nodeName = name
    · simp only [pushLocal, here, if_true, List.filter_cons_of_pos, decide_true, List.map_cons]
      cases (rest.filter fun r => r.nodeName = name).map DiskPath.ofNodeDisk <;> simp
    · simp [pushLocal, here]

section Lookups

variable {mapper : Virtual}

private theorem foldl_modStep_lt {len : ℕ} (pos : 0 < len) {bytes : List UInt8} {acc : ℕ × ℕ}
    (below : acc.1 < len) : (bytes.foldl (modStep len) acc).1 < len := by
  induction bytes generalizing acc with
  | nil => exact below
  | cons byte rest ih => exact ih (Nat.mod_lt _ pos)

theorem getVdiskIdByMod_lt (key : BobKey keySize) {len : ℕ} (pos : 0 < len) :
    ∃ id, getVdiskIdByMod key len = .ok id ∧ id < len := by
  refine ⟨_, if_neg fun ⟨zero, _⟩ => pos.ne' zero, foldl_modStep_lt pos pos⟩

/-- In a well-formed mapper every key has a vdisk. -/
theorem WellFormed.exists_vdisk (wf : mapper.WellFormed) (key : BobKey keySize) :
    ∃ id vdisk, mapper.vdiskIdFromKey key = .ok id ∧ mapper.vdisks.lookup id = some vdisk ∧
      mapper.WellPlaced id vdisk := by
  obtain ⟨id, hid, below⟩ := getVdiskIdByMod_lt key wf.size_pos
  have small : id < 2 ^ 32 := below.trans_le wf.size_le
  -- the remainder is below the number of vdisks, and the ids have no gaps
  have stored : UInt32.ofNat id ∈ mapper.vdisks.keys := by
    rw [wf.mem_keys, UInt32.toNat_ofNat_of_lt' small]
    exact below
  obtain ⟨vdisk, hvdisk⟩ := Dict.mem_keys_iff.mp stored
  refine ⟨UInt32.ofNat id, vdisk, ?_, hvdisk, wf.placed _ _ hvdisk⟩
  unfold vdiskIdFromKey
  cases mapper.distributionFunc with
  | mod => exact bind_eq_ok_iff.mpr ⟨id, hid, if_pos small⟩

variable {key : BobKey keySize} {id : VDiskId} {vdisk : DataVDisk}

theorem getTargetNodesForKey_eq (hid : mapper.vdiskIdFromKey key = .ok id)
    (hvdisk : mapper.vdisks.lookup id = some vdisk) :
    mapper.getTargetNodesForKey key = .ok vdisk.nodes := by
  rw [getTargetNodesForKey, hid]
  simp only [bind, Except.bind, hvdisk]

theorem getOperation_eq (hid : mapper.vdiskIdFromKey key = .ok id)
    (hvdisk : mapper.vdisks.lookup id = some vdisk) :
    mapper.getOperation key = .ok (vdisk.id,
      if (mapper.localPaths vdisk).isEmpty then none else some (mapper.localPaths vdisk)) := by
  rw [getOperation, getVdiskForKey, hid]
  simp only [bind, Except.bind, pure, Except.pure, getVdisk, hvdisk, foldl_pushLocal,
    Option.getD_none, List.nil_append, localPaths]
  rfl

/-- An operation without paths stands for an empty list of paths. -/
theorem getD_localPaths : (if (mapper.localPaths vdisk).isEmpty then none
    else some (mapper.localPaths vdisk)).getD [] = mapper.localPaths vdisk := by
  cases mapper.localPaths vdisk <;> rfl

theorem getReplicasCountByNode_eq (hid : mapper.vdiskIdFromKey key = .ok id)
    (hvdisk : mapper.vdisks.lookup id = some vdisk) :
    mapper.getReplicasCountByNode key = .ok (Dict.tally (vdisk.replicas.map (·.nodeName))) := by
  rw [getReplicasCountByNode, hid]
  simp only [bind, Except.bind, hvdisk]

end Lookups

end Virtual

end Bob

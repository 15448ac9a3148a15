/-
# Accepted configurations route every key

The mapper relies on an `expect` at every lookup. What makes them safe is spread
over many checks of the cluster file and of the node file. This module joins
them: an accepted pair of files builds a well-formed mapper, whose vdisks are the
vdisks of the cluster file with the nodes and disks their replicas name.
-/

import Bob.Common.Mapper

namespace Bob.Virtual

open Bob.Math Bob.Configs

variable {keySize : ℕ} {cluster : Cluster} {config : NodeConfig} {mapper : Virtual}

/-! ## The nodes of the mapper -/

private theorem prepareNodes_eq_ok_iff {nodes : List Node} :
    prepareNodes cluster = .ok nodes ↔
      cluster.nodes.length ≤ 2 ^ 16 ∧ nodes = cluster.nodes.zipIdx.map prepareNode := by
  rw [prepareNodes, mapM_ite_eq_ok_iff]
  apply and_congr_left'
  constructor
  · intro small
    by_contra long
    -- a longer list has an entry at the first position that does not fit
    have listed : (cluster.nodes[2 ^ 16], 2 ^ 16) ∈ cluster.nodes.zipIdx :=
      List.mk_mem_zipIdx_iff_getElem?.mpr (by simp)
    exact lt_irrefl _ (small _ listed)
  · intro short conf hconf
    have := List.snd_lt_of_mem_zipIdx hconf
    omega

private theorem names_prepareNode :
    (cluster.nodes.zipIdx.map prepareNode).map (·.name) =
      cluster.nodes.map fun node => (⟨node.name⟩ : NodeName) := by
  conv_rhs => rw [← List.zipIdx_map_fst 0 cluster.nodes, List.map_map]
  exact List.map_map

private theorem indexes_prepareNode :
    (cluster.nodes.zipIdx.map prepareNode).map (·.index) =
      (List.range cluster.nodes.length).map UInt16.ofNat := by
  rw [List.range_eq_range', ← List.zipIdx_map_snd 0 cluster.nodes, List.map_map, List.map_map]
  rfl

/-! ## The mapper and the files it is built from -/

/-- Replicas of the file and disks of the mapper carry the same names. -/
private theorem map_names_of_locates {replicas : List Replica} {disks : List NodeDisk}
    (located : List.Forall₂ cluster.Locates replicas disks) :
    disks.map (fun r => (r.nodeName, r.diskName)) =
      replicas.map fun r => ((⟨r.node⟩ : NodeName), (⟨r.disk⟩ : DiskName)) := by
  induction located with
  | nil => rfl
  | cons locates _ ih => rw [List.map_cons, List.map_cons, ih, locates.nodeName, locates.diskName]

/-- How a mapper relates to the files it is built from. -/
structure BuiltFrom (mapper : Virtual) (config : NodeConfig) (cluster : Cluster) : Prop where
  length_le : cluster.nodes.length ≤ 2 ^ 16
  nodes_eq : mapper.nodes = cluster.nodes.zipIdx.map prepareNode
  local_eq : mapper.localNodeName = ⟨config.name⟩
  local_mem : mapper.localNodeName ∈ mapper.nodes.map (·.name)
  disks_eq : mapper.disks = config.disks
  vdisks_eq : ∃ replicas, cluster.collectVdiskReplicas = .ok replicas ∧
    mapper.vdisks = replicas.mapEntries (prepareVdisk mapper.nodes)

theorem builtFrom_of_new (built : new config cluster = .ok mapper) :
    mapper.BuiltFrom config cluster := by
  obtain ⟨nodes, hnodes, built⟩ := bind_eq_ok_iff.mp built
  obtain ⟨vdisks, hvdisks, built⟩ := bind_eq_ok_iff.mp built
  obtain ⟨short, rfl⟩ := prepareNodes_eq_ok_iff.mp hnodes
  unfold prepareVdisksMap at hvdisks
  split at hvdisks
  · cases hvdisks
  rename_i replicas collected
  cases hvdisks
  split at built
  · cases built
  rename_i node hnode
  cases built
  have named : node.name = ⟨config.name⟩ := by simpa using List.find?_some hnode
  refine ⟨short, rfl, rfl, ?_, rfl, replicas, collected, rfl⟩
  exact List.mem_map.mpr ⟨node, List.mem_of_find?_eq_some hnode, named⟩

/-- A valid cluster of at most `2 ^ 16` nodes has a mapper for each node in it. -/
theorem exists_new (valid : cluster.Valid) (short : cluster.nodes.length ≤ 2 ^ 16)
    (listed : config.name ∈ cluster.nodes.map (·.name)) :
    ∃ mapper, new config cluster = .ok mapper := by
  obtain ⟨replicas, collected, -⟩ := valid.exists_collectVdiskReplicas
  let nodes := cluster.nodes.zipIdx.map prepareNode
  have member : (⟨config.name⟩ : NodeName) ∈ nodes.map (·.name) := by
    rw [names_prepareNode]
    obtain ⟨node, hnode, named⟩ := List.mem_map.mp listed
    exact List.mem_map.mpr ⟨node, hnode, by rw [named]⟩
  obtain ⟨node, hnode, named⟩ := List.mem_map.mp member
  obtain ⟨found, hfound⟩ := Option.isSome_iff_exists.mp
    (List.find?_isSome.mpr ⟨node, hnode, by simpa using named⟩ :
      (nodes.find? fun node => node.name = ⟨config.name⟩).isSome)
  have vdisks : prepareVdisksMap cluster nodes =
      .ok (replicas.mapEntries (prepareVdisk nodes)) := by
    rw [prepareVdisksMap, collected]
  refine ⟨⟨⟨config.name⟩, found.address, config.disks, replicas.mapEntries (prepareVdisk nodes),
    nodes, cluster.distributionFunc⟩, ?_⟩
  rw [new, prepareNodes_eq_ok_iff.mpr ⟨short, rfl⟩]
  simp only [bind, Except.bind, nodes, vdisks, hfound]
  rfl

namespace BuiltFrom

variable (built : mapper.BuiltFrom config cluster) (valid : cluster.Valid)
include built

theorem names_eq : mapper.nodes.map (·.name) = cluster.nodes.map fun node => ⟨node.name⟩ := by
  rw [built.nodes_eq, names_prepareNode]

theorem nodup_indexes : (mapper.nodes.map (·.index)).Nodup := by
  rw [built.nodes_eq, indexes_prepareNode]
  refine List.Nodup.map_on (fun i hi j hj same => ?_) List.nodup_range
  have short := built.length_le
  rw [List.mem_range] at hi hj
  -- positions below `2 ^ 16` are not changed by the conversion
  have := congrArg UInt16.toNat same
  rw [UInt16.toNat_ofNat', UInt16.toNat_ofNat'] at this
  omega

/-- The nodes of one cluster have the same vdisks. -/
theorem vdisks_eq_of_builtFrom {config' : NodeConfig} {mapper' : Virtual}
    (built' : mapper'.BuiltFrom config' cluster) : mapper'.vdisks = mapper.vdisks := by
  obtain ⟨replicas, collected, entries⟩ := built.vdisks_eq
  obtain ⟨replicas', collected', entries'⟩ := built'.vdisks_eq
  cases collected.symm.trans collected'
  rw [entries, entries', built.nodes_eq, built'.nodes_eq]

/-- They send a key to the same vdisk. -/
theorem vdiskIdFromKey_eq_of_builtFrom {config' : NodeConfig} {mapper' : Virtual}
    (built' : mapper'.BuiltFrom config' cluster) (key : BobKey keySize) :
    mapper'.vdiskIdFromKey key = mapper.vdiskIdFromKey key := by
  unfold vdiskIdFromKey
  rw [built.vdisks_eq_of_builtFrom built']

include valid

theorem nodup_names : (mapper.nodes.map (·.name)).Nodup := by
  rw [built.names_eq]
  have := valid.nodup_names.map (f := NodeName.mk) fun _ _ same => NodeName.mk.inj same
  rwa [List.map_map] at this

/-- The mapper holds the vdisks of the cluster file, each with the disks its
replicas name. -/
theorem exists_lookup {vdisk : VDisk} (hvdisk : vdisk ∈ cluster.vdisks) :
    ∃ disks, mapper.vdisks.lookup vdisk.id = some (prepareVdisk mapper.nodes vdisk.id disks) ∧
      List.Forall₂ cluster.Locates vdisk.replicas disks := by
  obtain ⟨replicas, collected, entries⟩ := built.vdisks_eq
  obtain ⟨replicas', collected', holds, -⟩ := valid.exists_collectVdiskReplicas
  obtain rfl : replicas' = replicas := Except.ok.inj (collected'.symm.trans collected)
  obtain ⟨disks, found, located⟩ := holds vdisk hvdisk
  exact ⟨disks, by rw [entries, Dict.lookup_mapEntries, found]; rfl, located⟩

theorem mem_keys_iff {id : VDiskId} :
    id ∈ mapper.vdisks.keys ↔ id ∈ cluster.vdisks.map (·.id) := by
  obtain ⟨replicas, collected, entries⟩ := built.vdisks_eq
  obtain ⟨replicas', collected', -, keys⟩ := valid.exists_collectVdiskReplicas
  obtain rfl : replicas' = replicas := Except.ok.inj (collected'.symm.trans collected)
  rw [← keys, entries, Dict.mem_keys_iff, Dict.mem_keys_iff, Dict.lookup_mapEntries]
  simp

theorem size_eq : mapper.vdisks.size = cluster.vdisks.length := by
  rw [Dict.size_eq_of_keys_iff valid.nodup_ids fun id => built.mem_keys_iff valid]
  simp

/-- A vdisk of the mapper is one of the file, with the disks its replicas name. -/
theorem exists_source {id : VDiskId} {data : DataVDisk}
    (found : mapper.vdisks.lookup id = some data) :
    ∃ vdisk ∈ cluster.vdisks, ∃ disks, vdisk.id = id ∧
      data = prepareVdisk mapper.nodes vdisk.id disks ∧
      List.Forall₂ cluster.Locates vdisk.replicas disks := by
  have listed := (built.mem_keys_iff valid).mp (Dict.mem_keys_iff.mpr ⟨data, found⟩)
  obtain ⟨vdisk, hvdisk, rfl⟩ := List.mem_map.mp listed
  obtain ⟨disks, found', located⟩ := built.exists_lookup valid hvdisk
  exact ⟨vdisk, hvdisk, disks, rfl, Option.some.inj (found.symm.trans found'), located⟩

theorem wellPlaced {id : VDiskId} {data : DataVDisk} (found : mapper.vdisks.lookup id = some data) :
    mapper.WellPlaced id data := by
  obtain ⟨vdisk, hvdisk, disks, rfl, rfl, located⟩ := built.exists_source valid found
  have names := map_names_of_locates located
  refine ⟨rfl, fun empty => ?_, ?_, fun disk hdisk => ?_, rfl⟩
  · have : disks = [] := empty
    rw [this, List.forall₂_nil_right_iff] at located
    exact valid.replicas_ne_nil vdisk hvdisk located
  · change (disks.map fun r => (r.nodeName, r.diskName)).Nodup
    rw [names]
    refine (valid.nodup_replicas vdisk hvdisk).map fun first second same => ?_
    obtain ⟨node, disk⟩ := first
    obtain ⟨node', disk'⟩ := second
    simpa using same
  · rw [built.names_eq]
    obtain ⟨i, hi, rfl⟩ := List.getElem_of_mem hdisk
    obtain ⟨len, pointwise⟩ := List.forall₂_iff_get.mp located
    have locates := pointwise i (by rw [len]; exact hi) hi
    obtain ⟨node, hnode, named, -⟩ := locates.listed
    exact List.mem_map.mpr ⟨node, hnode, by rw [named]; exact locates.nodeName.symm⟩

theorem wellFormed : mapper.WellFormed where
  nodup_names := built.nodup_names valid
  nodup_indexes := built.nodup_indexes
  local_mem := built.local_mem
  size_pos := by
    rw [built.size_eq valid]
    exact List.length_pos_iff.mpr valid.vdisks_ne_nil
  size_le := by
    rw [built.size_eq valid]
    exact valid.length_le
  mem_keys := fun id => by
    rw [built.mem_keys_iff valid, valid.mem_ids_iff, built.size_eq valid]
  placed := fun id data found => built.wellPlaced valid found

/-- A vdisk of the mapper has as many replicas as one of the file. -/
theorem exists_length_eq {id : VDiskId} {data : DataVDisk}
    (found : mapper.vdisks.lookup id = some data) :
    ∃ vdisk ∈ cluster.vdisks, vdisk.id = id ∧ data.replicas.length = vdisk.replicas.length := by
  obtain ⟨vdisk, hvdisk, disks, rfl, rfl, located⟩ := built.exists_source valid found
  exact ⟨vdisk, hvdisk, rfl, located.length_eq.symm⟩

end BuiltFrom

/-! ## Every key is routed -/

/-- Lookups for `key` succeed, and agree with the vdisk of the cluster file. -/
structure Routed (cluster : Cluster) (node : NodeConfig) (mapper : Virtual) (key : BobKey keySize)
    (vdisk : VDisk) (targets : List Node) (paths : Option (List DiskPath))
    (counts : Dict NodeName ℕ) : Prop where
  listed : vdisk ∈ cluster.vdisks
  id_eq : mapper.vdiskIdFromKey key = .ok vdisk.id
  /-- The target nodes are the nodes the replicas name, each once. -/
  targets_eq : mapper.getTargetNodesForKey key = .ok targets
  targets_ne_nil : targets ≠ []
  nodup_targets : (targets.map (·.name)).Nodup
  mem_targets : ∀ name : NodeName,
    name ∈ targets.map (·.name) ↔ ∃ replica ∈ vdisk.replicas, name = ⟨replica.node⟩
  /-- The operation has the paths of the replicas on this node. -/
  operation_eq : mapper.getOperation key = .ok (vdisk.id, paths)
  paths_eq : List.Forall₂ cluster.HasPath
    (vdisk.replicas.filter fun replica => replica.node = node.name) (paths.getD [])
  paths_none : paths = none ↔ ∀ replica ∈ vdisk.replicas, replica.node ≠ node.name
  /-- Exactly the target nodes have a count. It is positive, and the counts add up. -/
  counts_eq : mapper.getReplicasCountByNode key = .ok counts
  mem_counts : ∀ name, name ∈ counts.keys ↔ name ∈ targets.map (·.name)
  counts_pos : ∀ name count, counts.lookup name = some count → 0 < count
  sum_counts : counts.values.sum = vdisk.replicas.length
  /-- The quorum can be met. -/
  quorum_le : node.quorum ≤ vdisk.replicas.length
  one_le_quorum : 1 ≤ node.quorum

private theorem hasPath_of_locates {replicas : List Replica} {disks : List NodeDisk}
    (located : List.Forall₂ cluster.Locates replicas disks) (name : String) :
    List.Forall₂ cluster.HasPath (replicas.filter fun replica => replica.node = name)
      ((disks.filter fun disk => disk.nodeName = ⟨name⟩).map DiskPath.ofNodeDisk) := by
  induction located with
  | nil => exact .nil
  | @cons replica disk _ _ locates _ ih =>
    have same : disk.nodeName = ⟨name⟩ ↔ replica.node = name := by
      rw [locates.nodeName, NodeName.mk.injEq]
    by_cases here : replica.node = name
    · rw [List.filter_cons_of_pos (by simpa using here),
        List.filter_cons_of_pos (by simpa using same.mpr here)]
      exact .cons ⟨locates.diskName, locates.listed⟩ ih
    · rw [List.filter_cons_of_neg (by simpa using here),
        List.filter_cons_of_neg (by simpa using mt same.mp here)]
      exact ih

/-- Each vdisk of a valid file is what the lookups for its keys return. -/
private theorem BuiltFrom.routed {node : NodeConfig} (built : mapper.BuiltFrom config cluster)
    (valid : cluster.Valid) (named : config.name = node.name)
    (enough : ∀ vdisk ∈ cluster.vdisks, node.quorum ≤ vdisk.replicas.length)
    (positive : 1 ≤ node.quorum) (key : BobKey keySize) :
    ∃ vdisk targets paths counts, Routed cluster node mapper key vdisk targets paths counts := by
  have wf := built.wellFormed valid
  obtain ⟨id, data, hid, found, placed⟩ := wf.exists_vdisk key
  obtain ⟨vdisk, hvdisk, disks, rfl, rfl, located⟩ := built.exists_source valid found
  have nodeNames : disks.map (·.nodeName) = vdisk.replicas.map fun r => ⟨r.node⟩ := by
    simpa [Function.comp_def] using congrArg (List.map Prod.fst) (map_names_of_locates located)
  have paths := hasPath_of_locates located node.name
  have localEq : mapper.localPaths (prepareVdisk mapper.nodes vdisk.id disks) =
      (disks.filter fun disk => disk.nodeName = ⟨node.name⟩).map DiskPath.ofNodeDisk := by
    rw [localPaths, built.local_eq, named]
    rfl
  refine ⟨vdisk, _, _, _,
    { listed := hvdisk
      id_eq := hid
      targets_eq := getTargetNodesForKey_eq hid found
      targets_ne_nil := placed.nodes_ne_nil
      nodup_targets := placed.nodup_names wf
      mem_targets := fun name => ?_
      operation_eq := getOperation_eq hid found
      paths_eq := ?_
      paths_none := ?_
      counts_eq := getReplicasCountByNode_eq hid found
      mem_counts := fun name => ?_
      counts_pos := fun name count hcount => ?_
      sum_counts := ?_
      quorum_le := enough vdisk hvdisk
      one_le_quorum := positive }⟩
  · rw [placed.mem_names_iff]
    change name ∈ disks.map (·.nodeName) ↔ _
    rw [nodeNames]
    simp [eq_comm]
  · rw [← localEq] at paths
    cases hlocal : mapper.localPaths (prepareVdisk mapper.nodes vdisk.id disks) with
    | nil => simpa [hlocal] using paths
    | cons path rest => simpa [hlocal] using paths
  -- no paths on this node means that no replica is on it: the two lists are equally long
  · have len := paths.length_eq
    rw [← localEq] at len
    have absent : (∀ replica ∈ vdisk.replicas, replica.node ≠ node.name) ↔
        (vdisk.replicas.filter fun replica => replica.node = node.name) = [] := by
      simp [List.filter_eq_nil_iff]
    rw [absent, ← List.length_eq_zero_iff, len]
    cases mapper.localPaths (prepareVdisk mapper.nodes vdisk.id disks) <;> simp
  · rw [placed.mem_names_iff, Dict.mem_keys_iff, Dict.lookup_tally]
    split_ifs with member <;> simp [member]
  · rw [Dict.lookup_tally] at hcount
    split_ifs at hcount with member
    cases hcount
    exact List.count_pos_iff.mpr member
  · rw [Dict.sum_values_tally, List.length_map]
    exact located.length_eq.symm

/-- An accepted cluster file and an accepted node file make every key routable:
the mapper can be built, and each key belongs to a vdisk whose nodes, local paths
and replica counts are those of the file and can meet the quorum. -/
theorem accepted_config_routes_every_key {ext : Externals} {node prepared : NodeConfig}
    (validated : cluster.validate ext.parseUri = .ok ())
    (short : cluster.nodes.length ≤ 65536)
    (nodeValidated : node.validate ext = .ok ())
    (checked : cluster.check ext node = .ok prepared) :
    (∃ replicas, cluster.collectVdiskReplicas = .ok replicas ∧
      ∀ id, id ∈ replicas.keys ↔ id.toNat < cluster.vdisks.length) ∧
    (cluster.vdisks.map (·.id.toNat)).Perm (List.range cluster.vdisks.length) ∧
    ∃ mapper, Virtual.new prepared cluster = .ok mapper ∧
      ∀ key : BobKey keySize, ∃ vdisk targets paths counts,
        Routed cluster node mapper key vdisk targets paths counts := by
  have valid := Cluster.valid_of_validate validated
  obtain ⟨found, hfound⟩ := Cluster.exists_checked checked
  have named : prepared.name = node.name := by rw [hfound.taken]
  refine ⟨?_, valid.ids_perm, ?_⟩
  · obtain ⟨replicas, collected, -, keys⟩ := valid.exists_collectVdiskReplicas
    exact ⟨replicas, collected, fun id => (keys id).trans valid.mem_ids_iff⟩
  · have listed : prepared.name ∈ cluster.nodes.map (·.name) := by
      rw [named, ← hfound.named]
      exact List.mem_map_of_mem hfound.listed
    obtain ⟨mapper, built⟩ := exists_new valid short listed
    refine ⟨mapper, built, fun key => ?_⟩
    exact (builtFrom_of_new built).routed valid named hfound.quorum_le
      (NodeConfig.one_le_quorum nodeValidated) key

/-! ## A small cluster -/

/-- Parsers that accept every text. -/
def lenientExternals : Externals where
  parseUri := fun address => .ok ⟨some 20000, address⟩
  parseHumanDuration := fun _ => .ok ⟨86400 * 10 ^ 9⟩
  parseSocketAddr := fun _ => .ok ()
  showDuration := fun _ => "PT86400S"

/-- Three nodes. The second vdisk has both replicas on the first node. -/
def smallCluster : Cluster where
  nodes :=
    [⟨"alpha", "alpha:20000", [⟨⟨"disk1"⟩, "/mnt/1"⟩, ⟨⟨"disk2"⟩, "/mnt/2"⟩]⟩,
     ⟨"beta", "beta:20000", [⟨⟨"disk1"⟩, "/mnt/1"⟩]⟩,
     ⟨"gamma", "gamma:20000", [⟨⟨"disk1"⟩, "/mnt/1"⟩]⟩]
  vdisks :=
    [⟨0, [⟨"alpha", "disk1"⟩, ⟨"beta", "disk1"⟩]⟩,
     ⟨1, [⟨"alpha", "disk2"⟩, ⟨"alpha", "disk1"⟩]⟩]
  racks := []

/-- The node file of the first node of the small cluster. -/
def smallNode : NodeConfig where
  logConfig := "logger.yaml"
  usersConfig := "users.yaml"
  name := "alpha"
  quorum := 2
  operationTimeout := "3sec"
  checkInterval := "5sec"
  clusterPolicy := "quorum"
  backendType := "pearl"
  pearl := some ⟨"bob", "100ms", some "disk1", ⟨"bob", "alien", "1d", "100ms"⟩, none⟩
  metrics := none

/-- The node file with the address and the disks of the small cluster. -/
def preparedSmallNode : NodeConfig :=
  { smallNode with
    bind := "alpha:20000"
    disks := [⟨⟨"disk1"⟩, "/mnt/1"⟩, ⟨⟨"disk2"⟩, "/mnt/2"⟩] }

/-- The mapper of the first node of the small cluster. -/
def smallMapper : Virtual where
  localNodeName := ⟨"alpha"⟩
  localNodeAddress := "alpha:20000"
  disks := preparedSmallNode.disks
  vdisks := AList.insert 0
    ⟨0, [⟨⟨"alpha"⟩, ⟨"disk1"⟩, "/mnt/1"⟩, ⟨⟨"beta"⟩, ⟨"disk1"⟩, "/mnt/1"⟩],
      [⟨0, ⟨"alpha"⟩, "alpha:20000"⟩, ⟨1, ⟨"beta"⟩, "beta:20000"⟩]⟩ (AList.insert 1
    ⟨1, [⟨⟨"alpha"⟩, ⟨"disk2"⟩, "/mnt/2"⟩, ⟨⟨"alpha"⟩, ⟨"disk1"⟩, "/mnt/1"⟩],
      [⟨0, ⟨"alpha"⟩, "alpha:20000"⟩]⟩ ∅)
  nodes := [⟨0, ⟨"alpha"⟩, "alpha:20000"⟩, ⟨1, ⟨"beta"⟩, "beta:20000"⟩,
    ⟨2, ⟨"gamma"⟩, "gamma:20000"⟩]
  distributionFunc := .mod

theorem new_small : Virtual.new preparedSmallNode smallCluster = .ok smallMapper := by rfl

theorem validate_small : smallCluster.validate lenientExternals.parseUri = .ok () := by decide

theorem check_small :
    smallCluster.check lenientExternals smallNode = .ok preparedSmallNode := by decide

theorem small_config_routes_every_key :
    (smallCluster.validate lenientExternals.parseUri = .ok () ∧
      smallNode.validate lenientExternals = .ok () ∧
      smallCluster.check lenientExternals smallNode = .ok preparedSmallNode) ∧
    ∃ mapper, Virtual.new preparedSmallNode smallCluster = .ok mapper ∧
      ∀ key : BobKey 8, ∃ vdisk targets paths counts,
        Routed smallCluster smallNode mapper key vdisk targets paths counts := by
  have nodeValidated : smallNode.validate lenientExternals = .ok () := by decide
  exact ⟨⟨validate_small, nodeValidated, check_small⟩,
    (accepted_config_routes_every_key validate_small (by decide) nodeValidated check_small).2.2⟩

end Bob.Virtual

/-
# The cluster configuration

The cluster file lists nodes with their disks, virtual disks with their
replicas, and racks. `Cluster.validate` runs the checks of the source in their
order and with their messages. What acceptance buys is collected in
`Cluster.Valid`: ids without gaps, names without repetition, and replicas that
name existing disks. Parsing an address is left to the `http` package, which
enters as a parameter.
-/

import Bob.Common.Types
import Bob.Common.Validation
import Bob.Math.Dict
import Bob.Math.FirstMatch
import Mathlib.Data.List.Sort

namespace Bob.Configs

open Bob.Math

/-- What the `http` package reads off an address. -/
structure Uri where
  portU16 : Option UInt16
  display : String
  deriving DecidableEq, Repr

/-- The `parse::<Uri>` of the `http` package: a uri, or the text of its error. -/
abbrev UriParser := String → Except String Uri

/-- A rack: a name and the names of the nodes in it. -/
structure Rack where
  name : String
  nodes : List String
  deriving DecidableEq, Repr

/-- A node of the cluster file. -/
structure ClusterNode where
  name : String
  address : String
  disks : List DiskPath
  deriving DecidableEq, Repr

/-- Where one replica of a vdisk lives. -/
structure Replica where
  node : String
  disk : String
  deriving DecidableEq, Repr

/-- A virtual disk of the cluster file. -/
structure VDisk where
  id : VDiskId
  replicas : List Replica
  deriving DecidableEq, Repr

/-- How keys are spread over vdisks. -/
inductive DistributionFunc
  | mod
  deriving DecidableEq, Repr

/-- The cluster file. -/
structure Cluster where
  nodes : List ClusterNode
  vdisks : List VDisk
  racks : List Rack
  distributionFunc : DistributionFunc := .mod
  deriving DecidableEq, Repr

/-! ## Validation of the parts -/

/-- A disk needs a name and a path. The text `~` is what the yaml reader makes
of a field without a value. -/
def validateDiskPath (disk : DiskPath) : Except String Unit :=
  if disk.name.str.isEmpty || disk.path.isEmpty || disk.name.str = "~" || disk.path = "~" then
    .error ("NodeDisk validation failed: node disks must contain " ++
      "not empty fields 'name' and 'path'")
  else .ok ()

def Rack.validate (rack : Rack) : Except String Unit := do
  ensure (!(rack.name.isEmpty || rack.name = "~")) "rack must contain not empty field 'name'"
  (Validator.validateNoDuplicates rack.nodes).mapError fun dupItem =>
    s!"rack '{rack.name}' can't contain identical node names: {dupItem}"

/-- The address must parse and carry a port. -/
def validateAddress (parseUri : UriParser) (address : String) : Except String Unit :=
  match parseUri address with
  | .ok uri => ensure uri.portU16.isSome s!"{uri.display}: node uri missing port"
  | .error e => .error s!"{address}: node uri parse failed: {e}"

def ClusterNode.validate (parseUri : UriParser) (node : ClusterNode) : Except String Unit := do
  ensure (!(node.name.isEmpty || node.name = "~")) "node must contain not empty field 'name'"
  validateAddress parseUri node.address
  Validator.aggregate validateDiskPath node.disks
  (Validator.validateNoDuplicates (node.disks.map (·.name))).mapError fun dupItem =>
    s!"node '{node.name}' can't use identical names for disks: {dupItem.str}"

def Replica.validate (replica : Replica) : Except String Unit :=
  ensure (!(replica.node.isEmpty || replica.disk.isEmpty))
    "replica must contain not empty fields 'node' and 'disk'"

def VDisk.validate (vdisk : VDisk) : Except String Unit := do
  ensure (!vdisk.replicas.isEmpty) s!"vdisk must have replicas: {vdisk.id}"
  (Validator.aggregate Replica.validate vdisk.replicas).mapError fun e =>
    s!"vdisk {vdisk.id} is invalid: {e}"
  (Validator.validateNoDuplicates vdisk.replicas).mapError fun dupItem =>
    s!"vdisk: {vdisk.id} contains duplicate replicas: ({dupItem.node}, {dupItem.disk})"

/-! ## Validation of the cluster -/

/-- Compare the sorted ids with their positions, counted from `index`. -/
def checkIds (index : ℕ) : List VDiskId → Except String Unit
  | [] => .ok ()
  | id :: rest =>
    -- the position is cast to the width of an id before it is compared
    if id < UInt32.ofNat index then
      .error s!"config contains duplicates vdisks ids: {id}"
    else if id > UInt32.ofNat index then
      .error s!"config contains gap in vdisks ids before vdisk id = {id}"
    else checkIds (index + 1) rest

/-- A replica must name a node of the cluster and a disk of that node. -/
def checkReplica (nodes : List ClusterNode) (vdisk : VDisk) (replica : Replica) :
    Except String Unit :=
  match nodes.find? (fun x => x.name = replica.node) with
  | some node =>
    ensure (!node.disks.all fun x => x.name.str ≠ replica.disk)
      (s!"cannot find in node: {replica.node.quote}, disk with name: {replica.disk.quote} " ++
        s!"for vdisk: {vdisk.id}")
  | none => .error s!"cannot find node: {replica.node.quote} for vdisk: {vdisk.id}"

namespace Cluster

/-- The ids of the vdisks in increasing order. -/
def sortedIds (cluster : Cluster) : List VDiskId :=
  (cluster.vdisks.map (·.id)).insertionSort (· ≤ ·)

def validate (parseUri : UriParser) (cluster : Cluster) : Except String Unit := do
  ensure (!cluster.nodes.isEmpty) "bob requires at least one node to start"
  ensure (!cluster.vdisks.isEmpty) "bob requires at least one virtual disk to start"
  (Validator.aggregate Rack.validate cluster.racks).mapError fun e =>
    s!"some racks in config are invalid: {e}"
  (Validator.aggregate (ClusterNode.validate parseUri) cluster.nodes).mapError fun e =>
    s!"some nodes in config are invalid: {e}"
  (Validator.aggregate VDisk.validate cluster.vdisks).mapError fun e =>
    s!"some vdisks in config are invalid: {e}"
  checkIds 0 cluster.sortedIds
  (Validator.validateNoDuplicates (cluster.nodes.map (·.name))).mapError fun dupItem =>
    s!"config contains duplicates nodes names: {dupItem}"
  (Validator.validateNoDuplicates (cluster.nodes.map (·.address))).mapError fun dupItem =>
    s!"config contains duplicates nodes addresses: {dupItem}"
  (Validator.validateNoDuplicates (cluster.racks.map (·.name))).mapError fun dupItem =>
    s!"config contains duplicates racks names: {dupItem}"
  (Validator.validateNoDuplicates (cluster.racks.flatMap (·.nodes))).mapError fun dupItem =>
    s!"config contains duplicate node names in racks: {dupItem}"
  forM (cluster.racks.flatMap (·.nodes)) fun name =>
    ensure (name ∈ cluster.nodes.map (·.name))
      s!"config contains unknown node names in racks: {name}"
  forM cluster.vdisks fun vdisk =>
    forM vdisk.replicas fun replica => checkReplica cluster.nodes vdisk replica

/-! ## What acceptance guarantees -/

/-- The structure an accepted cluster file has. -/
structure Valid (cluster : Cluster) : Prop where
  /-- There is at least one vdisk. -/
  vdisks_ne_nil : cluster.vdisks ≠ []
  /-- Vdisk ids are the numbers below the number of vdisks, each once. -/
  ids_perm : (cluster.vdisks.map (·.id.toNat)).Perm (List.range cluster.vdisks.length)
  /-- An id has 32 bits, so there are at most that many vdisks. -/
  length_le : cluster.vdisks.length ≤ 2 ^ 32
  /-- Node names are not repeated. -/
  nodup_names : (cluster.nodes.map (·.name)).Nodup
  /-- Disk names are not repeated on a node. -/
  nodup_disks : ∀ node ∈ cluster.nodes, (node.disks.map (·.name)).Nodup
  /-- Every vdisk has a replica. -/
  replicas_ne_nil : ∀ vdisk ∈ cluster.vdisks, vdisk.replicas ≠ []
  /-- No replica of a vdisk is listed twice. -/
  nodup_replicas : ∀ vdisk ∈ cluster.vdisks, vdisk.replicas.Nodup
  /-- Every replica names a node and a disk of that node. -/
  placed : ∀ vdisk ∈ cluster.vdisks, ∀ replica ∈ vdisk.replicas,
    ∃ node ∈ cluster.nodes, node.name = replica.node ∧
      ∃ disk ∈ node.disks, disk.name.str = replica.disk

private theorem checkIds_eq_ok_iff {index : ℕ} {ids : List VDiskId} :
    checkIds index ids = .ok () ↔ ids = (List.range' index ids.length).map UInt32.ofNat := by
  induction ids generalizing index with
  | nil => exact iff_of_true rfl rfl
  | cons id rest ih =>
    simp only [checkIds, List.length_cons, List.range'_succ, List.map_cons, List.cons.injEq]
    split_ifs with below above
    · have distinct : id ≠ UInt32.ofNat index := fun same => by simp [same] at below
      simp [distinct]
    · have distinct : id ≠ UInt32.ofNat index := fun same => by simp [same] at above
      simp [distinct]
    · -- neither smaller nor greater than its position
      have here : id = UInt32.ofNat index := by
        rw [UInt32.lt_iff_toNat_lt] at below
        rw [gt_iff_lt, UInt32.lt_iff_toNat_lt] at above
        exact UInt32.toNat_inj.mp (by omega)
      rw [ih, and_iff_right here]

/-- Sorted ids that count up cannot wrap around, so there are at most `2 ^ 32`. -/
private theorem length_le_of_sorted {ids : List VDiskId} (sorted : ids.Pairwise (· ≤ ·))
    (counted : ids = (List.range' 0 ids.length).map UInt32.ofNat) : ids.length ≤ 2 ^ 32 := by
  by_contra exceeds
  have position (i : ℕ) (hi : i < ids.length) : ids[i] = UInt32.ofNat i := by
    simp [List.getElem_of_eq counted hi]
  -- position `2 ^ 32` would hold id zero again, after the greatest id
  have ordered := List.pairwise_iff_getElem.mp sorted (2 ^ 32 - 1) (2 ^ 32)
    (by omega) (by omega) (by omega)
  rw [position, position, UInt32.le_iff_toNat_le, UInt32.toNat_ofNat',
    UInt32.toNat_ofNat'] at ordered
  omega

private theorem ids_of_checkIds {cluster : Cluster}
    (accepted : checkIds 0 cluster.sortedIds = .ok ()) :
    (cluster.vdisks.map (·.id.toNat)).Perm (List.range cluster.vdisks.length) ∧
      cluster.vdisks.length ≤ 2 ^ 32 := by
  have perm : cluster.sortedIds.Perm (cluster.vdisks.map (·.id)) :=
    List.perm_insertionSort _ _
  have len : cluster.sortedIds.length = cluster.vdisks.length := by simpa using perm.length_eq
  have counted := checkIds_eq_ok_iff.mp accepted
  have bound : cluster.sortedIds.length ≤ 2 ^ 32 :=
    length_le_of_sorted (List.pairwise_insertionSort _ _) counted
  rw [len] at counted bound
  refine ⟨?_, bound⟩
  have numbers : cluster.sortedIds.map (·.toNat) = List.range cluster.vdisks.length := by
    rw [counted, List.map_map, List.range_eq_range']
    refine (List.map_congr_left fun i hi => ?_).trans (List.map_id _)
    have := List.mem_range'_1.mp hi
    simp only [Function.comp_apply, UInt32.toNat_ofNat', id]
    omega
  rw [← numbers]
  simpa [List.map_map, Function.comp_def] using (perm.map (·.toNat)).symm

private theorem placed_of_checkReplica {nodes : List ClusterNode} {vdisk : VDisk}
    {replica : Replica} (accepted : checkReplica nodes vdisk replica = .ok ()) :
    ∃ node ∈ nodes, node.name = replica.node ∧
      ∃ disk ∈ node.disks, disk.name.str = replica.disk := by
  unfold checkReplica at accepted
  split at accepted
  · rename_i node found
    rw [ensure_eq_ok_iff] at accepted
    refine ⟨node, List.mem_of_find?_eq_some found, by simpa using List.find?_some found, ?_⟩
    simpa using accepted
  · cases accepted

/-- An accepted cluster file is valid. -/
theorem valid_of_validate {parseUri : UriParser} {cluster : Cluster}
    (accepted : cluster.validate parseUri = .ok ()) : cluster.Valid := by
  simp only [validate, seq_eq_ok_iff, ensure_eq_ok_iff, mapError_eq_ok_iff,
    Validator.aggregate_eq_ok_iff, Validator.validateNoDuplicates_eq_ok_iff,
    forM_eq_ok_iff] at accepted
  -- the checks in the order of `validate`; those of racks and addresses are not needed
  obtain ⟨-, vdisks, -, nodes, parts, ids, names, -, -, -, -, replicas⟩ := accepted
  obtain ⟨perm, bound⟩ := ids_of_checkIds ids
  have part (vdisk : VDisk) (hvdisk : vdisk ∈ cluster.vdisks) := parts vdisk hvdisk
  simp only [VDisk.validate, seq_eq_ok_iff, ensure_eq_ok_iff, mapError_eq_ok_iff,
    Validator.validateNoDuplicates_eq_ok_iff] at part
  exact
    { vdisks_ne_nil := by simpa using vdisks
      ids_perm := perm
      length_le := bound
      nodup_names := names
      nodup_disks := fun node hnode => by
        have accepted := nodes node hnode
        simp only [ClusterNode.validate, seq_eq_ok_iff, mapError_eq_ok_iff,
          Validator.validateNoDuplicates_eq_ok_iff] at accepted
        exact accepted.2.2.2
      replicas_ne_nil := fun vdisk hvdisk => by simpa using (part vdisk hvdisk).1
      nodup_replicas := fun vdisk hvdisk => (part vdisk hvdisk).2.2
      placed := fun vdisk hvdisk replica hreplica =>
        placed_of_checkReplica (replicas vdisk hvdisk replica hreplica) }

/-! ## Vdisks for given hardware -/

/-- What `validate` asks of the nodes and racks alone. -/
structure HardwareValid (parseUri : UriParser) (cluster : Cluster) : Prop where
  nodes_ne_nil : cluster.nodes ≠ []
  racks : ∀ rack ∈ cluster.racks, rack.validate = .ok ()
  nodes : ∀ node ∈ cluster.nodes, node.validate parseUri = .ok ()
  nodup_names : (cluster.nodes.map (·.name)).Nodup
  nodup_addresses : (cluster.nodes.map (·.address)).Nodup
  nodup_racks : (cluster.racks.map (·.name)).Nodup
  nodup_rack_nodes : (cluster.racks.flatMap (·.nodes)).Nodup
  known : ∀ name ∈ cluster.racks.flatMap (·.nodes), name ∈ cluster.nodes.map (·.name)

theorem HardwareValid.withVdisks {parseUri : UriParser} {cluster : Cluster}
    (hardware : cluster.HardwareValid parseUri) (vdisks : List VDisk) :
    ({ cluster with vdisks := vdisks } : Cluster).HardwareValid parseUri :=
  ⟨hardware.nodes_ne_nil, hardware.racks, hardware.nodes, hardware.nodup_names,
    hardware.nodup_addresses, hardware.nodup_racks, hardware.nodup_rack_nodes, hardware.known⟩

/-- A node of the cluster has the disk that a replica names. -/
def Lists (cluster : Cluster) (replica : Replica) : Prop :=
  ∃ node ∈ cluster.nodes, node.name = replica.node ∧
    ∃ disk ∈ node.disks, disk.name.str = replica.disk

theorem checkReplica_eq_ok_iff {cluster : Cluster}
    (distinct : (cluster.nodes.map (·.name)).Nodup) {vdisk : VDisk} {replica : Replica} :
    checkReplica cluster.nodes vdisk replica = .ok () ↔ cluster.Lists replica := by
  refine ⟨placed_of_checkReplica, fun ⟨node, hnode, named, disk, hdisk, called⟩ => ?_⟩
  rw [checkReplica, ← named, find?_key_eq_some distinct hnode]
  simp only [ensure_eq_ok_iff]
  simpa using ⟨disk, hdisk, called⟩

/-- Names of nodes and disks are not empty, so neither are the fields of a replica. -/
theorem HardwareValid.replica_validate {parseUri : UriParser} {cluster : Cluster}
    (hardware : cluster.HardwareValid parseUri) {replica : Replica}
    (listed : cluster.Lists replica) : replica.validate = .ok () := by
  obtain ⟨node, hnode, named, disk, hdisk, called⟩ := listed
  have accepted := hardware.nodes node hnode
  simp only [ClusterNode.validate, seq_eq_ok_iff, ensure_eq_ok_iff, mapError_eq_ok_iff,
    Validator.aggregate_eq_ok_iff] at accepted
  obtain ⟨name, -, disks, -⟩ := accepted
  have path := disks disk hdisk
  rw [validateDiskPath] at path
  split_ifs at path with missing
  rw [Replica.validate, ensure_eq_ok_iff, ← named, ← called]
  simp only [Bool.or_eq_true, not_or, Bool.not_eq_true, decide_eq_true_eq] at missing
  simp only [Bool.not_or, Bool.and_eq_true, Bool.not_eq_true'] at name
  simp [name.1, missing.1.1.1]

/-- With valid hardware that has all replicas, what is left of `validate`. -/
theorem HardwareValid.validate_eq_ok_iff {parseUri : UriParser} {cluster : Cluster}
    (hardware : cluster.HardwareValid parseUri)
    (placed : ∀ vdisk ∈ cluster.vdisks, ∀ replica ∈ vdisk.replicas, cluster.Lists replica) :
    cluster.validate parseUri = .ok () ↔
      cluster.vdisks ≠ [] ∧ checkIds 0 cluster.sortedIds = .ok () ∧
        ∀ vdisk ∈ cluster.vdisks, vdisk.replicas ≠ [] ∧ vdisk.replicas.Nodup := by
  have part (vdisk : VDisk) (hvdisk : vdisk ∈ cluster.vdisks) :
      vdisk.validate = .ok () ↔ vdisk.replicas ≠ [] ∧ vdisk.replicas.Nodup := by
    have fields : Validator.aggregate Replica.validate vdisk.replicas = .ok () :=
      Validator.aggregate_eq_ok_iff.mpr fun replica hreplica =>
        hardware.replica_validate (placed vdisk hvdisk replica hreplica)
    simp [VDisk.validate, seq_eq_ok_iff, ensure_eq_ok_iff, mapError_eq_ok_iff,
      Validator.validateNoDuplicates_eq_ok_iff, fields]
  simp only [validate, seq_eq_ok_iff, ensure_eq_ok_iff, mapError_eq_ok_iff,
    Validator.aggregate_eq_ok_iff, Validator.validateNoDuplicates_eq_ok_iff,
    forM_eq_ok_iff]
  constructor
  · rintro ⟨-, vdisks, -, -, parts, ids, -⟩
    exact ⟨by simpa using vdisks, ids,
      fun vdisk hvdisk => (part vdisk hvdisk).mp (parts vdisk hvdisk)⟩
  · rintro ⟨vdisks, ids, parts⟩
    refine ⟨by simpa using hardware.nodes_ne_nil, by simpa using vdisks, hardware.racks,
      hardware.nodes, fun vdisk hvdisk => (part vdisk hvdisk).mpr (parts vdisk hvdisk), ids,
      hardware.nodup_names, hardware.nodup_addresses, hardware.nodup_racks,
      hardware.nodup_rack_nodes, fun name hname => ?_, fun vdisk hvdisk replica hreplica => ?_⟩
    · simpa using hardware.known name hname
    · exact (checkReplica_eq_ok_iff hardware.nodup_names).mpr
        (placed vdisk hvdisk replica hreplica)

theorem checkIds_of_validate {parseUri : UriParser} {cluster : Cluster}
    (accepted : cluster.validate parseUri = .ok ()) : checkIds 0 cluster.sortedIds = .ok () := by
  simp only [validate, seq_eq_ok_iff] at accepted
  obtain ⟨-, -, -, -, -, ids, -⟩ := accepted
  exact ids

/-- Ids that are counted up from zero are accepted as long as they do not wrap around. -/
theorem checkIds_sortedIds_iff {cluster : Cluster}
    (counted : cluster.vdisks.map (·.id) =
      (List.range cluster.vdisks.length).map UInt32.ofNat) :
    checkIds 0 cluster.sortedIds = .ok () ↔ cluster.vdisks.length ≤ 2 ^ 32 := by
  refine ⟨fun accepted => (ids_of_checkIds accepted).2, fun bound => ?_⟩
  have sorted : (cluster.vdisks.map (·.id)).Pairwise (· ≤ ·) := by
    rw [counted, List.pairwise_map]
    refine List.Pairwise.imp_of_mem (fun {a b} ha hb ordered => ?_) List.pairwise_lt_range
    have below := List.mem_range.mp hb
    rw [UInt32.le_iff_toNat_le, UInt32.toNat_ofNat', UInt32.toNat_ofNat']
    omega
  rw [sortedIds, List.Pairwise.insertionSort_eq sorted, counted, checkIds_eq_ok_iff,
    List.length_map, List.length_range, List.range_eq_range']

/-! ## Replicas as node disks -/

/-- The disk a replica names, found in the list of nodes. -/
def findReplica (cluster : Cluster) (vdisk : VDisk) (replica : Replica) :
    Except String NodeDisk :=
  match cluster.nodes.find? (fun node => node.name = replica.node) with
  | none => .error "unknown node name in replica"
  | some node =>
    match node.disks.find? (fun disk => disk.name = ⟨replica.disk⟩) with
    | none =>
      .error (s!"can't find disk with name [{replica.disk}], " ++
        s!"check replica section of vdisk [{vdisk.id}]")
    | some disk => .ok ⟨⟨node.name⟩, ⟨replica.disk⟩, disk.path⟩

/-- The replicas of every vdisk, as the mapper needs them. -/
def collectVdiskReplicas (cluster : Cluster) : Except String (Dict VDiskId (List NodeDisk)) :=
  cluster.vdisks.foldlM (fun vdisks vdisk => do
    let physicalDisks ← vdisk.replicas.mapM (cluster.findReplica vdisk)
    pure (vdisks.insert vdisk.id physicalDisks)) ∅

/-- `disk` is the disk that `replica` names, with the path the cluster file gives it. -/
structure Locates (cluster : Cluster) (replica : Replica) (disk : NodeDisk) : Prop where
  nodeName : disk.nodeName = ⟨replica.node⟩
  diskName : disk.diskName = ⟨replica.disk⟩
  listed : ∃ node ∈ cluster.nodes, node.name = replica.node ∧ DiskPath.ofNodeDisk disk ∈ node.disks

/-- `path` is the path that the cluster file gives the disk of `replica`. -/
def HasPath (cluster : Cluster) (replica : Replica) (path : DiskPath) : Prop :=
  path.name = ⟨replica.disk⟩ ∧
    ∃ node ∈ cluster.nodes, node.name = replica.node ∧ path ∈ node.disks

private theorem locates_of_findReplica {cluster : Cluster} {vdisk : VDisk} {replica : Replica}
    {disk : NodeDisk} (found : cluster.findReplica vdisk replica = .ok disk) :
    cluster.Locates replica disk := by
  unfold findReplica at found
  split at found
  · cases found
  rename_i node hnode
  have named : node.name = replica.node := by simpa using List.find?_some hnode
  split at found
  · cases found
  rename_i path hpath
  have called : path.name = ⟨replica.disk⟩ := by simpa using List.find?_some hpath
  cases found
  refine ⟨by rw [named], rfl, node, List.mem_of_find?_eq_some hnode, named, ?_⟩
  rw [DiskPath.ofNodeDisk, ← called]
  exact List.mem_of_find?_eq_some hpath

private theorem exists_findReplica {cluster : Cluster} (valid : cluster.Valid) {vdisk : VDisk}
    (hvdisk : vdisk ∈ cluster.vdisks) {replica : Replica} (hreplica : replica ∈ vdisk.replicas) :
    ∃ disk, cluster.findReplica vdisk replica = .ok disk := by
  obtain ⟨node, hnode, named, path, hpath, called⟩ := valid.placed vdisk hvdisk replica hreplica
  -- names are not repeated, so the first node of that name is the one with the disk
  have first : cluster.nodes.find? (fun x => x.name = replica.node) = some node := by
    rw [← named]
    exact find?_key_eq_some valid.nodup_names hnode
  obtain ⟨disk, hdisk⟩ := Option.isSome_iff_exists.mp
    (List.find?_isSome.mpr ⟨path, hpath, by simp [← called]⟩ :
      (node.disks.find? (fun disk => disk.name = ⟨replica.disk⟩)).isSome)
  refine ⟨⟨⟨node.name⟩, ⟨replica.disk⟩, disk.path⟩, ?_⟩
  rw [findReplica, first]
  simp only [hdisk]

/-- Ids are not repeated. -/
theorem Valid.nodup_ids {cluster : Cluster} (valid : cluster.Valid) :
    (cluster.vdisks.map (·.id)).Nodup := by
  have numbers := (valid.ids_perm.nodup_iff).mpr List.nodup_range
  rw [show cluster.vdisks.map (·.id.toNat) = (cluster.vdisks.map (·.id)).map (·.toNat) by simp]
    at numbers
  exact numbers.of_map _

/-- The ids are the numbers below the number of vdisks. -/
theorem Valid.mem_ids_iff {cluster : Cluster} (valid : cluster.Valid) {id : VDiskId} :
    id ∈ cluster.vdisks.map (·.id) ↔ id.toNat < cluster.vdisks.length := by
  rw [← List.mem_range, ← valid.ids_perm.mem_iff]
  simp only [List.mem_map]
  exact exists_congr fun vdisk => and_congr_right fun _ => UInt32.toNat_inj.symm

/-- In a valid cluster the replicas of every vdisk can be collected. They are the
disks its replicas name, in the order of the file, and no other id gets an entry. -/
theorem Valid.exists_collectVdiskReplicas {cluster : Cluster} (valid : cluster.Valid) :
    ∃ replicas, cluster.collectVdiskReplicas = .ok replicas ∧
      (∀ vdisk ∈ cluster.vdisks, ∃ disks, replicas.lookup vdisk.id = some disks ∧
        List.Forall₂ cluster.Locates vdisk.replicas disks) ∧
      ∀ id, id ∈ replicas.keys ↔ id ∈ cluster.vdisks.map (·.id) := by
  have succeeds (vdisk : VDisk) (hvdisk : vdisk ∈ cluster.vdisks) :=
    exists_mapM_eq_ok fun replica hreplica => exists_findReplica valid hvdisk hreplica
  obtain ⟨replicas, built, entered, untouched⟩ :=
    Dict.exists_foldlM_insert valid.nodup_ids succeeds ∅
  have holds (vdisk : VDisk) (hvdisk : vdisk ∈ cluster.vdisks) : ∃ disks,
      replicas.lookup vdisk.id = some disks ∧
        List.Forall₂ cluster.Locates vdisk.replicas disks := by
    obtain ⟨disks, hdisks⟩ := succeeds vdisk hvdisk
    exact ⟨disks, entered vdisk hvdisk disks hdisks,
      (mapM_eq_ok_iff.mp hdisks).imp fun _ _ => locates_of_findReplica⟩
  refine ⟨replicas, built, holds, fun id => ⟨fun hid => ?_, fun hid => ?_⟩⟩
  · by_contra absent
    obtain ⟨disks, hdisks⟩ := Dict.mem_keys_iff.mp hid
    rw [untouched id absent, AList.lookup_empty] at hdisks
    cases hdisks
  · obtain ⟨vdisk, hvdisk, rfl⟩ := List.mem_map.mp hid
    obtain ⟨disks, hdisks, _⟩ := holds vdisk hvdisk
    exact Dict.mem_keys_iff.mpr ⟨disks, hdisks⟩

end Cluster

end Bob.Configs

/-
# A delete hides every older copy in the cluster

The nodes of a cluster run with mappers made of one cluster file, and each has its stores.
A delete that is newer than all copies of its key runs over them: it erases the key from
the disks of the target nodes and from the alien groups of target nodes, on every node of
the cluster. A read and an existence check, from whatever node, look nowhere else. So
afterwards they do not find the key.
-/

import Bob.Backend.Erasing
import Bob.Cluster.Get
import Bob.Cluster.DeleteCoverage

namespace Bob.Cluster

open Bob.Math Bob.Configs Bob.Backend

variable {keySize : ℕ} {engine : StorageEngine keySize}

/-- The stores of the nodes. -/
abbrev Network (engine : StorageEngine keySize) := NodeName → Pearl engine

/-- What the nodes run with. -/
structure Deployment where
  mapper : NodeName → Virtual
  quorum : NodeName → ℕ
  makeDir : NodeName → MakeDir

/-- What a node answers. One that panics does not answer. -/
def answerOf {α : Type} (result : Except Panic (Except (Error keySize) α × Pearl engine)) :
    Except (Error keySize) α :=
  match result with
  | .ok (answer, _) => answer
  | .error _ => .error .internal

/-- What a node answers to an existence check of one key. One that fails reports nothing. -/
def reportOf (result : Except Panic (Except (Error keySize) (List Bool) × Pearl engine)) : Bool :=
  match result with
  | .ok (.ok [found], _) => found
  | _ => false

namespace Deployment

variable (d : Deployment)

def policy (name : NodeName) : Quorum := ⟨d.mapper name, d.quorum name⟩

@[simp] theorem policy_mapper (name : NodeName) : (d.policy name).mapper = d.mapper name := rfl

/-- Every node of the cluster runs with the mapper of the cluster file. -/
def BuiltFrom (cluster : Configs.Cluster) : Prop :=
  ∀ node ∈ cluster.nodes, ∃ config : NodeConfig, config.name = node.name ∧
    Virtual.new config cluster = .ok (d.mapper ⟨node.name⟩)

/-- The calls of a delete that a node coordinates. A request that is forced to a node goes
to the backend of that node. -/
def deleteCalls (coordinator : NodeName) :
    DeleteCalls (StateT (Network engine) (Except Panic)) keySize where
  call := fun node key bobMeta options => focus node.name
    (Backend.delete (Pearl.storage (d.makeDir node.name)) (d.mapper node.name) key bobMeta options)
  deleteLocal := fun key bobMeta op forceDelete => focus coordinator
    (Backend.deleteLocal (Pearl.storage (d.makeDir coordinator)) key bobMeta op forceDelete)

/-- What a read from a node meets. -/
def getWorld (net : Network engine) (reader : NodeName)
    (targetOrder alienOrder : AnyOrder (GetTask keySize)) : GetWorld keySize where
  getLocal := fun op key => answerOf
    (Backend.getLocal (Pearl.storage (d.makeDir reader)) key op (net reader))
  call := fun node options key => answerOf
    (Backend.get (Pearl.storage (d.makeDir node.name)) (d.mapper node.name) key options
      (net node.name))
  targetOrder := targetOrder
  alienOrder := alienOrder

/-- What a node says about a key. -/
def storeAnswer (net : Network engine)
    (order : AnyOrder (Sigma fun _ : Operation => List (BobKey keySize) × List ℕ))
    (options : BobGetOptions) (name : NodeName) : StoreAnswer keySize :=
  .ok fun key => reportOf
    (Backend.exist (Pearl.storage (d.makeDir name)) (d.mapper name) order [key] options (net name))

/-- What an existence check from a node meets. -/
def existWorld (net : Network engine) (reader : NodeName)
    (order : AnyOrder (Sigma fun _ : Operation => List (BobKey keySize) × List ℕ))
    (primaryOrder secondaryOrder alienOrder : AnyOrder (ExistTask keySize)) :
    ExistWorld keySize where
  localNormal := d.storeAnswer net order .newLocal reader
  localAlien := d.storeAnswer net order .newAlien reader
  normal := d.storeAnswer net order .newLocal
  alien := d.storeAnswer net order .newAlien
  primaryOrder := primaryOrder
  secondaryOrder := secondaryOrder
  alienOrder := alienOrder

end Deployment

/-! ## What a node without the key answers -/

section Silent

variable {p : Pearl engine} {mapper : Virtual} (makeDir : MakeDir) {key : BobKey keySize}
  {vdiskId : VDiskId} {paths : Option (List DiskPath)}

/-- No store of the node has the key. -/
structure Silent (p : Pearl engine) (vdiskId : VDiskId) (paths : List DiskPath)
    (key : BobKey keySize) : Prop where
  onDisk : ∀ path ∈ paths, p.reads (.newLocal vdiskId path) key = none
  alien : p.alienValues (.newAlien vdiskId) key = []

variable (silent : Silent p vdiskId (paths.getD []) key)
include silent

private theorem not_hasData_getLocal {path : DiskPath} (listed : path ∈ paths.getD []) :
    ¬ HasData (answerOf
      (Backend.getLocal (Pearl.storage makeDir) key (.newLocal vdiskId path) p)) := by
  rw [hasData_iff_toOption, not_not]
  exact silent.onDisk path listed

private theorem not_onDisk : ¬ p.OnDisk vdiskId paths key := by
  rintro ⟨path, listed, found⟩
  rw [silent.onDisk path listed] at found
  cases found

variable (lawful : engine.Lawful)
include lawful

private theorem not_hasData_getLocal_alien :
    ¬ HasData (answerOf (Backend.getLocal (Pearl.storage makeDir) key (.newAlien vdiskId) p)) := by
  obtain ⟨res, hres, found⟩ := @Pearl.getSingle_alien _ _ p makeDir key lawful vdiskId
  rw [silent.alien] at found
  rw [hasData_iff_toOption, not_not, Backend.getLocal, hres]
  change res.toOption = none
  simpa using found

private theorem not_hasData_get (route : mapper.getOperation key = .ok (vdiskId, paths))
    (options : BobGetOptions) :
    ¬ HasData (answerOf (Backend.get (Pearl.storage makeDir) mapper key options p)) := by
  obtain ⟨res, hres, found⟩ := @Pearl.get_spec _ _ p makeDir mapper options key lawful _ _ route
  rw [silent.alien] at found
  rw [hasData_iff_toOption, not_not, hres]
  change res.toOption = none
  simpa [not_onDisk silent] using found

private theorem reportOf_exist (wf : mapper.WellFormed)
    (route : mapper.getOperation key = .ok (vdiskId, paths))
    (order : AnyOrder (Sigma fun _ : Operation => List (BobKey keySize) × List ℕ))
    (options : BobGetOptions) :
    reportOf (Backend.exist (Pearl.storage makeDir) mapper order [key] options p) = false := by
  obtain ⟨operations, hoperations⟩ := @Pearl.exists_operations keySize mapper wf options
  obtain ⟨found, hfound, length, flagged⟩ :=
    @Pearl.exist_spec _ _ p makeDir mapper options [key] lawful order operations hoperations
  obtain ⟨flag, rfl⟩ := List.length_eq_one_iff.mp length
  have spec := flagged 0 key rfl
  rw [Pearl.reports_iff route (hoperations key)] at spec
  rw [hfound]
  cases flag with
  | false => rfl
  | true => simp [not_onDisk silent, silent.alien] at spec

end Silent

/-! ## The nodes of one cluster -/

section Cluster

variable {cluster : Configs.Cluster} {d : Deployment} {key : BobKey keySize}

/-- The names of the nodes of the cluster. -/
def nodeNames (cluster : Configs.Cluster) : List NodeName :=
  cluster.nodes.map fun node => ⟨node.name⟩

/-- All nodes route a key alike: to one vdisk, and to the disks that they have for it. -/
structure Routes (d : Deployment) (cluster : Configs.Cluster) (key : BobKey keySize)
    (id : VDiskId) (vdisk : DataVDisk) (node : NodeName) : Prop where
  wellFormed : (d.mapper node).WellFormed
  localNodeName : (d.mapper node).localNodeName = node
  names : (d.mapper node).nodes.map (·.name) = nodeNames cluster
  vdiskId : (d.mapper node).vdiskIdFromKey key = .ok id
  stored : (d.mapper node).vdisks.lookup id = some vdisk

theorem Routes.operation {id : VDiskId} {vdisk : DataVDisk} {node : NodeName}
    (routes : Routes d cluster key id vdisk node) :
    ∃ paths, (d.mapper node).getOperation key = .ok (vdisk.id, paths) ∧
      paths.getD [] = (d.mapper node).localPaths vdisk :=
  ⟨_, Virtual.getOperation_eq routes.vdiskId routes.stored, Virtual.getD_localPaths⟩

theorem Deployment.BuiltFrom.exists_routes (built : d.BuiltFrom cluster) (valid : cluster.Valid)
    (key : BobKey keySize) :
    ∃ id vdisk, ∀ name ∈ nodeNames cluster, Routes d cluster key id vdisk name := by
  cases listed : cluster.nodes with
  | nil => exact ⟨0, ⟨0, [], []⟩, by simp [nodeNames, listed]⟩
  | cons first rest =>
    obtain ⟨config, -, new⟩ := built first (listed ▸ List.mem_cons_self)
    have builtFirst := Virtual.builtFrom_of_new new
    obtain ⟨id, vdisk, hid, stored, -⟩ := (builtFirst.wellFormed valid).exists_vdisk key
    refine ⟨id, vdisk, fun name member => ?_⟩
    obtain ⟨node, hnode, rfl⟩ := List.mem_map.mp member
    obtain ⟨config', named, new'⟩ := built node hnode
    have builtNode := Virtual.builtFrom_of_new new'
    exact
      { wellFormed := builtNode.wellFormed valid
        localNodeName := by rw [builtNode.local_eq, named]
        names := builtNode.names_eq
        vdiskId := by rw [builtFirst.vdiskIdFromKey_eq_of_builtFrom builtNode, hid]
        stored := by rw [builtFirst.vdisks_eq_of_builtFrom builtNode, stored] }

/-! ## The delete -/

/-- Where the copies of a key are, before a delete with this timestamp: on any disks and in
any partitions that do not start after them, and in the alien store only in groups of
target nodes. All copies are older than the delete. -/
structure Placed (lawful : engine.Lawful) (cluster : Configs.Cluster) (key : BobKey keySize)
    (timestamp : ℕ) (targets : List Node) (net : Network engine) : Prop where
  outdated : ∀ name ∈ nodeNames cluster, (net name).Outdated lawful key timestamp
  tagged : ∀ name ∈ nodeNames cluster, ∀ g ∈ (net name).alienDiskController.groups,
    ∀ holder ∈ g.holders, ∀ data, holder.Has lawful key (.value data) →
      g.nodeName ∈ targets.map (·.name)

variable {lawful : engine.Lawful} {bobMeta : BobMeta} {coordinator : NodeName} {id : VDiskId}
  {vdisk : DataVDisk} {net net' : Network engine}

theorem Routes.name_mem {reader : NodeName} (routes : Routes d cluster key id vdisk reader)
    {node : Node} (member : node ∈ (d.mapper reader).nodes) : node.name ∈ nodeNames cluster :=
  routes.names ▸ List.mem_map_of_mem member

/-- What the calls of a delete erase. -/
private theorem covers_deleteCalls (steady : lawful.Steady)
    (routes : ∀ name ∈ nodeNames cluster, Routes d cluster key id vdisk name)
    (listed : coordinator ∈ nodeNames cluster) :
    Quorum.Covers
      (fun net : Network engine => ∀ name, name ∈ nodeNames cluster →
        (net name).Outdated lawful key bobMeta.timestamp.toNat)
      (Everywhere (Pearl.Evolves lawful key bobMeta.timestamp.toNat))
      (d.deleteCalls coordinator) key bobMeta (d.mapper coordinator).nodes vdisk.id
      (fun path net => (net coordinator).ErasedAt lawful key bobMeta.timestamp.toNat
        (.newLocal vdisk.id path))
      (fun node net => ∀ path ∈ (d.mapper node.name).localPaths vdisk,
        (net node.name).ErasedAt lawful key bobMeta.timestamp.toNat (.newLocal vdisk.id path))
      (fun target net => (net coordinator).ErasedFor lawful key bobMeta.timestamp.toNat vdisk.id
        (· = target.name))
      (fun node net => ∀ target ∈ vdisk.nodes,
        (net node.name).ErasedFor lawful key bobMeta.timestamp.toNat vdisk.id
          (· = target.name)) where
  path := fun path => (Pearl.leads_delete steady _).focus listed
  target := by
    intro node member
    have named := (routes _ listed).name_mem member
    obtain ⟨paths, operation, same⟩ := (routes _ named).operation
    rw [← same]
    exact (Pearl.leads_delete_local steady operation).focus named
  alien := fun node forceDelete => (Pearl.leads_deleteAlien steady _ _ _).focus listed
  aliens := by
    intro node member forced
    have named := (routes _ listed).name_mem member
    obtain ⟨paths, operation, -⟩ := (routes _ named).operation
    exact (Pearl.leads_delete_alien steady operation (Virtual.getTargetNodesForKey_eq
      (routes _ named).vdiskId (routes _ named).stored) forced).focus named
  stable_path := fun path => Pearl.stable_erasedAt.at_part coordinator
  stable_target := fun node => Stable.forall_mem fun path _ => Pearl.stable_erasedAt.at_part _
  stable_alien := fun node => Pearl.stable_erasedFor.at_part coordinator
  stable_aliens := fun node => Stable.forall_mem fun target _ => Pearl.stable_erasedFor.at_part _

/-- An alien group without copies has nothing to hide. -/
private theorem erasedFor_of_tagged {p : Pearl engine} {timestamp : ℕ} {vdiskId : VDiskId}
    {names : List NodeName}
    (tagged : ∀ g ∈ p.alienDiskController.groups, ∀ holder ∈ g.holders, ∀ data,
      holder.Has lawful key (.value data) → g.nodeName ∈ names) :
    p.ErasedFor lawful key timestamp vdiskId (· ∉ names) := by
  intro _ _ g member _ untagged
  refine Or.inr fun holder here data looked => untagged ?_
  exact tagged g member holder here data (Group.newestIn_eq_some looked).1

/-- After a delete, no node of the cluster has the key in a store that answers with its
newest records. -/
private theorem silent_of_delete (steady : lawful.Steady) {chances : DeleteChances keySize}
    {res : Except (Error keySize) Unit}
    (routes : ∀ name ∈ nodeNames cluster, Routes d cluster key id vdisk name)
    (listed : coordinator ∈ nodeNames cluster)
    (placed : Placed lawful cluster key bobMeta.timestamp.toNat vdisk.nodes net)
    (deleted : Quorum.deleteOnNodes (d.policy coordinator) chances (d.deleteCalls coordinator) key
      bobMeta net = .ok (res, net'))
    {name : NodeName} (member : name ∈ nodeNames cluster)
    (newest : (net' name).AnswersNewest lawful key) :
    Silent (net' name) vdisk.id ((d.mapper name).localPaths vdisk) key := by
  have here := routes coordinator listed
  have there := routes name member
  have covered := @Quorum.leads_deleteOnNodes _ (d.policy coordinator) key bobMeta _ _ _ _ _
    chances _ _ _ _ _ _ (covers_deleteCalls steady routes listed) here.wellFormed here.vdiskId
    here.stored
  obtain ⟨outdated, evolves, ⟨paths, targets⟩, aliens, alien⟩ :=
    covered net res net' placed.outdated deleted
  have remote {node : Node} : node.name ≠ (d.policy coordinator).mapper.localNodeName ↔
      node.name ≠ coordinator := by
    rw [Deployment.policy_mapper, here.localNodeName]
  obtain ⟨node, hnode, rfl⟩ := List.mem_map.mp (here.names ▸ member)
  -- The disks: a node that has disks for the key is a target, and it is this node or another.
  have disks : ∀ path ∈ (d.mapper node.name).localPaths vdisk,
      (net' node.name).ErasedAt lawful key bobMeta.timestamp.toNat (.newLocal vdisk.id path) := by
    intro path hpath
    by_cases same : node.name = coordinator
    · rw [same] at hpath ⊢
      exact paths path hpath
    · have target := (there.wellFormed.placed id vdisk there.stored).local_mem_iff.mpr
        (List.ne_nil_of_mem hpath)
      rw [there.localNodeName] at target
      obtain ⟨other, hother, named⟩ := List.mem_map.mp target
      rw [← named] at hpath same ⊢
      exact targets other hother (remote.mpr same) path hpath
  -- The alien groups: those of target nodes have been cleaned, the others had no copies.
  have tagged : ∀ target ∈ vdisk.nodes, (net' node.name).ErasedFor lawful key
      bobMeta.timestamp.toNat vdisk.id (· = target.name) := by
    intro target htarget
    by_cases same : node.name = coordinator
    · rw [same]
      exact alien target htarget
    · exact aliens node hnode (remote.mpr same) target htarget
  have untagged := Pearl.stable_erasedFor _ _ (evolves node.name)
    (@erasedFor_of_tagged _ _ key lawful _ bobMeta.timestamp.toNat vdisk.id _
      (placed.tagged node.name member))
  refine ⟨fun path hpath => ?_, ?_⟩
  · exact Pearl.reads_eq_none (outdated _ member) newest (disks path hpath)
  · refine Pearl.alienValues_eq_nil (outdated _ member) newest ?_
    intro accepts ready g hg sameVdisk _
    by_cases named : g.nodeName ∈ vdisk.nodes.map (·.name)
    · obtain ⟨target, htarget, same⟩ := List.mem_map.mp named
      exact tagged target htarget accepts ready g hg sameVdisk same.symm
    · exact untagged accepts ready g hg sameVdisk named

/-- No node of the cluster has the key. -/
private def AllSilent (d : Deployment) (cluster : Configs.Cluster) (key : BobKey keySize)
    (vdiskId : VDiskId) (net : Network engine) : Prop :=
  ∀ name ∈ nodeNames cluster, ∃ paths, (d.mapper name).getOperation key = .ok (vdiskId, paths) ∧
    Silent (net name) vdiskId (paths.getD []) key

variable {reader : NodeName}

/-- A read visits only stores of the nodes of the cluster. -/
private theorem get_of_allSilent (lawful : engine.Lawful)
    (silent : AllSilent d cluster key vdisk.id net)
    (routes : Routes d cluster key id vdisk reader) (asked : reader ∈ nodeNames cluster)
    (targetOrder alienOrder : AnyOrder (GetTask keySize)) :
    (d.policy reader).get (d.getWorld net reader targetOrder alienOrder) key =
      .ok (.error (.keyNotFound key)) := by
  obtain ⟨paths, operation, quiet⟩ := silent reader asked
  have targets := Virtual.getTargetNodesForKey_eq routes.vdiskId routes.stored
  have inside := (routes.wellFormed.placed id vdisk routes.stored).nodes_sublist.subset
  have remote (options : BobGetOptions) (node : Node) (member : node ∈ (d.mapper reader).nodes) :
      ¬ HasData ((d.getWorld net reader targetOrder alienOrder).call node options key) := by
    obtain ⟨paths', operation', quiet'⟩ := silent node.name (routes.name_mem member)
    exact not_hasData_get (d.makeDir node.name) quiet' lawful operation' options
  obtain ⟨answer, got, data, missed⟩ := @Quorum.exists_get _ (d.mapper reader)
    (d.getWorld net reader targetOrder alienOrder) key _ _ _ (d.quorum reader) operation targets
  rw [Deployment.policy, got, missed]
  rw [← Bool.not_eq_true, data]
  rintro (⟨path, hpath, found⟩ | ⟨node, hnode, -, found⟩ | found | ⟨node, hnode, -, found⟩)
  · exact not_hasData_getLocal (d.makeDir reader) quiet hpath found
  · exact remote .newLocal node (inside hnode) found
  · exact not_hasData_getLocal_alien (d.makeDir reader) quiet lawful found
  · exact remote .newAlien node hnode found

/-- So does an existence check. -/
private theorem exist_of_allSilent (lawful : engine.Lawful)
    (routes : ∀ name ∈ nodeNames cluster, Routes d cluster key id vdisk name)
    (silent : AllSilent d cluster key vdisk.id net) (asked : reader ∈ nodeNames cluster)
    (order : AnyOrder (Sigma fun _ : Operation => List (BobKey keySize) × List ℕ))
    (primaryOrder secondaryOrder alienOrder : AnyOrder (ExistTask keySize)) :
    (d.policy reader).exist
        (d.existWorld net reader order primaryOrder secondaryOrder alienOrder) [key] =
      .ok [false] := by
  have here := routes reader asked
  have inside := (here.wellFormed.placed id vdisk here.stored).nodes_sublist.subset
  have quiet (options : BobGetOptions) (name : NodeName) (member : name ∈ nodeNames cluster) :
      ¬ (d.storeAnswer net order options name).reports key = true := by
    obtain ⟨paths, operation, quiet⟩ := silent name member
    rw [Bool.not_eq_true]
    exact reportOf_exist (d.makeDir name) quiet lawful (routes name member).wellFormed operation
      order options
  obtain ⟨result, checked, each⟩ := Quorum.exists_exist here.wellFormed (d.quorum reader)
    (d.existWorld net reader order primaryOrder secondaryOrder alienOrder) [key]
  obtain ⟨found, _, reports, none, rfl⟩ := List.forall₂_cons_left_iff.mp each
  obtain rfl := List.forall₂_nil_left_iff.mp none
  have false_eq : found = false := by
    rw [← Bool.not_eq_true, reports]
    rintro (⟨-, found⟩ | ⟨name, -, target, found⟩ | found | ⟨node, hnode, -, found⟩)
    · exact quiet .newLocal reader asked found
    · rw [isTarget_iff (Virtual.getTargetNodesForKey_eq here.vdiskId here.stored)] at target
      obtain ⟨node, hnode, rfl⟩ := List.mem_map.mp target
      exact quiet .newLocal node.name (here.name_mem (inside hnode)) found
    · exact quiet .newAlien reader asked found
    · exact quiet .newAlien node.name (here.name_mem hnode) found
  rw [Deployment.policy, checked, false_eq]

/-- A delete hides every older copy of its key: for every validated cluster whose nodes run
with its mappers, wherever the copies are, if all calls are served and every group then
answers with its newest record, a read of the key from any node does not find it, and an
existence check answers false. -/
theorem delete_hides_older_copies {ext : Externals} (lawful : engine.Lawful)
    (steady : lawful.Steady) (validated : cluster.validate ext.parseUri = .ok ())
    (built : d.BuiltFrom cluster) (listed : coordinator ∈ nodeNames cluster) {targets : List Node}
    (routed : (d.mapper coordinator).getTargetNodesForKey key = .ok targets)
    (placed : Placed lawful cluster key bobMeta.timestamp.toNat targets net)
    {chances : DeleteChances keySize} {res : Except (Error keySize) Unit}
    (deleted : Quorum.deleteOnNodes (d.policy coordinator) chances (d.deleteCalls coordinator) key
      bobMeta net = .ok (res, net'))
    (newest : ∀ name ∈ nodeNames cluster, (net' name).AnswersNewest lawful key)
    (asked : reader ∈ nodeNames cluster)
    (getOrders : AnyOrder (GetTask keySize) × AnyOrder (GetTask keySize))
    (order : AnyOrder (Sigma fun _ : Operation => List (BobKey keySize) × List ℕ))
    (existOrders : AnyOrder (ExistTask keySize) × AnyOrder (ExistTask keySize) ×
      AnyOrder (ExistTask keySize)) :
    (d.policy reader).get (d.getWorld net' reader getOrders.1 getOrders.2) key =
        .ok (.error (.keyNotFound key)) ∧
      (d.policy reader).exist
        (d.existWorld net' reader order existOrders.1 existOrders.2.1 existOrders.2.2) [key] =
        .ok [false] := by
  have valid := Cluster.valid_of_validate validated
  obtain ⟨id, vdisk, routes⟩ := built.exists_routes valid key
  have here := routes coordinator listed
  cases routed.symm.trans (Virtual.getTargetNodesForKey_eq here.vdiskId here.stored)
  have silent (name : NodeName) (member : name ∈ nodeNames cluster) :=
    silent_of_delete steady routes listed placed deleted member (newest name member)
  have all : AllSilent d cluster key vdisk.id net' := by
    intro name member
    obtain ⟨paths, operation, same⟩ := (routes name member).operation
    exact ⟨paths, operation, same ▸ silent name member⟩
  exact ⟨get_of_allSilent lawful all (routes reader asked) asked _ _,
    exist_of_allSilent lawful routes all asked _ _ _ _⟩

end Cluster

/-! ## The small cluster -/

/-- The nodes of the small cluster, each with its mapper. -/
def smallDeployment : Deployment where
  mapper := fun name =>
    { Virtual.smallMapper with
      localNodeName := name
      localNodeAddress := name.str ++ ":20000"
      disks := if name = ⟨"alpha"⟩ then Virtual.smallMapper.disks else [⟨⟨"disk1"⟩, "/mnt/1"⟩] }
  quorum := fun _ => 2
  makeDir := fun _ _ _ => .ok ()

theorem builtFrom_smallDeployment : smallDeployment.BuiltFrom Virtual.smallCluster := by
  intro node member
  refine ⟨{ Virtual.preparedSmallNode with
    name := node.name, bind := node.address, disks := node.disks }, rfl, ?_⟩
  rcases List.mem_cons.mp member with rfl | member
  · rfl
  rcases List.mem_cons.mp member with rfl | member
  · rfl
  obtain rfl := List.mem_singleton.mp member
  rfl

/-- A key of the vdisk with replicas on two nodes. -/
def pairKey : BobKey 8 := ⟨Vector.replicate 8 0⟩

/-- A group with one copy of the key. -/
def groupWithCopy (name : NodeName) : Group (logEngine 8) where
  holders := [⟨0, 86400, some [(pairKey, .value ⟨[1], ⟨7⟩⟩)]⟩]
  reinitLock := false
  settings := Pearl.smallSettings
  vdiskId := 0
  nodeName := name
  diskName := ⟨"disk1"⟩
  safeTimestampStep := none

/-- A ready controller with one copy of the key. -/
def controllerWithCopy (name tag : NodeName) (isAlien : Bool) : DiskController (logEngine 8) where
  disk := ⟨⟨"disk1"⟩, "/mnt/1"⟩
  vdisks := [0]
  nodeName := name
  groups := [groupWithCopy tag]
  state := .ready
  settings := Pearl.smallSettings
  isAlien := isAlien

/-- The target nodes have copies on their disks, and every node has an alien copy for one
of them. -/
def smallNetwork : Network (logEngine 8) := fun name =>
  { diskControllers := if name = ⟨"gamma"⟩ then [] else [controllerWithCopy name name false]
    alienDiskController := controllerWithCopy name ⟨"beta"⟩ true }

private theorem exists_tag_of_mem_smallNetwork {name : NodeName} {g : Group (logEngine 8)}
    (member : g ∈ (smallNetwork name).groups) : ∃ tag, g = groupWithCopy tag := by
  rcases List.mem_append.mp member with onDisk | alien
  · obtain ⟨dc, served, here⟩ := List.mem_flatMap.mp onDisk
    have stored : dc = controllerWithCopy name name false := by
      dsimp only [smallNetwork] at served
      split_ifs at served
      · cases served
      · exact List.mem_singleton.mp served
    rw [stored] at here
    exact ⟨name, List.mem_singleton.mp here⟩
  · exact ⟨_, List.mem_singleton.mp alien⟩

private theorem holders_groupWithCopy {tag : NodeName} {holder : Holder (logEngine 8)}
    (member : holder ∈ (groupWithCopy tag).holders) :
    holder = ⟨0, 86400, some [(pairKey, .value ⟨[1], ⟨7⟩⟩)]⟩ :=
  List.mem_singleton.mp member

private theorem value_of_groupWithCopy {tag : NodeName} {holder : Holder (logEngine 8)}
    (member : holder ∈ (groupWithCopy tag).holders) {data : BobData}
    (has : holder.Has (logEngine.lawful 8) pairKey (.value data)) : data = ⟨[1], ⟨7⟩⟩ := by
  obtain rfl := holders_groupWithCopy member
  obtain ⟨storage, same, holds⟩ := has
  cases same
  simpa [Log.mem_recordsOf] using Log.mem_recordsOf.mp holds

private theorem placed_smallNetwork :
    Placed (logEngine.lawful 8) Virtual.smallCluster pairKey 9
      [⟨0, ⟨"alpha"⟩, "alpha:20000"⟩, ⟨1, ⟨"beta"⟩, "beta:20000"⟩] smallNetwork where
  outdated := by
    intro name _ g member
    obtain ⟨tag, rfl⟩ := exists_tag_of_mem_smallNetwork member
    refine ⟨rfl, fun holder member => ?_, fun holder member data has => ?_,
      fun holder member data has => ?_⟩
    · rw [holders_groupWithCopy member]
      rfl
    · rw [holders_groupWithCopy member]
      exact Nat.zero_le _
    · rw [value_of_groupWithCopy member has]
      decide
  tagged := by
    intro name _ g member _ _ _ _
    obtain rfl := List.mem_singleton.mp member
    decide

/-- The delete of the key on a node without copies on its disks. -/
def smallDelete : Except Panic (Except (Error 8) Unit × Network (logEngine 8)) :=
  Quorum.deleteOnNodes (smallDeployment.policy ⟨"gamma"⟩)
    ⟨fun _ _ => true, 0, .launched, .launched, .launched, .launched, .launched⟩
    (smallDeployment.deleteCalls ⟨"gamma"⟩) pairKey ⟨9⟩ smallNetwork

theorem small_delete_hides_older_copies :
    (smallDeployment.policy ⟨"alpha"⟩).get
        (smallDeployment.getWorld smallNetwork ⟨"alpha"⟩ .launched .launched) pairKey =
      .ok (.ok ⟨[1], ⟨7⟩⟩) ∧
    ∃ net', smallDelete = .ok (.ok (), net') ∧
      (smallDeployment.policy ⟨"alpha"⟩).get
          (smallDeployment.getWorld net' ⟨"alpha"⟩ .launched .launched) pairKey =
        .ok (.error (.keyNotFound pairKey)) ∧
      (smallDeployment.policy ⟨"alpha"⟩).exist
          (smallDeployment.existWorld net' ⟨"alpha"⟩ .launched .launched .launched .launched)
          [pairKey] = .ok [false] := by
  refine ⟨by decide +kernel, ?_⟩
  obtain ⟨⟨res, net'⟩, deleted, succeeded⟩ : ∃ x, smallDelete.toOption = some x ∧
      (x.1, (nodeNames Virtual.smallCluster).all fun name => (x.2 name).groups.all fun g =>
        !g.reinitLock && g.safeTimestampStep.isNone) = (.ok (), true) := by
    apply Option.map_eq_some_iff.mp
    decide +kernel
  obtain ⟨rfl, unlocked⟩ := Prod.mk.inj succeeded
  have ran : smallDelete = .ok (.ok (), net') := by
    cases result : smallDelete with
    | error _ => rw [result] at deleted; cases deleted
    | ok x => rw [result] at deleted; cases deleted; rfl
  have newest (name : NodeName) (member : name ∈ nodeNames Virtual.smallCluster) :
      (net' name).AnswersNewest (logEngine.lawful 8) pairKey := by
    intro g stored
    have plain := List.all_eq_true.mp (List.all_eq_true.mp unlocked name member) g stored
    simp only [Bool.and_eq_true, Bool.not_eq_true', Option.isNone_iff_eq_none] at plain
    exact Group.answersNewest_of_noStep plain.1 plain.2
  exact ⟨net', ran, delete_hides_older_copies (logEngine.lawful 8)
    logEngine.steady Virtual.validate_small builtFrom_smallDeployment (by decide) (by decide)
    placed_smallNetwork ran newest (by decide) (.launched, .launched) .launched
    (.launched, .launched, .launched)⟩

end Bob.Cluster

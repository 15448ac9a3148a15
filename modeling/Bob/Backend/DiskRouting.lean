/-
# Which disk a local request reaches

A local request names a vdisk and a disk. The backend picks the first controller
that has the vdisk, whatever its disk, and that controller then looks for a group
with both names. When a node holds two replicas of a vdisk, the disk whose
controller is stored first therefore hides the other: requests for the hidden
disk are answered with `vdisk_not_found`. The main result says that this is the
only way to miss the disk.
-/

import Bob.Common.Routing
import Bob.Backend.Pearl

namespace Bob

open Bob.Math Bob.Configs

variable {keySize : ℕ}

/-- The errors that say that no controller or no group took a request. -/
def Error.isRouting (e : Error keySize) : Bool :=
  match e.ctx with
  | .dcIsNotAvailable => true
  | .vdiskNotFound _ => true
  | _ => false

/-! ## Disks of the mapper -/

namespace Virtual

variable {mapper : Virtual}

theorem mem_getVdisksByDisk_iff {id : VDiskId} {disk : DiskName} {vdisk : DataVDisk}
    (found : mapper.vdisks.lookup id = some vdisk) :
    id ∈ mapper.getVdisksByDisk disk ↔ ∃ path ∈ mapper.localPaths vdisk, path.name = disk := by
  have placed : (∃ path ∈ mapper.localPaths vdisk, path.name = disk) ↔
      ((vdisk.replicas.filter fun r => r.nodeName = mapper.localNodeName).any
        fun replica => replica.diskName = disk) = true := by
    simp [localPaths, DiskPath.ofNodeDisk, and_assoc]
  rw [placed, getVdisksByDisk, List.mem_filterMap]
  constructor
  · rintro ⟨⟨other, data⟩, member, picked⟩
    split_ifs at picked with onDisk
    cases picked
    cases (Dict.mem_entries_iff.mp member).symm.trans found
    exact onDisk
  · intro onDisk
    exact ⟨⟨id, vdisk⟩, Dict.mem_entries_iff.mpr found, if_pos onDisk⟩

/-- The paths of an operation are disks of the node, since the node takes its disks
from the cluster file. -/
theorem BuiltFrom.mem_disks {cluster : Configs.Cluster} {node prepared : NodeConfig}
    {listed : ClusterNode} (built : mapper.BuiltFrom prepared cluster) (valid : cluster.Valid)
    (checked : Checked cluster node prepared listed) {id : VDiskId} {vdisk : DataVDisk}
    (found : mapper.vdisks.lookup id = some vdisk) {path : DiskPath}
    (member : path ∈ mapper.localPaths vdisk) : path ∈ mapper.disks := by
  obtain ⟨source, -, disks, rfl, rfl, located⟩ := built.exists_source valid found
  obtain ⟨disk, hdisk, rfl⟩ := List.mem_map.mp member
  obtain ⟨hdisk, isLocal⟩ := List.mem_filter.mp hdisk
  obtain ⟨replica, -, locates⟩ := exists_mem_of_forall₂ located hdisk
  obtain ⟨owner, howner, named, hpath⟩ := locates.listed
  -- node names are not repeated, so the owner of the disk is the entry of this node
  have same : owner = listed := by
    apply List.inj_on_of_nodup_map valid.nodup_names howner checked.listed
    have : disk.nodeName = ⟨prepared.name⟩ := by
      rw [← built.local_eq]
      simpa using isLocal
    rw [locates.nodeName, NodeName.mk.injEq] at this
    rw [named, this, checked.named, checked.taken]
  rw [built.disks_eq, checked.taken, ← same]
  exact hpath

theorem BuiltFrom.nodup_disks {cluster : Configs.Cluster} {node prepared : NodeConfig}
    {listed : ClusterNode} (built : mapper.BuiltFrom prepared cluster) (valid : cluster.Valid)
    (checked : Checked cluster node prepared listed) : (mapper.disks.map (·.name)).Nodup := by
  rw [built.disks_eq, checked.taken]
  exact valid.nodup_disks listed checked.listed

end Virtual

namespace Backend

variable {engine : StorageEngine keySize}

/-! ## What groups answer -/

namespace Group

variable {g g' : Group engine} {key : BobKey keySize} {e : Error keySize}

private theorem prepareStorage_not_routing {holder : Holder engine} {onDisk : List engine.Storage}
    (failed : holder.prepareStorage onDisk = .error e) : e.isRouting = false := by
  unfold Holder.prepareStorage at failed
  split at failed
  · cases failed
  · rename_i reason _
    cases failed
    cases reason <;> rfl

private theorem getOrCreateActualHolder_not_routing {timestamp : ℕ} {config : StartTimestampConfig}
    (failed : g.getOrCreateActualHolder timestamp config = .ok (.error e)) :
    e.isRouting = false := by
  unfold getOrCreateActualHolder at failed
  split at failed
  · cases failed
  unfold getOrCreateWritePearl at failed
  split at failed
  · cases failed
  obtain ⟨created, hcreated, failed⟩ := bind_eq_ok_iff.mp failed
  split at failed
  · cases failed
    obtain ⟨pearl, -, prepared⟩ := bind_eq_ok_iff.mp hcreated
    exact prepareStorage_not_routing (Except.ok.inj prepared)
  · cases failed

private theorem putCommon_not_routing {holder : Holder engine} {data : BobData}
    (failed : (putCommon holder key data).1 = .error e) : e.isRouting = false := by
  unfold putCommon at failed
  split at failed
  · cases failed
  · rename_i reason hreason
    -- whether or not the storage is reopened, the error is passed on
    have same : reason = e := by
      split_ifs at failed <;> exact Except.error.inj failed
    subst same
    unfold Holder.write at hreason
    split at hreason
    · cases hreason
      rfl
    · split at hreason
      · cases hreason
      · rename_i cause _
        cases hreason
        cases cause <;> rfl

private theorem deleteCommon_not_routing {holder : Holder engine} {bobMeta : BobMeta}
    {forceDelete : Bool} (failed : (deleteCommon holder key bobMeta forceDelete).1 = .error e) :
    e.isRouting = false := by
  unfold deleteCommon at failed
  split at failed
  · cases failed
  · rename_i reason hreason
    have same : reason = e := by
      split_ifs at failed <;> exact Except.error.inj failed
    subst same
    unfold Holder.delete at hreason
    split at hreason
    · cases hreason
      rfl
    · split at hreason
      · cases hreason
      · cases hreason
        rfl

theorem put_not_routing {data : BobData} {config : StartTimestampConfig}
    (failed : g.put key data config = .ok (.error e, g')) : e.isRouting = false := by
  unfold put at failed
  split_ifs at failed
  · cases failed
    rfl
  obtain ⟨found, hfound, failed⟩ := bind_eq_ok_iff.mp failed
  split at failed
  · cases failed
    exact getOrCreateActualHolder_not_routing hfound
  · rename_i index holder _
    have pair := Prod.mk.inj (Except.ok.inj failed)
    exact putCommon_not_routing pair.1

theorem delete_not_routing {bobMeta : BobMeta} {config : StartTimestampConfig} {forceDelete : Bool}
    (failed : g.delete key bobMeta config forceDelete = .ok (.error e, g')) :
    e.isRouting = false := by
  unfold delete at failed
  split_ifs at failed
  · cases failed
    rfl
  · obtain ⟨found, hfound, failed⟩ := bind_eq_ok_iff.mp failed
    split at failed
    · cases failed
      exact getOrCreateActualHolder_not_routing hfound
    · rename_i index holder _
      dsimp only at failed
      split at failed
      · rename_i reason marked
        cases failed
        exact deleteCommon_not_routing marked
      · cases failed
  · cases failed

theorem get_not_routing (failed : (g.get key).1 = .error e) : e.isRouting = false := by
  unfold get at failed
  split_ifs at failed
  · cases failed
    rfl
  dsimp only at failed
  split at failed
  · cases failed
  · split_ifs at failed
    · cases failed
      rfl
    · cases failed
      rfl

theorem exist_not_routing {keys : List (BobKey keySize)} (failed : g.exist keys = .error e) :
    e.isRouting = false := by
  unfold exist at failed
  split_ifs at failed
  cases failed
  rfl

end Group

/-! ## Controllers that serve their disks -/

namespace DiskController

/-- The controller of a disk is ready and has the groups it was started with. The
contents of the groups do not matter. -/
structure Serving (dc : DiskController engine) (mapper : Virtual) (disk : DiskPath) : Prop where
  disk_eq : dc.disk = disk
  vdisks_eq : dc.vdisks = mapper.getVdisksByDisk disk.name
  normal : dc.isAlien = false
  ready : dc.state = .ready
  idents : dc.groups.map Group.ident = dc.collectNormalGroups.map Group.ident

variable {dc : DiskController engine} {mapper : Virtual} {disk path : DiskPath} {vdiskId : VDiskId}

private theorem Serving.mem_idents (serving : dc.Serving mapper disk)
    {ident : VDiskId × NodeName × DiskName} :
    ident ∈ dc.groups.map Group.ident ↔
      ∃ vdiskId ∈ dc.vdisks, (vdiskId, dc.nodeName, disk.name) = ident := by
  rw [serving.idents, collectNormalGroups, List.map_map, List.mem_map, ← serving.disk_eq]
  rfl

theorem Serving.canProcessOperation_iff (serving : dc.Serving mapper disk) :
    dc.canProcessOperation (.newLocal vdiskId path) = true ↔
      vdiskId ∈ mapper.getVdisksByDisk disk.name := by
  rw [← serving.vdisks_eq]
  -- a local operation has no remote name, so only the list of vdisks is consulted
  change (dc.isAlien && false || dc.vdisks.any fun other => other = vdiskId) = true ↔ _
  simp

private theorem canProcessOperation_newLocal_iff {g : Group engine} :
    g.canProcessOperation (.newLocal vdiskId path) = true ↔
      g.vdiskId = vdiskId ∧ g.diskName = path.name := by
  change (decide (g.vdiskId = vdiskId) && decide (g.diskName = path.name)) = true ↔ _
  simp

/-- A controller finds a group only for its own disk. -/
theorem Serving.findSingleGroup_eq_none (serving : dc.Serving mapper disk)
    (other : disk.name ≠ path.name) :
    findSingleGroup dc.groups (.newLocal vdiskId path) = none := by
  refine firstMatch_eq_none_iff.mpr fun g member => Bool.eq_false_iff.mpr fun accepts => other ?_
  obtain ⟨_, _, same⟩ := serving.mem_idents.mp (List.mem_map_of_mem member)
  rw [← (canProcessOperation_newLocal_iff.mp accepts).2]
  exact congrArg (fun ident => ident.2.2) same

/-- A controller has a group for every vdisk of its disk. -/
theorem Serving.exists_findSingleGroup (serving : dc.Serving mapper disk)
    (member : vdiskId ∈ mapper.getVdisksByDisk disk.name) (same : disk.name = path.name) :
    ∃ g j, findSingleGroup dc.groups (.newLocal vdiskId path) = some (g, j) ∧
      g.vdiskId = vdiskId ∧ g.diskName = path.name := by
  obtain ⟨g, hg, named⟩ := List.mem_map.mp
    (serving.mem_idents.mpr ⟨vdiskId, serving.vdisks_eq ▸ member, rfl⟩)
  simp only [Group.ident, Prod.mk.injEq] at named
  have accepts : g.canProcessOperation (.newLocal vdiskId path) = true :=
    canProcessOperation_newLocal_iff.mpr ⟨named.1, named.2.2.trans same⟩
  obtain ⟨found, j, hfound⟩ : ∃ found j,
      findSingleGroup dc.groups (.newLocal vdiskId path) = some (found, j) :=
    exists_firstMatch hg accepts
  exact ⟨found, j, hfound,
    canProcessOperation_newLocal_iff.mp (firstMatch_eq_some_iff.mp hfound).2.1⟩

end DiskController

namespace Pearl

/-- Every disk of the node has its controller, and all of them serve. -/
def Serving (p : Pearl engine) (mapper : Virtual) : Prop :=
  ∃ disks, disks.Perm mapper.disks ∧
    List.Forall₂ (fun disk dc => dc.Serving mapper disk) disks p.diskControllers

/-- Requests are handed to group `j` of controller `i`, and its answer is returned. -/
structure ServedBy (p : Pearl engine) (op : Operation) (i : ℕ) (dc : DiskController engine) (j : ℕ)
    (g : Group engine) : Prop where
  controller : p.diskControllers[i]? = some dc
  group : dc.groups[j]? = some g
  put_eq : ∀ key data, p.put op key data = (do
    let (res, g') ← g.put key data .default
    match res with
    | .ok () => return (.ok (), p.setController i (dc.setGroup j g'))
    | .error e => return (.error e, p.setController i ((dc.setGroup j g').processError e)))
  get_eq : ∀ key, p.get op key = ((g.get key).1, p.setController i (dc.setGroup j (g.get key).2))
  exist_eq : ∀ keys, p.exist op keys = g.exist keys
  delete_eq : ∀ key bobMeta, p.delete op key bobMeta = (do
    let (res, g') ← g.delete key bobMeta .default true
    return (res, p.setController i (dc.setGroup j g')))

variable {p : Pearl engine} {op : Operation} {i j : ℕ} {dc : DiskController engine}
  {g : Group engine}

theorem servedBy_of_find (found : findController p.diskControllers op = some (dc, i))
    (ready : dc.state = .ready)
    (located : DiskController.findSingleGroup dc.groups op = some (g, j)) :
    p.ServedBy op i dc j g where
  controller := (firstMatch_eq_some_iff.mp found).1
  group := (firstMatch_eq_some_iff.mp located).1
  put_eq := by
    intro key data
    simp only [put, found, DiskController.put, ready, located, if_true, bind_assoc]
    congr 1
    funext answer
    obtain ⟨res, g'⟩ := answer
    cases res <;> rfl
  get_eq := by
    intro key
    simp only [get, found, DiskController.get, ready, located, if_true]
  exist_eq := by
    intro keys
    simp only [exist, found, DiskController.exist, ready, located, if_true]
  delete_eq := by
    intro key bobMeta
    simp only [delete, found, DiskController.delete, ready, located, if_true, bind_assoc]
    rfl

/-- No request for the operation is answered with an error of routing. -/
structure NeverLost (p : Pearl engine) (op : Operation) : Prop where
  put : ∀ key data e p', p.put op key data = .ok (.error e, p') → e.isRouting = false
  get : ∀ key e, (p.get op key).1 = .error e → e.isRouting = false
  exist : ∀ keys e, p.exist op keys = .error e → e.isRouting = false
  delete : ∀ key bobMeta e p', p.delete op key bobMeta = .ok (.error e, p') → e.isRouting = false

theorem ServedBy.neverLost (served : p.ServedBy op i dc j g) : p.NeverLost op where
  put := by
    intro key data e p' answered
    rw [served.put_eq] at answered
    obtain ⟨⟨res, g'⟩, hres, answered⟩ := bind_eq_ok_iff.mp answered
    cases res with
    | ok done => cases answered
    | error reason =>
      cases answered
      exact Group.put_not_routing hres
  get := by
    intro key e answered
    rw [served.get_eq] at answered
    exact Group.get_not_routing answered
  exist := by
    intro keys e answered
    rw [served.exist_eq] at answered
    exact Group.exist_not_routing answered
  delete := by
    intro key bobMeta e p' answered
    rw [served.delete_eq] at answered
    obtain ⟨⟨res, g'⟩, hres, answered⟩ := bind_eq_ok_iff.mp answered
    cases answered
    exact Group.delete_not_routing hres

/-- The local operation reaches the group of its vdisk on the disk it names. -/
structure Reaches (p : Pearl engine) (vdiskId : VDiskId) (path : DiskPath) : Prop where
  served : ∃ i dc j g, p.ServedBy (.newLocal vdiskId path) i dc j g ∧
    dc.disk.name = path.name ∧ g.vdiskId = vdiskId ∧ g.diskName = path.name
  neverLost : p.NeverLost (.newLocal vdiskId path)

/-- No controller with a replica of the vdisk is stored before the controller of the
disk. -/
def Unshadowed (p : Pearl engine) (vdiskId : VDiskId) (disk : DiskName) : Prop :=
  ∀ (i : ℕ) (dc : DiskController engine), p.diskControllers[i]? = some dc → dc.disk.name = disk →
    ∀ j < i, ∀ other : DiskController engine, p.diskControllers[j]? = some other →
      vdiskId ∉ other.vdisks

section Serving

variable {mapper : Virtual}

private theorem exists_serving {disks : List DiskPath}
    (all : List.Forall₂ (fun disk dc => dc.Serving mapper disk) disks p.diskControllers)
    (found : p.diskControllers[i]? = some dc) :
    ∃ disk, disks[i]? = some disk ∧ dc.Serving mapper disk := by
  obtain ⟨hi, rfl⟩ := List.getElem?_eq_some_iff.mp found
  obtain ⟨len, related⟩ := List.forall₂_iff_get.mp all
  exact ⟨disks[i], List.getElem?_eq_getElem (len ▸ hi), related i (len ▸ hi) hi⟩

/-- Two controllers of one disk are the same controller. -/
private theorem index_eq_of_name_eq {disks : List DiskPath}
    (all : List.Forall₂ (fun disk dc => dc.Serving mapper disk) disks p.diskControllers)
    (distinct : (disks.map (·.name)).Nodup) {other : DiskController engine}
    (first : p.diskControllers[i]? = some dc) (second : p.diskControllers[j]? = some other)
    (same : dc.disk.name = other.disk.name) : i = j := by
  obtain ⟨disk, hdisk, serving⟩ := exists_serving all first
  obtain ⟨disk', hdisk', serving'⟩ := exists_serving all second
  rw [serving.disk_eq, serving'.disk_eq] at same
  have hi : i < (disks.map (·.name)).length := by
    simpa using (List.getElem?_eq_some_iff.mp hdisk).1
  refine (List.getElem?_inj hi distinct).mp ?_
  rw [List.getElem?_map, List.getElem?_map, hdisk, hdisk']
  exact congrArg some same

/-- With distinct disks, a local operation reaches its disk exactly if no other disk
with the vdisk comes first. -/
theorem reaches_iff_unshadowed {vdiskId : VDiskId} {path : DiskPath} (serving : p.Serving mapper)
    (distinct : (mapper.disks.map (·.name)).Nodup) (known : path ∈ mapper.disks)
    (placed : vdiskId ∈ mapper.getVdisksByDisk path.name) (key : BobKey keySize) :
    p.Reaches vdiskId path ↔ p.Unshadowed vdiskId path.name := by
  obtain ⟨disks, perm, all⟩ := serving
  have distinct' : (disks.map (·.name)).Nodup := (perm.map _).nodup_iff.mpr distinct
  have accepts (k : ℕ) (other : DiskController engine) (h : p.diskControllers[k]? = some other) :
      other.canProcessOperation (.newLocal vdiskId path) = true ↔ vdiskId ∈ other.vdisks := by
    obtain ⟨disk, -, serves⟩ := exists_serving all h
    rw [serves.canProcessOperation_iff, serves.vdisks_eq]
  -- The controller of the named disk, somewhere in the list.
  obtain ⟨i, hi⟩ := List.getElem?_of_mem (perm.mem_iff.mpr known)
  obtain ⟨dc, hdc, serves⟩ : ∃ dc, p.diskControllers[i]? = some dc ∧ dc.Serving mapper path := by
    obtain ⟨len, related⟩ := List.forall₂_iff_get.mp all
    obtain ⟨below, rfl⟩ := List.getElem?_eq_some_iff.mp hi
    exact ⟨_, List.getElem?_eq_getElem (len ▸ below), related i below (len ▸ below)⟩
  have onDisk : vdiskId ∈ dc.vdisks := by
    rw [serves.vdisks_eq]
    exact placed
  constructor
  · intro reaches i' dc' hdc' named j before other hother shadows
    -- The first controller with the vdisk is another one, and it has no such group.
    obtain ⟨first, k, found⟩ : ∃ first k,
        findController p.diskControllers (.newLocal vdiskId path) = some (first, k) :=
      exists_firstMatch (List.mem_of_getElem? hother) ((accepts j other hother).mpr shadows)
    obtain ⟨hfirst, -, earlier⟩ := firstMatch_eq_some_iff.mp found
    have le : k ≤ j := by
      by_contra later
      have refused := earlier j (by omega) other hother
      rw [(accepts j other hother).mpr shadows] at refused
      cases refused
    obtain ⟨disk, -, firstServes⟩ := exists_serving all hfirst
    have elsewhere : disk.name ≠ path.name := by
      intro same
      have := index_eq_of_name_eq all distinct' hfirst hdc'
        (by rw [firstServes.disk_eq, same, named])
      omega
    -- one refused put is enough: the disk is not reached
    have lost : p.put (.newLocal vdiskId path) key ⟨[], ⟨0⟩⟩ =
        .ok (.error (.vdiskNotFound vdiskId), p.setController k first) := by
      simp only [put, found, DiskController.put, firstServes.ready, if_true,
        firstServes.findSingleGroup_eq_none elsewhere]
      rfl
    have := reaches.neverLost.put _ _ _ _ lost
    cases this
  · intro unshadowed
    have found : findController p.diskControllers (.newLocal vdiskId path) = some (dc, i) := by
      refine firstMatch_eq_some_iff.mpr ⟨hdc, (accepts i dc hdc).mpr onDisk, ?_⟩
      intro j before other hother
      rw [Bool.eq_false_iff, ne_eq, accepts j other hother]
      exact unshadowed i dc hdc (by rw [serves.disk_eq]) j before other hother
    obtain ⟨g, j, located, hvdisk, hdisk⟩ := serves.exists_findSingleGroup placed rfl
    have served := servedBy_of_find found serves.ready located
    exact ⟨⟨i, dc, j, g, served, by rw [serves.disk_eq], hvdisk, hdisk⟩, served.neverLost⟩

end Serving

/-- On a node with an accepted configuration, a local operation reaches the group of
its vdisk on the disk it names exactly if no other disk that holds a replica of the
vdisk has its controller stored before. -/
theorem local_operation_reaches_its_disk_iff {ext : Externals} {cluster : Configs.Cluster}
    {node prepared : NodeConfig} {mapper : Virtual}
    (validated : cluster.validate ext.parseUri = .ok ())
    (checked : cluster.check ext node = .ok prepared)
    (built : Virtual.new prepared cluster = .ok mapper)
    (serving : p.Serving mapper) (key : BobKey keySize) {vdiskId : VDiskId} {paths : List DiskPath}
    (operation : mapper.getOperation key = .ok (vdiskId, some paths))
    {path : DiskPath} (member : path ∈ paths) :
    p.Reaches vdiskId path ↔ p.Unshadowed vdiskId path.name := by
  have valid := Cluster.valid_of_validate validated
  have from' := Virtual.builtFrom_of_new built
  obtain ⟨listed, accepted⟩ := Cluster.exists_checked checked
  obtain ⟨id, vdisk, hid, found, -⟩ := (from'.wellFormed valid).exists_vdisk key
  have resolved := operation.symm.trans (Virtual.getOperation_eq hid found)
  rw [Except.ok.injEq, Prod.mk.injEq] at resolved
  obtain ⟨sameId, samePaths⟩ := resolved
  have placed := (from'.wellFormed valid).placed id vdisk found
  have onNode : path ∈ mapper.localPaths vdisk := by
    rw [← Virtual.getD_localPaths, ← samePaths]
    exact member
  refine reaches_iff_unshadowed serving (from'.nodup_disks valid accepted)
    (from'.mem_disks valid accepted found onNode) ?_ key
  rw [sameId, placed.id_eq]
  exact (Virtual.mem_getVdisksByDisk_iff found).mpr ⟨path, onNode, rfl⟩

end Pearl

/-! ## A node with two replicas of a vdisk -/

/-- A controller whose groups have been read and run. -/
def DiskController.started (dc : DiskController engine) : DiskController engine :=
  { dc with groups := dc.collectNormalGroups, state := .ready }

/-- Controllers as the backend creates them serve once they are started, in whatever
order they are stored. -/
theorem Pearl.serving_started (settings : Settings) (mapper : Virtual) (nodeName : NodeName)
    (order : AnyOrder (DiskController engine)) (alien : DiskController engine) :
    Pearl.Serving ⟨(settings.readGroupFromDisk mapper nodeName order).map .started, alien⟩
      mapper := by
  have stored := order.perm (mapper.disks.map fun disk =>
    .new settings nodeName disk (mapper.getVdisksByDisk disk.name) false)
  refine ⟨(settings.readGroupFromDisk mapper nodeName order).map (·.disk), ?_, ?_⟩
  · have names := stored.map (·.disk)
    rw [List.map_map] at names
    exact names.trans (List.Perm.of_eq (List.map_id _))
  · rw [List.forall₂_map_left_iff, List.forall₂_map_right_iff, List.forall₂_same]
    intro dc member
    obtain ⟨disk, -, rfl⟩ := List.mem_map.mp (stored.mem_iff.mp member)
    exact ⟨rfl, rfl, rfl, rfl, rfl⟩

namespace Pearl

def smallSettings : Settings where
  timestampPeriod := .ofDays 1
  skipHoldersByTimestampStepWhenReading := none
  alienDisk := some ⟨"disk1"⟩
  representable := fun time => time < 8 * 10 ^ 12

/-- The store of the first node of the small cluster, with the controllers in the
order of the disks. -/
def smallPearl : Pearl (logEngine 8) where
  diskControllers :=
    (smallSettings.readGroupFromDisk Virtual.smallMapper ⟨"alpha"⟩ .launched).map .started
  alienDiskController := .new smallSettings ⟨"alpha"⟩ ⟨⟨"disk1"⟩, "/mnt/1/alien/"⟩ [] true

/-- A key of the vdisk that has both replicas on the node. -/
def doubleKey : BobKey 8 := ⟨Vector.replicate 8 1⟩

/-- The second disk holds a replica of the key, but a put to it is answered with
`vdisk_not_found`: the controller of the first disk takes the request. -/
theorem second_disk_not_reached :
    (Virtual.smallCluster.validate Virtual.lenientExternals.parseUri = .ok () ∧
      Virtual.smallCluster.check Virtual.lenientExternals Virtual.smallNode =
        .ok Virtual.preparedSmallNode ∧
      Virtual.new Virtual.preparedSmallNode Virtual.smallCluster = .ok Virtual.smallMapper ∧
      smallPearl.Serving Virtual.smallMapper ∧
      Virtual.smallMapper.getOperation doubleKey =
        .ok (1, some [⟨⟨"disk2"⟩, "/mnt/2"⟩, ⟨⟨"disk1"⟩, "/mnt/1"⟩])) ∧
    smallPearl.put (.newLocal 1 ⟨⟨"disk2"⟩, "/mnt/2"⟩) doubleKey ⟨[], ⟨0⟩⟩ =
      .ok (.error (.vdiskNotFound 1), smallPearl) := by
  refine ⟨⟨by decide, by decide, Virtual.new_small, serving_started .., ?_⟩, ?_⟩
  · decide
  · rfl

theorem first_disk_reached :
    smallPearl.Unshadowed 1 ⟨"disk1"⟩ ∧ smallPearl.Reaches 1 ⟨⟨"disk1"⟩, "/mnt/1"⟩ := by
  have unshadowed : smallPearl.Unshadowed 1 ⟨"disk1"⟩ := by
    intro i dc here named j before
    match i with
    | 0 => exact absurd before (Nat.not_lt_zero j)
    | 1 =>
      cases here
      exact absurd named (by decide)
    | i + 2 => cases here
  have operation : Virtual.smallMapper.getOperation doubleKey =
      .ok (1, some [⟨⟨"disk2"⟩, "/mnt/2"⟩, ⟨⟨"disk1"⟩, "/mnt/1"⟩]) := by decide
  exact ⟨unshadowed, (local_operation_reaches_its_disk_iff Virtual.validate_small
    Virtual.check_small Virtual.new_small (serving_started ..) doubleKey operation
    (by decide)).mpr unshadowed⟩

end Pearl

end Backend

end Bob

/-
# An acknowledged put is read

A put under a key that is written only once, and not deleted, has answered without an
error. Among the requests that the nodes have served, in whatever order and with whatever
requests of other operations between them, are those that were acknowledged to it. So the
nodes that acknowledged have copies, and they keep them. A read from any node that hears
from one of them returns the data. That is so if it hears from every node. If the put
reached its quorum, it is enough that the nodes it hears from have more replicas of the
vdisk than the quorum leaves out.
-/

import Bob.Cluster.Put
import Bob.Cluster.Serving

namespace Bob.Cluster

open Bob.Math Bob.Configs Bob.Backend

variable {keySize : ℕ} {engine : StorageEngine keySize} {d : Deployment}
  {cluster : Configs.Cluster} {lawful : engine.Lawful} {net net' : Network engine}
  {key : BobKey keySize} {data : BobData} {id : VDiskId} {vdisk : DataVDisk}

/-! ## Copies on the nodes -/

/-- The node has a copy where a read of the key looks for it. -/
def HasCopy (d : Deployment) (lawful : engine.Lawful) (net : Network engine) (vdisk : DataVDisk)
    (key : BobKey keySize) (data : BobData) (name : NodeName) : Prop :=
  (∃ path ∈ (d.mapper name).localPaths vdisk,
    (net name).StoresAt lawful (.newLocal vdisk.id path) key data) ∨
  (net name).StoresAlien lawful vdisk.id key data

/-- A copy for a disk of the node is one that a read finds. -/
theorem hasCopy_of_copied_path {name : NodeName} {path : DiskPath}
    (listed : path ∈ (d.mapper name).localPaths vdisk)
    (copied : (net name).Copied lawful (.newLocal vdisk.id path) key data) :
    HasCopy d lawful net vdisk key data name :=
  copied.imp (fun stored => ⟨path, listed, stored.2⟩) id

/-- So is what a node keeps of a put, whatever its options were. -/
theorem hasCopy_of_keepsPut {name : NodeName} (routes : Routes d cluster key id vdisk name)
    {options : BobPutOptions} (kept : (net name).KeepsPut lawful (d.mapper name) key data options) :
    HasCopy d lawful net vdisk key data name := by
  obtain ⟨vdiskId, paths, route, kept⟩ := kept
  have operation := Virtual.getOperation_eq routes.vdiskId routes.stored
  obtain ⟨rfl, rfl⟩ := Prod.mk.inj (Except.ok.inj (route.symm.trans operation))
  -- into the alien store, to no disk, or to each disk of the vdisk
  split_ifs at kept with alien none
  · exact Or.inr kept
  · obtain ⟨listed, missing, -⟩ := kept
    cases missing
  · obtain ⟨listed, some, copied⟩ := kept
    cases some
    obtain ⟨path, member⟩ := List.exists_mem_of_ne_nil _ (by simpa using none)
    exact hasCopy_of_copied_path member (copied path member)

/-! ## Reading a copy -/

section Reading

variable {reader : NodeName} {world : GetWorld keySize}

/-- The calls of a read to the node get through. -/
def Deployment.Hears (d : Deployment) (net : Network engine) (key : BobKey keySize)
    (world : GetWorld keySize) (name : NodeName) : Prop :=
  ∀ node : Node, node.name = name → ∀ options, world.call node options key =
    answerOf (Backend.get (Pearl.storage (d.makeDir name)) (d.mapper name) key options (net name))

/-- On every node of the cluster the controller of the alien store is one. -/
def AliensServed (cluster : Configs.Cluster) (net : Network engine) : Prop :=
  ∀ name ∈ nodeNames cluster, (net name).alienDiskController.isAlien = true

variable (sole : ∀ r, net.Holds lawful key r → r = .value data)
  (stamped : 0 < data.bobMeta.timestamp)
include sole

private theorem sole_at (name : NodeName) : (net name).Sole lawful key data :=
  fun r held => sole r ⟨name, held⟩

/-- Reading from the disk with the copy. -/
private theorem hasData_getLocal {path : DiskPath}
    (stores : (net reader).StoresAt lawful (.newLocal vdisk.id path) key data) :
    HasData (answerOf (Backend.getLocal (Pearl.storage (d.makeDir reader)) key
      (.newLocal vdisk.id path) (net reader))) := by
  rw [hasData_iff_toOption]
  have found := (sole_at sole reader).reads_eq stores
  change ((net reader).get (.newLocal vdisk.id path) key).1.toOption = some data at found
  change ((net reader).get (.newLocal vdisk.id path) key).1.toOption ≠ none
  rw [found]
  exact Option.some_ne_none data

private theorem hasData_get_normal {name : NodeName} (routes : Routes d cluster key id vdisk name)
    {path : DiskPath} (listed : path ∈ (d.mapper name).localPaths vdisk)
    (stores : (net name).StoresAt lawful (.newLocal vdisk.id path) key data) :
    HasData (answerOf (Backend.get (Pearl.storage (d.makeDir name)) (d.mapper name) key .newLocal
      (net name))) := by
  obtain ⟨paths, operation, same⟩ := routes.operation
  obtain ⟨res, hres, found⟩ := @Pearl.get_spec _ _ (net name) (d.makeDir name) (d.mapper name)
    .newLocal key lawful _ _ operation
  rw [hres, hasData_iff_toOption, ← Option.isSome_iff_ne_none]
  refine found.mpr (Or.inl ⟨rfl, path, same ▸ listed, ?_⟩)
  rw [(sole_at sole name).reads_eq stores]
  rfl

variable {name : NodeName} (alien : (net name).alienDiskController.isAlien = true)
  (stores : (net name).StoresAlien lawful vdisk.id key data)
include stamped alien stores

/-- Reading from an alien store with the copy. A timestamp of zero would hide it. -/
private theorem hasData_getLocal_alien : HasData (answerOf
    (Backend.getLocal (Pearl.storage (d.makeDir name)) key (.newAlien vdisk.id) (net name))) := by
  obtain ⟨res, hres, found⟩ :=
    @Pearl.getSingle_alien _ _ (net name) (d.makeDir name) key lawful vdisk.id
  rw [Backend.getLocal, hres, hasData_iff_toOption, ← Option.isSome_iff_ne_none]
  exact found.mpr ⟨data, (sole_at sole name).mem_alienValues alien stores, stamped⟩

private theorem hasData_get_alien (routes : Routes d cluster key id vdisk name) :
    HasData (answerOf (Backend.get (Pearl.storage (d.makeDir name)) (d.mapper name) key .newAlien
      (net name))) := by
  obtain ⟨paths, operation, -⟩ := routes.operation
  obtain ⟨res, hres, found⟩ := @Pearl.get_spec _ _ (net name) (d.makeDir name) (d.mapper name)
    .newAlien key lawful _ _ operation
  rw [hres, hasData_iff_toOption, ← Option.isSome_iff_ne_none]
  exact found.mpr (Or.inr ⟨rfl, data, (sole_at sole name).mem_alienValues alien stores, stamped⟩)

end Reading

section Reading

variable {reader name : NodeName} {world : GetWorld keySize}

/-- If a key has one value in the whole cluster, a read that hears from a node with a copy
returns it. -/
theorem get_of_hasCopy (routes : ∀ name ∈ nodeNames cluster, Routes d cluster key id vdisk name)
    (served : AliensServed cluster net) (sole : ∀ r, net.Holds lawful key r → r = .value data)
    (stamped : 0 < data.bobMeta.timestamp) (asked : reader ∈ nodeNames cluster)
    (listed : name ∈ nodeNames cluster) (copy : HasCopy d lawful net vdisk key data name)
    (honest : d.Honest net reader key world)
    (heard : name = reader ∨ d.Hears net key world name) :
    (d.policy reader).get world key = .ok (.ok data) := by
  have here := routes reader asked
  have there := routes name listed
  obtain ⟨paths, operation, same⟩ := here.operation
  have targets := Virtual.getTargetNodesForKey_eq here.vdiskId here.stored
  obtain ⟨answer, got, finds, -⟩ := @Quorum.exists_get _ (d.mapper reader) world key _ _ _
    (d.quorum reader) operation targets
  -- one of the four places that a read looks at has the copy
  have spec : getSpec (d.mapper reader) world key vdisk.id (paths.getD []) vdisk.nodes := by
    by_cases self : name = reader
    · subst self
      rcases copy with ⟨path, hpath, stores⟩ | stores
      · refine Or.inl ⟨path, same ▸ hpath, ?_⟩
        rw [honest.getLocal]
        exact hasData_getLocal sole stores
      · refine Or.inr (Or.inr (Or.inl ?_))
        rw [honest.getLocal]
        exact hasData_getLocal_alien sole stamped (served name listed) stores
    · have hears := heard.resolve_left self
      rcases copy with ⟨path, hpath, stores⟩ | stores
      · -- a node with a disk for the vdisk is one of its target nodes
        have target := (there.wellFormed.placed id vdisk there.stored).local_mem_iff.mpr
          (List.ne_nil_of_mem hpath)
        rw [there.localNodeName] at target
        obtain ⟨node, hnode, named⟩ := List.mem_map.mp target
        refine Or.inr (Or.inl ⟨node, hnode, ?_, ?_⟩)
        · rwa [here.localNodeName, named]
        · rw [hears node named]
          exact hasData_get_normal sole there hpath stores
      · obtain ⟨node, hnode, named⟩ := List.mem_map.mp (here.names ▸ listed)
        refine Or.inr (Or.inr (Or.inr ⟨node, hnode, ?_, ?_⟩))
        · rwa [here.localNodeName, named]
        · rw [hears node named]
          exact hasData_get_alien sole stamped (served name listed) stores there
  -- a read that finds data finds this value, as there is no other
  cases answer with
  | error e =>
    have failed := finds.mpr spec
    cases failed
  | ok other =>
    rw [Deployment.policy, got]
    have value := sole _ (honest.holds lawful got)
    cases value
    rfl

end Reading

/-! ## Acknowledgements -/

section Acknowledged

variable {requests : List (NodeName × NodeRequest keySize)} {answers : List Bool}
  {coordinator : NodeName} {world : PutWorld keySize}

/-- Whatever is acknowledged to a put has been served: each call that returns without an
error, and each write of the backend of its own node. -/
structure Deployment.Answered (d : Deployment)
    (log : List ((NodeName × NodeRequest keySize) × Bool)) (coordinator : NodeName)
    (key : BobKey keySize) (data : BobData) (world : PutWorld keySize) : Prop where
  call : ∀ node options, (world.call node options).isOk = true →
    ((node.name, .put key data options), true) ∈ log
  putLocal : ∀ op, (Backend.putLocal (m := Id) world.backend (d.mapper coordinator) key data
    op).isOk = true → ((coordinator, .putLocal key data op), true) ∈ log

/-- A key that nobody has written is written with one value only, and then each of its
records is of this value. -/
theorem sole_of_once (ran : requests.mapM d.serve net = .ok (answers, net'))
    (fresh : ∀ r, ¬ net.Holds lawful key r)
    (once : ∀ r, Written requests key r → r = .value data) :
    ∀ r, net'.Holds lawful key r → r = .value data :=
  fun r held => once r ((holds_or_written ran held).resolve_left (fresh r))

variable (ran : requests.mapM d.serve net = .ok (answers, net'))
  (answered : d.Answered (requests.zip answers) coordinator key data world)
include ran answered

theorem hasCopy_of_call (lawful : engine.Lawful) {node : Node}
    (routes : Routes d cluster key id vdisk node.name) {options : BobPutOptions}
    (acked : (world.call node options).isOk = true) :
    HasCopy d lawful net' vdisk key data node.name := by
  obtain ⟨-, kept⟩ := yields_requests lawful d requests net answers net' ran
  exact hasCopy_of_keepsPut routes (kept _ (answered.call node options acked) rfl)

theorem hasCopy_of_path (lawful : engine.Lawful) {path : DiskPath}
    (listed : path ∈ (d.mapper coordinator).localPaths vdisk)
    (acked : (d.policy coordinator).pathOk world key data vdisk.id path = true) :
    HasCopy d lawful net' vdisk key data coordinator := by
  obtain ⟨-, kept⟩ := yields_requests lawful d requests net answers net' ran
  exact hasCopy_of_copied_path listed (kept _ (answered.putLocal _ acked) rfl)

theorem hasCopy_of_localAlien (lawful : engine.Lawful) {name : NodeName}
    (acked : localAlienOk world (d.mapper coordinator) key data vdisk.id name = true) :
    HasCopy d lawful net' vdisk key data coordinator := by
  obtain ⟨-, kept⟩ := yields_requests lawful d requests net answers net' ran
  have copied : (net' coordinator).Copied lawful
      ((Operation.newAlien vdisk.id).setRemoteNodeName name) key data :=
    kept _ (answered.putLocal _ acked) rfl
  exact Or.inr (copied.resolve_left fun normal => Bool.noConfusion normal.1)

/-- A put that answers without an error leaves a copy on some node: a quorum of
acknowledged replicas is not empty, and without one each failed node has a copy
elsewhere. -/
theorem exists_hasCopy_of_ok (lawful : engine.Lawful)
    (routes : ∀ name ∈ nodeNames cluster, Routes d cluster key id vdisk name)
    (listed : coordinator ∈ nodeNames cluster) (positive : 0 < d.quorum coordinator)
    {outcome : Quorum.PutOutcome keySize}
    (sound : outcome.Sound (d.policy coordinator) world key data vdisk.nodes
      (Dict.tally (vdisk.replicas.map (·.nodeName))) vdisk.id
      ((d.mapper coordinator).localPaths vdisk))
    (ok : outcome.result = .ok ()) :
    ∃ name ∈ nodeNames cluster, HasCopy d lawful net' vdisk key data name := by
  have here := routes coordinator listed
  have inside := (here.wellFormed.placed id vdisk here.stored).nodes_sublist.subset
  cases reached : outcome.phase.quorumReached (d.quorum coordinator) with
  | true =>
    have enough : 0 < (d.policy coordinator).ackedReplicas world key data vdisk.nodes
        (Dict.tally (vdisk.replicas.map (·.nodeName))) vdisk.id
        ((d.mapper coordinator).localPaths vdisk) :=
      positive.trans_le (sound.reached_iff.mp reached)
    rcases Nat.add_pos_iff_pos_or_pos.mp enough with remote | own
    · -- some other node acknowledged
      obtain ⟨count, member, -⟩ := List.exists_mem_ne_zero_of_sum_ne_zero remote.ne'
      obtain ⟨node, hnode, -⟩ := List.mem_map.mp member
      obtain ⟨target, acked⟩ := List.mem_filter.mp hnode
      have named := here.name_mem (inside target)
      exact ⟨node.name, named, hasCopy_of_call ran answered lawful (routes _ named)
        (Bool.and_eq_true_iff.mp acked).2⟩
    · obtain ⟨path, hpath, acked⟩ := List.countP_pos_iff.mp own
      exact ⟨coordinator, listed, hasCopy_of_path ran answered lawful hpath acked⟩
  | false =>
    -- without a quorum some node has failed, and the put was handed off for it
    obtain ⟨-, some, -, aliens, -, copies, support⟩ := sound.of_missed reached
    obtain ⟨name, failed⟩ := List.exists_mem_of_ne_nil _ some
    rcases copies.mp ok name failed with ⟨node, queried, acked⟩ | ⟨-, written⟩
    · have named := here.name_mem (support _ queried).1
      exact ⟨node.name, named, hasCopy_of_call ran answered lawful (routes _ named) acked⟩
    · exact ⟨coordinator, listed, hasCopy_of_localAlien ran answered lawful written⟩

end Acknowledged

/-! ## Quorums -/

section Quorums

/-- Two properties that together occur more often than there are elements meet. -/
theorem exists_both_of_length_lt {α : Type} {p q : α → Bool} {l : List α}
    (more : l.length < l.countP p + l.countP q) : ∃ a ∈ l, p a = true ∧ q a = true := by
  by_contra apart
  have none : ∀ a ∈ l, p a = true → ¬ q a = true := fun a member hp hq =>
    apart ⟨a, member, hp, hq⟩
  have fewer : l.countP q ≤ l.countP fun a => !p a :=
    List.countP_mono_left fun a member hq => by
      cases hp : p a with
      | true => exact absurd hq (none a member hp)
      | false => rfl
  have whole := List.length_eq_countP_add_countP p (l := l)
  simp only [Bool.not_eq_true, Bool.decide_eq_false] at whole
  omega

variable {mapper : Virtual}

/-- Counting by the nodes of a vdisk counts its replicas. -/
private theorem sum_count_filter_nodes (placed : mapper.WellPlaced id vdisk)
    (wf : mapper.WellFormed) (p : Node → Bool) :
    ((vdisk.nodes.filter p).map fun node =>
        (vdisk.replicas.map (·.nodeName)).count node.name).sum =
      (vdisk.replicas.map (·.nodeName)).countP fun name =>
        vdisk.nodes.any fun node => node.name = name && p node := by
  let names := vdisk.replicas.map (·.nodeName)
  let picked (name : NodeName) : Bool := vdisk.nodes.any fun node => node.name = name && p node
  -- nodes are told apart by their names
  have byName : vdisk.nodes.filter p = vdisk.nodes.filter fun node => picked node.name := by
    refine List.filter_congr fun node member => ?_
    rw [Bool.eq_iff_iff, List.any_eq_true]
    constructor
    · intro holds
      exact ⟨node, member, by simp [holds]⟩
    · rintro ⟨other, hother, both⟩
      simp only [Bool.and_eq_true, decide_eq_true_eq] at both
      rw [← List.inj_on_of_nodup_map (placed.nodup_names wf) hother member both.1]
      exact both.2
  have perm : ((vdisk.nodes.map (·.name)).filter picked).Perm (names.dedup.filter picked) := by
    refine List.Perm.filter _ ((List.perm_ext_iff_of_nodup (placed.nodup_names wf)
      (List.nodup_dedup _)).mpr fun name => ?_)
    rw [placed.mem_names_iff, List.mem_dedup]
  have sums := (perm.map names.count).sum_eq
  rw [List.sum_map_count_dedup_filter_eq_countP, List.filter_map, List.map_map] at sums
  rw [byName]
  exact sums

variable {q : Quorum} {world : PutWorld keySize}

/-- The node has acknowledged a replica. -/
private def acknowledges (q : Quorum) (world : PutWorld keySize) (key : BobKey keySize)
    (data : BobData) (vdisk : DataVDisk) (name : NodeName) : Bool :=
  if name = q.mapper.localNodeName then
    (q.mapper.localPaths vdisk).any (q.pathOk world key data vdisk.id)
  else vdisk.nodes.any fun node => node.name = name && (world.call node .newLocal).isOk

/-- A put counts no replica that is not on a node that has acknowledged one. -/
private theorem ackedReplicas_le (placed : q.mapper.WellPlaced id vdisk)
    (wf : q.mapper.WellFormed) :
    q.ackedReplicas world key data vdisk.nodes (Dict.tally (vdisk.replicas.map (·.nodeName)))
        vdisk.id (q.mapper.localPaths vdisk) ≤
      (vdisk.replicas.map (·.nodeName)).countP (acknowledges q world key data vdisk) := by
  let names := vdisk.replicas.map (·.nodeName)
  let remote (node : Node) : Bool :=
    node.name ≠ q.mapper.localNodeName && (world.call node .newLocal).isOk
  have tallied : ((vdisk.nodes.filter remote).map fun node =>
      ((Dict.tally names).lookup node.name).getD 0) =
      (vdisk.nodes.filter remote).map fun node => names.count node.name := by
    refine List.map_congr_left fun node _ => ?_
    rw [Dict.lookup_tally]
    split_ifs with member
    · rfl
    · exact (List.count_eq_zero.mpr member).symm
  -- the replicas here and elsewhere
  have split : names.countP (acknowledges q world key data vdisk) =
      names.countP (fun name => vdisk.nodes.any fun node => node.name = name && remote node) +
      names.countP fun name => name = q.mapper.localNodeName &&
        acknowledges q world key data vdisk name := by
    rw [List.countP_eq_countP_filter_add names _ fun name => name ≠ q.mapper.localNodeName,
      List.countP_filter, List.countP_filter]
    congr 1
    · refine List.countP_congr fun name _ => ?_
      by_cases here : name = q.mapper.localNodeName
      · refine iff_of_false (by simp [here]) fun any => ?_
        obtain ⟨node, -, both⟩ := List.any_eq_true.mp any
        simp only [remote, Bool.and_eq_true, decide_eq_true_eq] at both
        exact both.2.1 (both.1.trans here)
      · simp only [acknowledges, here, if_false, remote, ne_eq]
        simp only [Bool.and_eq_true, List.any_eq_true, decide_eq_true_eq, not_false_eq_true,
          and_true]
        refine exists_congr fun node => and_congr_right fun _ => and_congr_right fun same => ?_
        simp [same, here]
    · refine List.countP_congr fun name _ => ?_
      simp [and_comm]
  have own : q.localOk world key data vdisk.id (q.mapper.localPaths vdisk) ≤
      names.countP fun name => name = q.mapper.localNodeName &&
        acknowledges q world key data vdisk name := by
    cases written : acknowledges q world key data vdisk q.mapper.localNodeName with
    | true =>
      calc q.localOk world key data vdisk.id (q.mapper.localPaths vdisk)
        _ ≤ (q.mapper.localPaths vdisk).length := List.countP_le_length
        _ = names.count q.mapper.localNodeName := Virtual.length_localPaths
        _ ≤ _ := by
          rw [List.count_eq_countP]
          refine List.countP_mono_left fun name _ same => ?_
          rw [beq_iff_eq.mp same, written]
          simp
    | false =>
      rw [acknowledges, if_pos rfl, List.any_eq_false] at written
      rw [Quorum.localOk, List.countP_eq_zero.mpr fun path member => by
        simpa using written path member]
      exact Nat.zero_le _
  rw [Quorum.ackedReplicas, tallied, sum_count_filter_nodes placed wf, split]
  exact Nat.add_le_add_left own _

end Quorums

/-! ## The put and the read -/

section Durable

variable {ext : Externals} (lawful : engine.Lawful)
  (validated : cluster.validate ext.parseUri = .ok ()) (built : d.BuiltFrom cluster)
  {coordinator : NodeName} (listed : coordinator ∈ nodeNames cluster)
  (fits : ∀ vdisk ∈ cluster.vdisks, d.quorum coordinator ≤ vdisk.replicas.length)
  (served : AliensServed cluster net) (fresh : ∀ r, ¬ net.Holds lawful key r)
  {requests : List (NodeName × NodeRequest keySize)} {answers : List Bool}
  (ran : requests.mapM d.serve net = .ok (answers, net'))
  (once : ∀ r, Written requests key r → r = .value data) (stamped : 0 < data.bobMeta.timestamp)
  {world : PutWorld keySize}
  (answered : d.Answered (requests.zip answers) coordinator key data world)
  {outcome : Quorum.PutOutcome keySize}
  (put : (d.policy coordinator).putAtLeast world key data = .ok outcome)
  {reader : NodeName} (asked : reader ∈ nodeNames cluster) {gets : GetWorld keySize}
  (honest : d.Honest net' reader key gets)

include validated built listed fits put in
/-- All nodes route the key alike, and the put keeps its guarantee. -/
private theorem exists_sound_of_put :
    ∃ id vdisk, (∀ name ∈ nodeNames cluster, Routes d cluster key id vdisk name) ∧
      outcome.Sound (d.policy coordinator) world key data vdisk.nodes
        (Dict.tally (vdisk.replicas.map (·.nodeName))) vdisk.id
        ((d.mapper coordinator).localPaths vdisk) := by
  have valid := Cluster.valid_of_validate validated
  obtain ⟨id, vdisk, routes⟩ := built.exists_routes valid key
  have here := routes coordinator listed
  obtain ⟨node, hnode, rfl⟩ := List.mem_map.mp listed
  obtain ⟨config, -, new⟩ := built node hnode
  obtain ⟨source, hsource, -, sameLength⟩ :=
    (Virtual.builtFrom_of_new new).exists_length_eq valid here.stored
  obtain ⟨outcome', put', sound⟩ := Quorum.exists_sound_put (q := d.policy ⟨node.name⟩) world data
    here.wellFormed here.vdiskId here.stored (sameLength ▸ fits source hsource)
  cases put.symm.trans put'
  exact ⟨id, vdisk, routes, sound⟩

include served fresh ran once stamped asked honest in
private theorem get_of_hasCopy_after
    (routes : ∀ name ∈ nodeNames cluster, Routes d cluster key id vdisk name) {name : NodeName}
    (member : name ∈ nodeNames cluster) (copy : HasCopy d lawful net' vdisk key data name)
    (heard : name = reader ∨ d.Hears net' key gets name) :
    (d.policy reader).get gets key = .ok (.ok data) := by
  obtain ⟨step, -⟩ := yields_requests lawful d requests net answers net' ran
  have served' : AliensServed cluster net' := fun name member =>
    (step name).alien.isAlien.trans (served name member)
  exact get_of_hasCopy routes served' (sole_of_once ran fresh once) stamped asked member copy
    honest heard

end Durable

/-! ## The small cluster -/

/-- The disk of a node of the small cluster. -/
def smallDisk : DiskPath := ⟨⟨"disk1"⟩, "/mnt/1"⟩

/-- What a put from the first node of the small cluster meets: its own disk takes the data,
and the calls that are listed succeed. -/
def listedWorld (calls : List (NodeName × BobPutOptions)) : PutWorld 8 where
  call := fun node options => if (node.name, options) ∈ calls then .ok () else .error ⟨.timeout⟩
  backend := { BackendStorage.accepting with
    put := fun op _ _ => if op = .newLocal 0 smallDisk then .ok () else .error .internal
    putAlien := fun _ _ _ => .error .internal }
  available := fun _ _ => true
  supportOffset := 0
  order := .launched

private theorem answered_listedWorld {calls : List (NodeName × BobPutOptions)}
    {log : List ((NodeName × NodeRequest 8) × Bool)} {data : BobData}
    (served : ∀ call ∈ calls, ((call.1, .put pairKey data call.2), true) ∈ log)
    (stored : ((⟨"alpha"⟩, .putLocal pairKey data (.newLocal 0 smallDisk)), true) ∈ log) :
    smallDeployment.Answered log ⟨"alpha"⟩ pairKey data (listedWorld calls) where
  call := by
    intro node options acked
    by_cases listed : (node.name, options) ∈ calls
    · exact served _ listed
    · rw [listedWorld] at acked
      dsimp only at acked
      rw [if_neg listed] at acked
      cases acked
  putLocal := by
    intro op acked
    by_cases here : op = .newLocal 0 smallDisk
    · exact here ▸ stored
    · -- the disk refuses, and so does the alien store
      have refused : (Backend.putLocal (m := Id) (listedWorld calls).backend
          (smallDeployment.mapper ⟨"alpha"⟩) pairKey data op).isOk = false := by
        unfold Backend.putLocal Backend.putSingle
        split_ifs with alien
        · rfl
        · have failed : (listedWorld calls).backend.put op pairKey data =
              (.error .internal : Except (Error 8) Unit) := if_neg here
          rw [failed]
          rfl
      rw [refused] at acked
      cases acked

theorem served_freshNetwork : AliensServed Virtual.smallCluster freshNetwork :=
  fun _ _ => rfl

private theorem quorum_fits_smallCluster : ∀ vdisk ∈ Virtual.smallCluster.vdisks,
    smallDeployment.quorum ⟨"alpha"⟩ ≤ vdisk.replicas.length := by
  decide

theorem once_of_all {requests : List (NodeName × NodeRequest 8)} {key : BobKey 8}
    {data : BobData} (all : (requests.all fun request => request.2.writes.all fun written =>
      written.1 ≠ key || written.2 = .value data) = true) :
    ∀ r, Written requests key r → r = .value data := by
  rintro r ⟨request, member, writes⟩
  have here := List.all_eq_true.mp all request member
  rw [writes] at here
  simpa using here

/-- The second target does not answer, so the copy for it goes to the third node. A delete of
another key is served in between. -/
def handoffRequests : List (NodeName × NodeRequest 8) :=
  [(⟨"alpha"⟩, .putLocal pairKey ⟨[1], ⟨7⟩⟩ (.newLocal 0 smallDisk)),
    (⟨"beta"⟩, .delete Pearl.doubleKey ⟨8⟩ .newLocal),
    (⟨"gamma"⟩, .put pairKey ⟨[1], ⟨7⟩⟩ (.newAlien [⟨"beta"⟩]))]

/-- Both targets take the data. -/
def pairRequests : List (NodeName × NodeRequest 8) :=
  [(⟨"beta"⟩, .put pairKey ⟨[1], ⟨7⟩⟩ .newLocal),
    (⟨"alpha"⟩, .putLocal pairKey ⟨[1], ⟨7⟩⟩ (.newLocal 0 smallDisk))]

/-- A read from the third node that hears from the second only. -/
def deafWorld (net : Network (logEngine 8)) : GetWorld 8 :=
  { smallDeployment.getWorld net ⟨"gamma"⟩ .launched .launched with
    call := fun node options key =>
      if node.name = ⟨"beta"⟩ then
        (smallDeployment.getWorld net ⟨"gamma"⟩ .launched .launched).call node options key
      else .error ⟨.timeout⟩ }

end Bob.Cluster

/-
# Quorum put

A put goes to all target nodes at once. It waits until enough replicas are
acknowledged, or until every call has finished. With a quorum the remaining calls
continue in the background; without one the failed nodes get alien copies before
the put returns. Either way the nodes that did not acknowledge are handed to
`putAliens`, which places one copy per failed node: on a support node, or else in
the alien store of this node.

Logging is not modelled. That includes the arguments of the log lines.
-/

import Bob.Cluster.Operations
import Bob.Common.SupportNodes

namespace Bob.Cluster

open Bob.Math Bob.Configs

variable {keySize : ℕ}

/-- The calls of a put to the target nodes. -/
abbrev PutTask (keySize : ℕ) := CallResult RemotePutResponse (RemotePutError keySize)

/-- Everything outside the node that a put depends on: what each remote call and
each local write answers, which nodes are connected, the value of the shared
offset, and the order in which the calls finish. -/
structure PutWorld (keySize : ℕ) where
  call : Node → BobPutOptions → Except (Error keySize) Unit
  backend : BackendStorage Id keySize
  available : Availability
  supportOffset : ℕ
  order : AnyOrder (PutTask keySize)

/-! ## Writing to the nodes -/

section Operations

variable (world : PutWorld keySize) (mapper : Virtual) (key : BobKey keySize) (data : BobData)

def callNodePut (node : Node) (options : BobPutOptions) (affectedReplicas : ℕ) :
    PutTask keySize :=
  match callNode node (world.call node options) with
  | .ok o => .ok (o.map fun _ => ⟨affectedReplicas⟩)
  | .error o => .error (o.map fun e => ⟨affectedReplicas, e⟩)

/-- The `put_at_least` of the operations module: one call per target node. -/
def putAtLeastCalls (targetNodes : List Node) (atLeast : ℕ) (options : BobPutOptions)
    (affectedReplicasByNode : Dict NodeName ℕ) :
    List (PutTask keySize) × Gathered RemotePutResponse (RemotePutError keySize) :=
  callAtLeast world.order targetNodes atLeast fun n =>
    callNodePut world n options ((affectedReplicasByNode.lookup n.name).getD 1)

def putLocalNode (vdiskId : VDiskId) (diskPath : DiskPath) : Except (Error keySize) Unit :=
  Backend.putLocal (m := Id) world.backend mapper key data (Operation.newLocal vdiskId diskPath)

/-- Write to every local path, and count the successes. -/
def putLocalNodeAll (vdiskId : VDiskId) (diskPaths : List DiskPath) : ℕ :=
  diskPaths.foldl (fun successes path =>
    match putLocalNode world mapper key data vdiskId path with
    | .ok _ => successes + 1
    | .error _ => successes) 0

/-- Write an alien copy for each name; the error lists the names without one. -/
def putLocalAll (nodeNames : List NodeName) (operation : Operation) : Except BobPutOptions Unit :=
  let addNodes := nodeNames.foldl (fun addNodes nodeName =>
    let op := operation.setRemoteNodeName nodeName
    match Backend.putLocal (m := Id) world.backend mapper key data op with
    | .ok _ => addNodes
    | .error _ => addNodes ++ [nodeName]) []
  if addNodes.isEmpty then .ok () else .error (.newAlien addNodes)

/-- Send the requests one after the other. A failed one is reported under the
name of the node its data belongs to. -/
def putSupNodes (ret : List (NodeOutput (Error keySize))) :
    List (Node × BobPutOptions) → Except Panic (List (NodeOutput (Error keySize)))
  | [] => .ok ret
  | (node, options) :: rest =>
    match world.call node options with
    | .ok _ => putSupNodes ret rest
    | .error e =>
      -- the source indexes the list of names
      match options.remoteNodes.head? with
      | none => .error ⟨"index out of bounds: the len is 0 but the index is 0"⟩
      | some targetNode => putSupNodes (ret ++ [⟨targetNode, e⟩]) rest

end Operations

namespace Quorum

variable (q : Quorum) (world : PutWorld keySize) (key : BobKey keySize) (data : BobData)

def putRemoteNodes (atLeast : ℕ) (affectedReplicasByNode : Dict NodeName ℕ) :
    Except Panic (List (PutTask keySize) ×
      Gathered RemotePutResponse (RemotePutError keySize)) := do
  let targetNodes ← q.mapper.getTargetNodesForKey key
  let targetNodes := targetNodes.filter fun node => node.name ≠ q.mapper.localNodeName
  pure (putAtLeastCalls world targetNodes atLeast .newLocal affectedReplicasByNode)

/-- What `put_aliens` did: the requests to support nodes, the names it wrote to
the local alien store, and its result. -/
structure AlienPut (keySize : ℕ) where
  queries : List (Node × BobPutOptions)
  localNames : List NodeName
  result : Except (Error keySize) Unit

def putAliens (failedNodes : List NodeName) : Except Panic (AlienPut keySize) := do
  if failedNodes.isEmpty then
    return ⟨[], [], .error Error.internal⟩
  let supNodes ← q.mapper.getSupportNodes world.available world.supportOffset key
    failedNodes.length
  -- the range of `drain` must lie inside the list
  if supNodes.length > failedNodes.length then
    throw ⟨s!"range end index {supNodes.length} out of range for slice of length " ++
      s!"{failedNodes.length}"⟩
  let nodesNeedRemoteBackup := failedNodes.take supNodes.length
  let failedNodes := failedNodes.drop supNodes.length
  let queries := (supNodes.zip nodesNeedRemoteBackup).map fun (node, remoteNode) =>
    (node, BobPutOptions.newAlien [remoteNode])
  let supNodesErrors ← putSupNodes world [] queries
  let failedNodes := failedNodes ++ supNodesErrors.map fun err => err.nodeName
  let vdiskId ← q.mapper.vdiskIdFromKey key
  match putLocalAll world q.mapper key data failedNodes (Operation.newAlien vdiskId) with
  | .error _ => return ⟨queries, failedNodes, .error Error.internal⟩
  | .ok _ => return ⟨queries, failedNodes, .ok ()⟩

/-- Where the put stands when its waiting loop has stopped. -/
structure TargetPhase (keySize : ℕ) where
  /-- Calls that are still running. -/
  tasks : List (PutTask keySize)
  oks : List (NodeOutput RemotePutResponse)
  errors : List (NodeOutput (RemotePutError keySize))
  localPutOk : ℕ
  failedNodes : List NodeName

/-- Write to the target nodes and to the local paths. -/
def putTargets : Except Panic (TargetPhase keySize) := do
  let (vdiskId, diskPaths) ← q.mapper.getOperation key
  let affectedReplicasByNode ← q.mapper.getReplicasCountByNode key
  let (tasks, gathered) ← q.putRemoteNodes world key q.quorum affectedReplicasByNode
  match diskPaths with
  | some paths =>
    let localPuts := putLocalNodeAll world q.mapper key data vdiskId paths
    -- a single failed path makes the node a failed one, though its successes still count
    let failedNodes := if localPuts ≠ paths.length then [q.mapper.localNodeName] else []
    return ⟨tasks, gathered.oks, gathered.errors, localPuts,
      failedNodes ++ gathered.errors.map fun e => e.nodeName⟩
  | none =>
    return ⟨tasks, gathered.oks, gathered.errors, 0, gathered.errors.map fun e => e.nodeName⟩

/-- The acknowledged replicas the put has seen reach the quorum. -/
def TargetPhase.quorumReached (phase : TargetPhase keySize) (quorum : ℕ) : Bool :=
  (phase.oks.map fun f => f.inner.affectedReplicas).sum + phase.localPutOk ≥ quorum

/-- Wait for the calls that were left running, then place copies for all failed
nodes. Returns the names handed to `put_aliens` with what it did. -/
def backgroundPut (restTasks : List (PutTask keySize)) (failedNodes : List NodeName) :
    Except Panic (Option (List NodeName × AlienPut keySize)) := do
  let failedNodes := restTasks.foldl (fun failedNodes joinRes =>
    match joinRes with
    | .ok _ => failedNodes
    | .error e => failedNodes ++ [e.nodeName]) failedNodes
  if failedNodes.isEmpty then
    return none
  let aliens ← q.putAliens world key data failedNodes
  return some (failedNodes, aliens)

/-- A whole put, including what it leaves to the background. -/
structure PutOutcome (keySize : ℕ) where
  phase : TargetPhase keySize
  /-- The names handed to `put_aliens`, if it was called, with what it did. -/
  aliens : Option (List NodeName × AlienPut keySize)
  result : Except (Error keySize) Unit

def putAtLeast : Except Panic (PutOutcome keySize) := do
  let phase ← q.putTargets world key data
  if phase.quorumReached q.quorum then
    if phase.tasks.isEmpty && phase.failedNodes.isEmpty then
      return ⟨phase, none, .ok ()⟩
    -- spawned: the put answers without waiting for it
    let aliens ← q.backgroundPut world key data phase.tasks phase.failedNodes
    return ⟨phase, aliens, .ok ()⟩
  else
    if !phase.tasks.isEmpty then
      throw ⟨"All target nodes put are expected to be completed before alien put begins"⟩
    let aliens ← q.putAliens world key data phase.failedNodes
    return ⟨phase, some (phase.failedNodes, aliens), aliens.result⟩

end Quorum

/-! ## Local writes and support nodes -/

section Lemmas

variable {world : PutWorld keySize} {mapper : Virtual} {key : BobKey keySize} {data : BobData}
  {vdiskId : VDiskId}

theorem putLocalNodeAll_eq {diskPaths : List DiskPath} :
    putLocalNodeAll world mapper key data vdiskId diskPaths =
      diskPaths.countP fun path => (putLocalNode world mapper key data vdiskId path).isOk := by
  -- the loop counts up from any number of earlier successes
  have counts (start : ℕ) : diskPaths.foldl (fun successes path =>
      match putLocalNode world mapper key data vdiskId path with
      | .ok _ => successes + 1
      | .error _ => successes) start = start +
        diskPaths.countP fun path => (putLocalNode world mapper key data vdiskId path).isOk := by
    induction diskPaths generalizing start with
    | nil => rfl
    | cons path rest ih =>
      rw [List.foldl_cons, ih, List.countP_cons]
      cases putLocalNode world mapper key data vdiskId path with
      | ok _ =>
        simp only [Except.isOk, Except.toBool, if_true]
        omega
      | error _ => simp [Except.isOk, Except.toBool]
  rw [putLocalNodeAll, counts, Nat.zero_add]

/-- The local alien copy for a name was written. -/
def localAlienOk (world : PutWorld keySize) (mapper : Virtual) (key : BobKey keySize)
    (data : BobData) (vdiskId : VDiskId) (name : NodeName) : Bool :=
  (Backend.putLocal (m := Id) world.backend mapper key data
    ((Operation.newAlien vdiskId).setRemoteNodeName name)).isOk

theorem putLocalAll_eq_ok_iff {names : List NodeName} :
    putLocalAll world mapper key data names (Operation.newAlien vdiskId) = .ok () ↔
      ∀ name ∈ names, localAlienOk world mapper key data vdiskId name = true := by
  have failures (start : List NodeName) : names.foldl (fun addNodes nodeName =>
      match Backend.putLocal (m := Id) world.backend mapper key data
        ((Operation.newAlien vdiskId).setRemoteNodeName nodeName) with
      | .ok _ => addNodes
      | .error _ => addNodes ++ [nodeName]) start =
        start ++ names.filter fun name => !localAlienOk world mapper key data vdiskId name := by
    induction names generalizing start with
    | nil => simp
    | cons name rest ih =>
      rw [List.foldl_cons, ih, List.filter_cons, localAlienOk]
      cases Backend.putLocal (m := Id) world.backend mapper key data
          ((Operation.newAlien vdiskId).setRemoteNodeName name) with
      | ok _ => simp [Except.isOk, Except.toBool]
      | error _ => simp [Except.isOk, Except.toBool]
  rw [putLocalAll, failures, List.nil_append]
  split_ifs with none
  · simpa using none
  · simpa using none

/-- The request for an alien copy of `name` on a support node. -/
private def toQuery (pair : Node × NodeName) : Node × BobPutOptions :=
  (pair.1, .newAlien [pair.2])

private def supOk (world : PutWorld keySize) (pair : Node × NodeName) : Bool :=
  (world.call pair.1 (.newAlien [pair.2])).isOk

/-- Failed requests are reported under the names whose copies they carried. -/
private theorem exists_putSupNodes (world : PutWorld keySize) (pairs : List (Node × NodeName))
    (ret : List (NodeOutput (Error keySize))) :
    ∃ errors, putSupNodes world ret (pairs.map toQuery) = .ok errors ∧
      errors.map (·.nodeName) =
        ret.map (·.nodeName) ++ (pairs.filter fun pair => !supOk world pair).map Prod.snd := by
  induction pairs generalizing ret with
  | nil => exact ⟨ret, rfl, by simp⟩
  | cons pair rest ih =>
    rw [List.map_cons, toQuery, putSupNodes, List.filter_cons, supOk]
    cases world.call pair.1 (.newAlien [pair.2]) with
    | ok _ => exact ih ret
    | error e =>
      obtain ⟨errors, sent, names⟩ := ih (ret ++ [⟨pair.2, e⟩])
      refine ⟨errors, sent, ?_⟩
      simp [names, Except.isOk, Except.toBool]

end Lemmas

namespace Quorum

variable {q : Quorum} {world : PutWorld keySize} {key : BobKey keySize} {data : BobData}

/-- There is an acknowledged alien copy under `name`: on a support node, or in the
local alien store. -/
def AlienPut.HasCopy (aliens : AlienPut keySize) (q : Quorum) (world : PutWorld keySize)
    (key : BobKey keySize) (data : BobData) (vdiskId : VDiskId) (name : NodeName) : Prop :=
  (∃ node, (node, BobPutOptions.newAlien [name]) ∈ aliens.queries ∧
    (world.call node (.newAlien [name])).isOk = true) ∨
  (name ∈ aliens.localNames ∧ localAlienOk world q.mapper key data vdiskId name = true)

/-- Every failed name is either paired with a support node or kept for the local
alien store. A copy is missing exactly when the local store is asked and fails. -/
private theorem forall_hasCopy_iff {supNodes : List Node} {failedNodes : List NodeName}
    {vdiskId : VDiskId} {result : Except (Error keySize) Unit} (distinct : failedNodes.Nodup)
    (short : supNodes.length ≤ failedNodes.length) :
    let pairs := supNodes.zip (failedNodes.take supNodes.length)
    let localNames := failedNodes.drop supNodes.length ++
      (pairs.filter fun pair => !supOk world pair).map Prod.snd
    (∀ name ∈ localNames, localAlienOk world q.mapper key data vdiskId name = true) ↔
      ∀ name ∈ failedNodes, (AlienPut.mk (pairs.map toQuery) localNames result).HasCopy
        q world key data vdiskId name := by
  intro pairs localNames
  have seconds : pairs.map Prod.snd = failedNodes.take supNodes.length :=
    List.map_snd_zip (by simp [short])
  -- names sent to support nodes and names kept here are different
  have apart : (pairs.map Prod.snd ++ failedNodes.drop supNodes.length).Nodup := by
    rw [seconds, List.take_append_drop]
    exact distinct
  constructor
  · intro written name hname
    rw [← List.take_append_drop supNodes.length failedNodes, List.mem_append, ← seconds] at hname
    rcases hname with paired | kept
    · obtain ⟨pair, hpair, rfl⟩ := List.mem_map.mp paired
      by_cases acked : supOk world pair = true
      · exact Or.inl ⟨pair.1, List.mem_map.mpr ⟨pair, hpair, rfl⟩, acked⟩
      -- a support node refused: the name comes back to the local store
      · have again : pair.2 ∈ localNames := List.mem_append_right _
          (List.mem_map.mpr ⟨pair, List.mem_filter.mpr ⟨hpair, by simpa using acked⟩, rfl⟩)
        exact Or.inr ⟨again, written _ again⟩
    · have again : name ∈ localNames := List.mem_append_left _ kept
      exact Or.inr ⟨again, written _ again⟩
  · intro copies name hname
    have failed : name ∈ failedNodes := by
      rcases List.mem_append.mp hname with kept | refused
      · exact List.mem_of_mem_drop kept
      · obtain ⟨pair, hpair, rfl⟩ := List.mem_map.mp refused
        have := List.mem_map_of_mem (f := Prod.snd) (List.mem_filter.mp hpair).1
        rw [seconds] at this
        exact List.mem_of_mem_take this
    rcases copies name failed with ⟨node, queried, acked⟩ | ⟨_, written⟩
    · -- the copy on a support node would make the name one that is not kept here
      exfalso
      obtain ⟨pair, hpair, same⟩ := List.mem_map.mp queried
      obtain ⟨rfl, rfl⟩ : pair.1 = node ∧ pair.2 = name := by
        simpa [toQuery, BobPutOptions.newAlien] using same
      rcases List.mem_append.mp hname with kept | refused
      · exact (List.nodup_append.mp apart).2.2 _ (List.mem_map_of_mem hpair) _ kept rfl
      · obtain ⟨other, hother, sameName⟩ := List.mem_map.mp refused
        obtain ⟨hother, notAcked⟩ := List.mem_filter.mp hother
        have : other = pair := List.inj_on_of_nodup_map (List.nodup_append.mp apart).1
          hother hpair sameName
        rw [this, supOk, acked] at notAcked
        simp at notAcked
    · exact written

/-- Handing distinct failed nodes to `putAliens` succeeds exactly when each of
them gets an acknowledged copy under its own name. Support nodes are members of
the cluster and not targets of the key. -/
theorem exists_putAliens (world : PutWorld keySize) (data : BobData) {vdisk : DataVDisk}
    {id : VDiskId} (wf : q.mapper.WellFormed)
    (hid : q.mapper.vdiskIdFromKey key = .ok id) (hvdisk : q.mapper.vdisks.lookup id = some vdisk)
    {failedNodes : List NodeName} (some : failedNodes ≠ []) (distinct : failedNodes.Nodup) :
    ∃ aliens, q.putAliens world key data failedNodes = .ok aliens ∧
      (aliens.result = .ok () ↔
        ∀ name ∈ failedNodes, aliens.HasCopy q world key data id name) ∧
      ∀ query ∈ aliens.queries,
        query.1 ∈ q.mapper.nodes ∧ query.1.index ∉ vdisk.nodes.map (·.index) := by
  obtain ⟨supNodes, hsup, chosen⟩ := wf.exists_supportNodes world.available world.supportOffset key
    failedNodes.length (Virtual.getTargetNodesForKey_eq hid hvdisk)
  let pairs := supNodes.zip (failedNodes.take supNodes.length)
  obtain ⟨errors, sent, names⟩ := exists_putSupNodes world pairs []
  have short : ¬ supNodes.length > failedNodes.length := not_lt.mpr chosen.length_le
  have empty : failedNodes.isEmpty = false := by simpa using some
  -- the body of `putAliens` with its two loops replaced by what they collect
  have evaluated : q.putAliens world key data failedNodes = .ok
      ⟨pairs.map toQuery, failedNodes.drop supNodes.length ++ errors.map (·.nodeName),
        (putLocalAll world q.mapper key data
          (failedNodes.drop supNodes.length ++ errors.map (·.nodeName))
          (Operation.newAlien id)).mapError fun _ => Error.internal⟩ := by
    simp only [putAliens, empty, hsup, Bool.false_eq_true, if_false, bind, Except.bind, short]
    rw [show putSupNodes world [] (List.map (fun x => (x.1, BobPutOptions.newAlien [x.2])) pairs) =
      .ok errors from sent, hid]
    dsimp only
    cases putLocalAll world q.mapper key data
      (failedNodes.drop supNodes.length ++ errors.map (·.nodeName)) (Operation.newAlien id) <;> rfl
  rw [names, List.map_nil, List.nil_append] at evaluated
  refine ⟨_, evaluated, ?_, fun query hquery => ?_⟩
  · refine Iff.trans ?_ (forall_hasCopy_iff distinct chosen.length_le)
    rw [mapError_eq_ok_iff, putLocalAll_eq_ok_iff]
  · obtain ⟨pair, hpair, rfl⟩ := List.mem_map.mp hquery
    have listed := (List.of_mem_zip hpair).1
    exact ⟨chosen.mem_ring _ listed, Virtual.isFree_iff.mp (chosen.free _ listed)⟩

/-! ## The target nodes -/

/-- The calls to the remote target nodes, as they are launched. -/
def launched (q : Quorum) (world : PutWorld keySize) (targets : List Node)
    (counts : Dict NodeName ℕ) : List (PutTask keySize) :=
  (targets.filter fun node => node.name ≠ q.mapper.localNodeName).map fun node =>
    callNodePut world node .newLocal ((counts.lookup node.name).getD 1)

/-- The backend of this node took the data for a path. -/
def pathOk (q : Quorum) (world : PutWorld keySize) (key : BobKey keySize) (data : BobData)
    (vdiskId : VDiskId) (path : DiskPath) : Bool :=
  (Backend.putLocal (m := Id) world.backend q.mapper key data (.newLocal vdiskId path)).isOk

/-- The number of local paths that were written. -/
def localOk (q : Quorum) (world : PutWorld keySize) (key : BobKey keySize) (data : BobData)
    (vdiskId : VDiskId) (paths : List DiskPath) : ℕ :=
  paths.countP (q.pathOk world key data vdiskId)

/-- The local node, if not all of its paths were written. -/
def localFailed (q : Quorum) (world : PutWorld keySize) (key : BobKey keySize) (data : BobData)
    (vdiskId : VDiskId) (paths : List DiskPath) : List NodeName :=
  if q.localOk world key data vdiskId paths ≠ paths.length then [q.mapper.localNodeName] else []

/-- The calls that have finished when the waiting loop stops, and those that have not. -/
private def finished (q : Quorum) (world : PutWorld keySize) (vdisk : DataVDisk) :
    List (PutTask keySize) × List (PutTask keySize) :=
  consumeUntil replicasOf q.quorum 0 (world.order.arrange
    (q.launched world vdisk.nodes (Dict.tally (vdisk.replicas.map (·.nodeName)))))

/-- What is known when the waiting loop stops. -/
private def stopped (q : Quorum) (world : PutWorld keySize) (key : BobKey keySize)
    (data : BobData) (vdisk : DataVDisk) : TargetPhase keySize where
  tasks := (q.finished world vdisk).2
  oks := (q.finished world vdisk).1.filterMap okOf
  errors := (q.finished world vdisk).1.filterMap errorOf
  localPutOk := q.localOk world key data vdisk.id (q.mapper.localPaths vdisk)
  failedNodes := q.localFailed world key data vdisk.id (q.mapper.localPaths vdisk) ++
    ((q.finished world vdisk).1.filterMap errorOf).map (·.nodeName)

private theorem putTargets_eq (world : PutWorld keySize) (data : BobData) {vdisk : DataVDisk}
    {id : VDiskId} (hid : q.mapper.vdiskIdFromKey key = .ok id)
    (hvdisk : q.mapper.vdisks.lookup id = some vdisk) :
    q.putTargets world key data = .ok (q.stopped world key data vdisk) := by
  let finished := q.finished world vdisk
  have remote : q.putRemoteNodes world key q.quorum
      (Dict.tally (vdisk.replicas.map (·.nodeName))) = .ok
        (finished.2, ⟨finished.1.filterMap okOf, finished.1.filterMap errorOf⟩) := by
    rw [putRemoteNodes, Virtual.getTargetNodesForKey_eq hid hvdisk]
    simp only [bind, Except.bind, pure, Except.pure, putAtLeastCalls, callAtLeast,
      finishAtLeastHandles_eq, List.nil_append]
    rfl
  rw [putTargets, Virtual.getOperation_eq hid hvdisk, Virtual.getReplicasCountByNode_eq hid hvdisk]
  simp only [bind, Except.bind, remote, pure, Except.pure]
  by_cases none : (q.mapper.localPaths vdisk).isEmpty = true
  · have nil : q.mapper.localPaths vdisk = [] := List.isEmpty_iff.mp none
    simp [nil, stopped, localOk, localFailed, finished]
  · simp only [none, Bool.false_eq_true, if_false, putLocalNodeAll_eq]
    rfl

/-- A target node acknowledged: all paths of the local node, the call to another. -/
def acked (q : Quorum) (world : PutWorld keySize) (key : BobKey keySize) (data : BobData)
    (vdiskId : VDiskId) (paths : List DiskPath) (node : Node) : Bool :=
  if node.name = q.mapper.localNodeName then
    paths.all (q.pathOk world key data vdiskId)
  else (world.call node .newLocal).isOk

/-- The acknowledged replicas: those of the remote target nodes that acknowledge,
and the local paths that were written. -/
def ackedReplicas (q : Quorum) (world : PutWorld keySize) (key : BobKey keySize) (data : BobData)
    (targets : List Node) (counts : Dict NodeName ℕ) (vdiskId : VDiskId)
    (paths : List DiskPath) : ℕ :=
  ((targets.filter fun node =>
      node.name ≠ q.mapper.localNodeName && (world.call node .newLocal).isOk).map
    fun node => (counts.lookup node.name).getD 0).sum +
  q.localOk world key data vdiskId paths

private theorem replicasOf_callNodePut {node : Node} {options : BobPutOptions} {count : ℕ} :
    replicasOf (callNodePut world node options count) =
      if (world.call node options).isOk then count else 0 := by
  unfold callNodePut callNode
  cases world.call node options <;> rfl

private theorem errorOf_callNodePut {node : Node} {options : BobPutOptions} {count : ℕ} :
    (errorOf (callNodePut world node options count)).map (·.nodeName) =
      if (world.call node options).isOk then none else some node.name := by
  unfold callNodePut callNode
  cases world.call node options <;> rfl

/-- The replicas accounted for by all calls together. -/
private theorem sum_replicas_launched {targets : List Node} {counts : Dict NodeName ℕ}
    (counted : ∀ node ∈ targets, ∃ count, counts.lookup node.name = some count) :
    ((world.order.arrange (q.launched world targets counts)).map replicasOf).sum =
      ((targets.filter fun node =>
          node.name ≠ q.mapper.localNodeName && (world.call node .newLocal).isOk).map
        fun node => (counts.lookup node.name).getD 0).sum := by
  -- the sum does not depend on the order in which the calls finish
  rw [((world.order.perm _).map replicasOf).sum_eq, launched]
  induction targets with
  | nil => rfl
  | cons node rest ih =>
    have ih := ih fun other hother => counted other (List.mem_cons_of_mem _ hother)
    obtain ⟨count, hcount⟩ := counted node List.mem_cons_self
    by_cases here : node.name = q.mapper.localNodeName
    · simpa [here] using ih
    · by_cases acks : (world.call node .newLocal).isOk = true
      · simpa [here, acks, hcount, replicasOf_callNodePut] using ih
      · simpa [here, acks, hcount, replicasOf_callNodePut] using ih

/-- The names under which calls failed, whether or not the put waited for them. -/
private theorem names_failed_launched {targets : List Node} {counts : Dict NodeName ℕ} :
    (((world.order.arrange (q.launched world targets counts)).filterMap errorOf).map
      (·.nodeName)).Perm
      ((targets.filter fun node => node.name ≠ q.mapper.localNodeName &&
        !(world.call node .newLocal).isOk).map (·.name)) := by
  refine (((world.order.perm _).filterMap errorOf).map _).trans (.of_eq ?_)
  rw [launched, List.map_filterMap, List.filterMap_map, List.filterMap_filter]
  induction targets with
  | nil => rfl
  | cons node rest ih =>
    by_cases here : node.name = q.mapper.localNodeName
    · simpa [here] using ih
    · by_cases acks : (world.call node .newLocal).isOk = true
      · simpa [here, acks, errorOf_callNodePut, List.filterMap_cons] using ih
      · simpa [here, acks, errorOf_callNodePut, List.filterMap_cons] using ih

/-- All failed nodes: the local one if a path failed, and those whose calls failed. -/
private def failedNames (q : Quorum) (world : PutWorld keySize) (key : BobKey keySize)
    (data : BobData) (vdisk : DataVDisk) : List NodeName :=
  q.localFailed world key data vdisk.id (q.mapper.localPaths vdisk) ++
    ((world.order.arrange (q.launched world vdisk.nodes
      (Dict.tally (vdisk.replicas.map (·.nodeName))))).filterMap errorOf).map (·.nodeName)

section Failed

variable {vdisk : DataVDisk} {id : VDiskId}

private theorem localFailed_eq {paths : List DiskPath} :
    q.localFailed world key data id paths =
      if paths.all (q.pathOk world key data id) then [] else [q.mapper.localNodeName] := by
  unfold localFailed localOk
  by_cases all : ∀ path ∈ paths, q.pathOk world key data id path = true
  · rw [if_neg (by simpa [List.countP_eq_length] using all), if_pos (List.all_eq_true.mpr all)]
  · rw [if_pos (by simpa [List.countP_eq_length] using all),
      if_neg (by simpa [List.all_eq_true] using all)]

private theorem nodup_failedNames (wf : q.mapper.WellFormed)
    (placed : q.mapper.WellPlaced id vdisk) :
    (q.failedNames world key data vdisk).Nodup := by
  rw [failedNames, List.nodup_append]
  refine ⟨?_, ?_, ?_⟩
  · rw [localFailed_eq]
    split_ifs <;> simp
  · rw [names_failed_launched.nodup_iff]
    exact (placed.nodup_names wf).sublist (List.filter_sublist.map _)
  · intro name here other there same
    rw [localFailed_eq] at here
    split_ifs at here with ok
    · cases here
    -- the local node is never called
    obtain ⟨node, hnode, rfl⟩ := List.mem_map.mp (names_failed_launched.mem_iff.mp there)
    simp [← same, List.mem_singleton.mp here] at hnode

/-- A name is among the failed ones when a target node of that name did not
acknowledge. -/
private theorem mem_failedNames_iff (placed : q.mapper.WellPlaced id vdisk) {name : NodeName} :
    name ∈ q.failedNames world key data vdisk ↔ ∃ node ∈ vdisk.nodes, node.name = name ∧
      q.acked world key data vdisk.id (q.mapper.localPaths vdisk) node = false := by
  rw [failedNames, List.mem_append, names_failed_launched.mem_iff, localFailed_eq]
  unfold acked
  rw [← placed.failed_iff fun empty => by rw [empty]; rfl]
  apply or_congr Iff.rfl
  simp only [List.mem_map, List.mem_filter, Bool.and_eq_true, Bool.not_eq_true', and_assoc]
  exact exists_congr fun node => by tauto

/-- If every target node acknowledges, all replicas are acknowledged. -/
private theorem ackedReplicas_eq_length (wf : q.mapper.WellFormed)
    (placed : q.mapper.WellPlaced id vdisk)
    (all : ∀ node ∈ vdisk.nodes,
      q.acked world key data vdisk.id (q.mapper.localPaths vdisk) node = true) :
    q.ackedReplicas world key data vdisk.nodes (Dict.tally (vdisk.replicas.map (·.nodeName)))
      vdisk.id (q.mapper.localPaths vdisk) = vdisk.replicas.length := by
  rw [← placed.sum_count_remote_nodes wf, ackedReplicas]
  congr 1
  · have same : (vdisk.nodes.filter fun node =>
          node.name ≠ q.mapper.localNodeName && (world.call node .newLocal).isOk) =
        vdisk.nodes.filter fun node => node.name ≠ q.mapper.localNodeName := by
      refine List.filter_congr fun node listed => ?_
      have acks := all node listed
      by_cases here : node.name = q.mapper.localNodeName
      · simp [here]
      · rw [acked, if_neg here] at acks
        simp [here, acks]
    rw [same]
    refine congrArg List.sum (List.map_congr_left fun node _ => ?_)
    rw [Dict.lookup_tally]
    split_ifs with member
    · rfl
    · exact (List.count_eq_zero.mpr member).symm
  · rw [localOk, List.countP_eq_length]
    intro path hpath
    have nonempty : q.mapper.localPaths vdisk ≠ [] := List.ne_nil_of_mem hpath
    obtain ⟨node, listed, named⟩ := List.mem_map.mp (placed.local_mem_iff.mpr nonempty)
    have acks := all node listed
    rw [acked, if_pos named] at acks
    exact List.all_eq_true.mp acks path hpath

end Failed

/-! ## The whole put -/

/-- The names handed to `put_aliens`. -/
def PutOutcome.handed (outcome : PutOutcome keySize) : List NodeName :=
  match outcome.aliens with
  | some (names, _) => names
  | none => []

/-- What `put_aliens` did with the names. -/
def PutsAliens (q : Quorum) (world : PutWorld keySize) (key : BobKey keySize) (data : BobData)
    (vdiskId : VDiskId) (names : List NodeName) (aliens : AlienPut keySize) : Prop :=
  q.putAliens world key data names = .ok aliens ∧
    (aliens.result = .ok () ↔ ∀ name ∈ names, aliens.HasCopy q world key data vdiskId name)

/-- What a finished put guarantees about the target nodes of its key. -/
structure PutOutcome.Sound (outcome : PutOutcome keySize) (q : Quorum) (world : PutWorld keySize)
    (key : BobKey keySize) (data : BobData) (targets : List Node) (counts : Dict NodeName ℕ)
    (vdiskId : VDiskId) (paths : List DiskPath) : Prop where
  /-- The quorum branch depends on the acknowledged replicas only. -/
  reached_iff : outcome.phase.quorumReached q.quorum = true ↔
    q.quorum ≤ q.ackedReplicas world key data targets counts vdiskId paths
  ok_of_reached : outcome.phase.quorumReached q.quorum = true → outcome.result = .ok ()
  /-- Without a quorum every call is finished, some target node failed, and the
  put succeeds when each failed one has an acknowledged copy under its name. -/
  of_missed : outcome.phase.quorumReached q.quorum = false →
    outcome.phase.tasks = [] ∧ outcome.phase.failedNodes ≠ [] ∧
    (∀ name, name ∈ outcome.phase.failedNodes ↔ ∃ node ∈ targets, node.name = name ∧
      q.acked world key data vdiskId paths node = false) ∧
    ∃ aliens, outcome.aliens = some (outcome.phase.failedNodes, aliens) ∧
      (outcome.result = .ok () ↔ ∀ name ∈ outcome.phase.failedNodes,
        aliens.HasCopy q world key data vdiskId name) ∧
      ∀ query ∈ aliens.queries, query.1 ∈ q.mapper.nodes ∧
        query.1.index ∉ targets.map (·.index)
  /-- Each target node acknowledges, or is handed over once under its name. -/
  count_handed : ∀ node ∈ targets, outcome.handed.count node.name =
    if q.acked world key data vdiskId paths node then 0 else 1
  handed_mem : ∀ name ∈ outcome.handed, name ∈ targets.map (·.name)
  /-- The names went through `put_aliens`, which succeeds when each has its copy. -/
  handed_put : ∀ names aliens, outcome.aliens = some (names, aliens) →
    q.PutsAliens world key data vdiskId names aliens

private theorem backgroundPut_failed {restTasks : List (PutTask keySize)}
    {failedNodes : List NodeName} :
    restTasks.foldl (fun failedNodes joinRes =>
      match joinRes with
      | .ok _ => failedNodes
      | .error e => failedNodes ++ [e.nodeName]) failedNodes =
      failedNodes ++ (restTasks.filterMap errorOf).map (·.nodeName) := by
  induction restTasks generalizing failedNodes with
  | nil => simp
  | cons joinRes rest ih =>
    cases joinRes with
    | ok r => simp [ih, errorOf, List.filterMap_cons]
    | error e => simp [ih, errorOf]

/-- Distinct failed nodes that are the target nodes without acknowledgement are
counted as the guarantee says. -/
private theorem count_failedNames {vdisk : DataVDisk} {id : VDiskId} (wf : q.mapper.WellFormed)
    (placed : q.mapper.WellPlaced id vdisk) {node : Node} (listed : node ∈ vdisk.nodes) :
    (q.failedNames world key data vdisk).count node.name =
      if q.acked world key data vdisk.id (q.mapper.localPaths vdisk) node then 0 else 1 := by
  split_ifs with acks
  · rw [List.count_eq_zero, mem_failedNames_iff placed]
    rintro ⟨other, hother, same, failed⟩
    have : other = node := List.inj_on_of_nodup_map (placed.nodup_names wf) hother listed same
    rw [this, acks] at failed
    cases failed
  · refine List.count_eq_one_of_mem (nodup_failedNames wf placed) ?_
    exact (mem_failedNames_iff placed).mpr ⟨node, listed, rfl, by simpa using acks⟩

section Run

variable {vdisk : DataVDisk} {id : VDiskId}

/-- The names recorded with a call of `put_aliens`. -/
private def namesOf (aliens : Option (List NodeName × AlienPut keySize)) : List NodeName :=
  match aliens with
  | some (names, _) => names
  | none => []

/-- The background run hands over all names that failed before or after it began. -/
private theorem exists_backgroundPut (world : PutWorld keySize) (data : BobData)
    (wf : q.mapper.WellFormed) (hid : q.mapper.vdiskIdFromKey key = .ok id)
    (hvdisk : q.mapper.vdisks.lookup id = some vdisk)
    {restTasks : List (PutTask keySize)} {failedNodes : List NodeName}
    (distinct : (failedNodes ++ (restTasks.filterMap errorOf).map (·.nodeName)).Nodup) :
    ∃ aliens, q.backgroundPut world key data restTasks failedNodes = .ok aliens ∧
      namesOf aliens = failedNodes ++ (restTasks.filterMap errorOf).map (·.nodeName) ∧
      ∀ names put, aliens = some (names, put) → q.PutsAliens world key data id names put := by
  unfold backgroundPut
  rw [backgroundPut_failed]
  by_cases none : failedNodes ++ (restTasks.filterMap errorOf).map (·.nodeName) = []
  · refine ⟨Option.none, ?_, by rw [none]; rfl, by rintro _ _ ⟨⟩⟩
    simp only [none, List.isEmpty_nil, if_true]
    rfl
  · obtain ⟨aliens, handed, copies, -⟩ :=
      exists_putAliens world data wf hid hvdisk none distinct
    refine ⟨some (_, aliens), ?_, rfl, by rintro _ _ ⟨⟩; exact ⟨handed, copies⟩⟩
    have nonempty : (failedNodes ++ (restTasks.filterMap errorOf).map (·.nodeName)).isEmpty =
        false := by simpa using none
    simp only [nonempty, Bool.false_eq_true, if_false, handed, bind, Except.bind]
    rfl

/-- The replicas seen when the loop stops reach the quorum exactly when all
acknowledged replicas do. -/
private theorem quorumReached_iff (placed : q.mapper.WellPlaced id vdisk) :
    (q.stopped world key data vdisk).quorumReached q.quorum = true ↔
      q.quorum ≤ q.ackedReplicas world key data vdisk.nodes
        (Dict.tally (vdisk.replicas.map (·.nodeName))) vdisk.id (q.mapper.localPaths vdisk) := by
  have counted (node : Node) (listed : node ∈ vdisk.nodes) : ∃ count,
      (Dict.tally (vdisk.replicas.map (·.nodeName))).lookup node.name = some count := by
    have member := placed.mem_names_iff.mp (List.mem_map_of_mem listed)
    exact ⟨_, by rw [Dict.lookup_tally, if_pos member]⟩
  have seen : ((q.stopped world key data vdisk).oks.map fun f => f.inner.affectedReplicas).sum =
      ((q.finished world vdisk).1.map replicasOf).sum := sum_replicas_filterMap_okOf
  rw [TargetPhase.quorumReached, decide_eq_true_iff, seen, ge_iff_le]
  simp only [stopped, finished]
  rw [atLeast_le_consumed_iff, sum_replicas_launched counted, ackedReplicas]

/-- Whatever the loop left running, the failed nodes are the same in the end. -/
private theorem failedNodes_stopped :
    (q.stopped world key data vdisk).failedNodes ++
        ((q.stopped world key data vdisk).tasks.filterMap errorOf).map (·.nodeName) =
      q.failedNames world key data vdisk := by
  have whole : (q.finished world vdisk).1 ++ (q.finished world vdisk).2 =
      world.order.arrange (q.launched world vdisk.nodes
        (Dict.tally (vdisk.replicas.map (·.nodeName)))) := consumeUntil_append
  rw [failedNames, ← whole]
  simp [stopped]

/-- Without a quorum no call is left running: it would mean that the replicas seen are
enough. -/
private theorem tasks_eq_nil_of_missed
    (missed : ¬ (q.stopped world key data vdisk).quorumReached q.quorum = true) :
    (q.stopped world key data vdisk).tasks = [] := by
  by_contra left
  apply missed
  have enoughSeen := atLeast_le_of_left left
  rw [← sum_replicas_filterMap_okOf, Nat.zero_add] at enoughSeen
  exact decide_eq_true (le_trans enoughSeen (Nat.le_add_right _ _))

/-- Without a quorum some target node has failed. -/
private theorem failedNames_ne_nil_of_missed (wf : q.mapper.WellFormed)
    (placed : q.mapper.WellPlaced id vdisk) (enough : q.quorum ≤ vdisk.replicas.length)
    (missed : ¬ (q.stopped world key data vdisk).quorumReached q.quorum = true) :
    q.failedNames world key data vdisk ≠ [] := by
  intro empty
  apply missed
  rw [quorumReached_iff placed, ackedReplicas_eq_length wf placed fun node listed => ?_]
  · exact enough
  · by_contra failed
    have member := (mem_failedNames_iff placed).mpr ⟨node, listed, rfl, by simpa using failed⟩
    rw [empty] at member
    cases member

/-- If all failed nodes are handed over, each target node is handed over or
acknowledges. -/
private theorem count_handed_of_eq {outcome : PutOutcome keySize} (wf : q.mapper.WellFormed)
    (placed : q.mapper.WellPlaced id vdisk)
    (handed : outcome.handed = q.failedNames world key data vdisk) :
    (∀ node ∈ vdisk.nodes, outcome.handed.count node.name =
      if q.acked world key data vdisk.id (q.mapper.localPaths vdisk) node then 0 else 1) ∧
    ∀ name ∈ outcome.handed, name ∈ vdisk.nodes.map (·.name) := by
  rw [handed]
  refine ⟨fun node listed => count_failedNames wf placed listed, fun name hname => ?_⟩
  obtain ⟨node, listed, named, -⟩ := (mem_failedNames_iff placed).mp hname
  exact List.mem_map.mpr ⟨node, listed, named⟩

/-- A put over a well-formed mapper whose vdisk can meet the quorum keeps its
guarantee. -/
theorem exists_sound_put (world : PutWorld keySize) (data : BobData) (wf : q.mapper.WellFormed)
    (hid : q.mapper.vdiskIdFromKey key = .ok id) (hvdisk : q.mapper.vdisks.lookup id = some vdisk)
    (enough : q.quorum ≤ vdisk.replicas.length) :
    ∃ outcome, q.putAtLeast world key data = .ok outcome ∧
      outcome.Sound q world key data vdisk.nodes (Dict.tally (vdisk.replicas.map (·.nodeName)))
        vdisk.id (q.mapper.localPaths vdisk) := by
  have placed := wf.placed id vdisk hvdisk
  have distinct : (q.failedNames world key data vdisk).Nodup := nodup_failedNames wf placed
  rw [putAtLeast, putTargets_eq world data hid hvdisk]
  set phase := q.stopped world key data vdisk
  have failedEq : phase.failedNodes ++ (phase.tasks.filterMap errorOf).map (·.nodeName) =
      q.failedNames world key data vdisk := failedNodes_stopped
  cases reached : phase.quorumReached q.quorum with
  | true =>
    have sound (outcome : PutOutcome keySize) (samePhase : outcome.phase = phase)
        (ok : outcome.result = .ok ())
        (handed : outcome.handed = q.failedNames world key data vdisk)
        (puts : ∀ names put, outcome.aliens = some (names, put) →
          q.PutsAliens world key data id names put) :
        outcome.Sound q world key data vdisk.nodes
          (Dict.tally (vdisk.replicas.map (·.nodeName))) vdisk.id (q.mapper.localPaths vdisk) :=
      { reached_iff := samePhase ▸ quorumReached_iff placed
        ok_of_reached := fun _ => ok
        of_missed := fun missed => by
          rw [samePhase, reached] at missed
          cases missed
        count_handed := (count_handed_of_eq wf placed handed).1
        handed_mem := (count_handed_of_eq wf placed handed).2
        handed_put := by rwa [placed.id_eq] }
    simp only [bind, Except.bind, reached, if_true]
    -- nothing failed and nothing runs, or the rest is left to the background
    split_ifs with idle
    · refine ⟨⟨phase, none, .ok ()⟩, rfl, sound _ rfl rfl ?_ (by rintro _ _ ⟨⟩)⟩
      simp only [Bool.and_eq_true, List.isEmpty_iff] at idle
      rw [← failedEq, idle.1, idle.2]
      rfl
    · obtain ⟨aliens, ran, names, puts⟩ := exists_backgroundPut world data wf hid hvdisk
        (by rw [failedEq]; exact distinct)
      refine ⟨⟨phase, aliens, .ok ()⟩, ?_, sound _ rfl rfl (names.trans failedEq) puts⟩
      rw [ran]
      rfl
  | false =>
    have missed : ¬ phase.quorumReached q.quorum = true := by rw [reached]; exact Bool.false_ne_true
    have noTasks : phase.tasks = [] := tasks_eq_nil_of_missed missed
    have failedIs : phase.failedNodes = q.failedNames world key data vdisk := by
      rw [← failedEq, noTasks]
      simp
    have nonempty : phase.failedNodes ≠ [] := by
      rw [failedIs]
      exact failedNames_ne_nil_of_missed wf placed enough missed
    obtain ⟨aliens, ran, copies, support⟩ := exists_putAliens world data wf hid hvdisk nonempty
      (by rw [failedIs]; exact distinct)
    simp only [bind, Except.bind, reached, Bool.false_eq_true, if_false, noTasks, List.isEmpty_nil,
      Bool.not_true, ran]
    have handed : PutOutcome.handed ⟨phase, some (phase.failedNodes, aliens), aliens.result⟩ =
        q.failedNames world key data vdisk := failedIs
    exact ⟨⟨phase, some (phase.failedNodes, aliens), aliens.result⟩, rfl,
      { reached_iff := quorumReached_iff placed
        ok_of_reached := fun hreached => absurd hreached missed
        of_missed := fun _ => ⟨noTasks, nonempty,
          fun name => by rw [failedIs]; exact mem_failedNames_iff placed,
          aliens, rfl, by rw [placed.id_eq]; exact copies, support⟩
        count_handed := (count_handed_of_eq wf placed handed).1
        handed_mem := (count_handed_of_eq wf placed handed).2
        handed_put := by
          rintro _ _ ⟨⟩
          rw [placed.id_eq]
          exact ⟨ran, copies⟩ }⟩

end Run

/-- For accepted configurations, each key belongs to a vdisk with at least as many replicas as
the quorum. -/
theorem exists_vdisk_of_accepted {ext : Externals} {cluster : Configs.Cluster}
    {node prepared : NodeConfig} {mapper : Virtual}
    (validated : cluster.validate ext.parseUri = .ok ())
    (checked : cluster.check ext node = .ok prepared)
    (built : Virtual.new prepared cluster = .ok mapper) (key : BobKey keySize) :
    mapper.WellFormed ∧ ∃ id vdisk, mapper.vdiskIdFromKey key = .ok id ∧
      mapper.vdisks.lookup id = some vdisk ∧ node.quorum ≤ vdisk.replicas.length := by
  have valid := Cluster.valid_of_validate validated
  have origin := Virtual.builtFrom_of_new built
  have wf := origin.wellFormed valid
  obtain ⟨found, hfound⟩ := Cluster.exists_checked checked
  obtain ⟨id, vdisk, hid, hvdisk, -⟩ := wf.exists_vdisk key
  obtain ⟨source, listed, -, sameLength⟩ := origin.exists_length_eq valid hvdisk
  refine ⟨wf, id, vdisk, hid, hvdisk, ?_⟩
  rw [sameLength]
  exact hfound.quorum_le source listed

/-- For accepted configurations, whatever the remote calls and the local writes
answer and in whatever order the calls finish: the branch a put takes depends on
the acknowledged replicas only; without a quorum it waits for every call and
succeeds exactly when each failed target node has an acknowledged alien copy; and
in both branches each target node acknowledges or is handed over exactly once. -/
theorem put_places_every_target_node {ext : Externals} {cluster : Configs.Cluster}
    {node prepared : NodeConfig} {mapper : Virtual}
    (validated : cluster.validate ext.parseUri = .ok ())
    (checked : cluster.check ext node = .ok prepared)
    (built : Virtual.new prepared cluster = .ok mapper)
    (world : PutWorld keySize) (key : BobKey keySize) (data : BobData) :
    ∃ targets counts vdiskId paths outcome,
      mapper.getTargetNodesForKey key = .ok targets ∧
      mapper.getReplicasCountByNode key = .ok counts ∧
      mapper.getOperation key = .ok (vdiskId, paths) ∧
      putAtLeast ⟨mapper, node.quorum⟩ world key data = .ok outcome ∧
      outcome.Sound ⟨mapper, node.quorum⟩ world key data targets counts vdiskId
        (paths.getD []) := by
  obtain ⟨wf, id, vdisk, hid, hvdisk, enough⟩ :=
    exists_vdisk_of_accepted validated checked built key
  obtain ⟨outcome, ran, sound⟩ :=
    exists_sound_put (q := ⟨mapper, node.quorum⟩) world data wf hid hvdisk enough
  refine ⟨_, _, _, _, outcome, Virtual.getTargetNodesForKey_eq hid hvdisk,
    Virtual.getReplicasCountByNode_eq hid hvdisk, Virtual.getOperation_eq hid hvdisk, ran, ?_⟩
  rw [Virtual.getD_localPaths]
  exact sound

/-- A world in which calls to `beta` fail and every other call succeeds. -/
def lossyWorld : PutWorld 8 where
  call := fun node _ => if node.name = ⟨"beta"⟩ then .error ⟨.timeout⟩ else .ok ()
  backend := .accepting
  available := fun _ _ => true
  supportOffset := 0
  order := .launched

theorem lossy_put_places_every_target_node :
    let key : BobKey 8 := ⟨Vector.replicate 8 0⟩
    let q : Quorum := ⟨Virtual.smallMapper, 2⟩
    ∃ targets counts vdiskId paths outcome,
      Virtual.smallMapper.getTargetNodesForKey key = .ok targets ∧
      Virtual.smallMapper.getReplicasCountByNode key = .ok counts ∧
      Virtual.smallMapper.getOperation key = .ok (vdiskId, paths) ∧
      q.putAtLeast lossyWorld key ⟨[1, 2, 3], ⟨1⟩⟩ = .ok outcome ∧
      outcome.Sound q lossyWorld key ⟨[1, 2, 3], ⟨1⟩⟩ targets counts vdiskId (paths.getD []) := by
  exact put_places_every_target_node Virtual.validate_small Virtual.check_small
    Virtual.new_small lossyWorld ⟨Vector.replicate 8 0⟩ ⟨[1, 2, 3], ⟨1⟩⟩

end Quorum

end Bob.Cluster

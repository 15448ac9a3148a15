/-
# Quorum delete

A delete goes to the local paths and to all remote target nodes. The nodes that
failed are kept in a set. Part of it is drained into requests to support nodes,
one forced name per request, and refilled from the requests that fail. What then
remains in the set is deleted by force in the alien store of this node. Every
other node of the cluster gets an unforced request for its alien store.

A call is a computation in a monad: it answers, and it may change what it reaches.
The calls of one round run in an order nobody controls, and finish in another.
What a delete asks for is read off a log that the calls themselves keep.

A hash set is a list without repetitions; draining it yields its elements in an
arbitrary order.
-/

import Bob.Cluster.Operations
import Bob.Common.SupportNodes
import Bob.Math.Stepwise

namespace Bob.Cluster

open Bob.Math Bob.Configs

variable {keySize : ℕ}

/-- The calls of a delete to other nodes. -/
abbrev DeleteTask (keySize : ℕ) := CallResult Unit (RemoteDeleteError keySize)

/-- What a delete calls: other nodes, and the backend of its own node. -/
structure DeleteCalls (m : Type → Type) (keySize : ℕ) where
  call : Node → BobKey keySize → BobMeta → BobDeleteOptions → m (Except (Error keySize) Unit)
  deleteLocal : BobKey keySize → BobMeta → Operation → Bool → m (Except (Error keySize) ℕ)

/-- What nobody controls about a delete. Each round of calls finishes in an order of its
own. -/
structure DeleteChances (keySize : ℕ) where
  available : Availability
  supportOffset : ℕ
  drainOrder : AnyOrder NodeName
  /-- The order in which the requests of a round are served. -/
  serveOrder : AnyOrder (Node × BobDeleteOptions)
  targetOrder : AnyOrder (DeleteTask keySize)
  supportOrder : AnyOrder (DeleteTask keySize)
  otherOrder : AnyOrder (DeleteTask keySize)

/-! ## Hash sets -/

/-- Put all items into the set. -/
def extendSet {α : Type} [DecidableEq α] (set : List α) (items : List α) : List α :=
  items.foldl (fun set item => set.insert item) set

/-- Take up to `count` elements out of the set. Returns them and what is left. -/
def drainCollect {α : Type} [DecidableEq α] (order : AnyOrder α) (set : List α) (count : ℕ) :
    List α × List α :=
  if count ≥ set.length then (order.arrange set, [])
  -- nothing is drained, so the set keeps its order
  else if count = 0 then ([], set)
  else
    let result := order.arrange set
    (result.take (min count result.length),
      extendSet [] (result.drop (min count result.length)))

section Sets

variable {α : Type} [DecidableEq α] {order : AnyOrder α} {set items : List α} {item : α}

@[simp] theorem mem_extendSet : item ∈ extendSet set items ↔ item ∈ set ∨ item ∈ items := by
  unfold extendSet
  induction items generalizing set with
  | nil => simp
  | cons first rest ih =>
    rw [List.foldl_cons, ih, List.mem_insert_iff, List.mem_cons]
    tauto

theorem nodup_extendSet (distinct : set.Nodup) : (extendSet set items).Nodup := by
  unfold extendSet
  induction items generalizing set with
  | nil => exact distinct
  | cons first rest ih => exact ih distinct.insert

theorem length_drainCollect (order : AnyOrder α) (set : List α) (count : ℕ) :
    (drainCollect order set count).1.length = min count set.length := by
  have len := (order.perm set).length_eq
  unfold drainCollect
  split_ifs with all zero
  · rw [len, min_eq_right all]
  · simp [zero]
  · rw [List.length_take, len]
    omega

/-- Draining splits the set: what was taken and what is left are its elements. -/
theorem mem_drainCollect_iff (order : AnyOrder α) (set : List α) (count : ℕ) (item : α) :
    item ∈ set ↔
      item ∈ (drainCollect order set count).1 ∨ item ∈ (drainCollect order set count).2 := by
  unfold drainCollect
  split_ifs with all zero
  · simp
  · simp
  · rw [mem_extendSet, ← (order.perm set).mem_iff]
    conv_lhs => rw [← List.take_append_drop (min count (order.arrange set).length)
      (order.arrange set), List.mem_append]
    simp

end Sets

/-! ## Deleting on the nodes -/

section Operations

variable {m : Type → Type} [Monad m] (chances : DeleteChances keySize)
  (calls : DeleteCalls m keySize) (key : BobKey keySize) (bobMeta : BobMeta)

/-- A failed call carries a copy of the names it was to force. -/
def callNodeDelete (options : BobDeleteOptions) (node : Node) : m (DeleteTask keySize) := do
  let forceAlienNodesCopy := options.forceAlienNodes
  match callNode node (← calls.call node key bobMeta options) with
  | .ok o => return .ok o
  | .error err => return .error (err.map fun inner => ⟨forceAlienNodesCopy, inner⟩)

def deleteOnRemoteNodes (order : AnyOrder (DeleteTask keySize))
    (requests : List (Node × BobDeleteOptions)) :
    m (Except (List (NodeOutput (RemoteDeleteError keySize))) Unit) := do
  let (_, errors) ← callAll chances.serveOrder order requests fun request =>
    callNodeDelete calls key bobMeta request.2 request.1
  if errors.isEmpty then return .ok () else return .error errors

def deleteOnRemoteNodesWithOptions (order : AnyOrder (DeleteTask keySize))
    (targetNodes : List Node) (options : BobDeleteOptions) :
    m (List (NodeOutput (RemoteDeleteError keySize))) := do
  if targetNodes.isEmpty then
    return []
  else
    match ← deleteOnRemoteNodes chances calls key bobMeta order
      (targetNodes.map fun n => (n, options)) with
    | .error errors => return errors
    | .ok _ => return []

def deleteOnLocalNode (vdiskId : VDiskId) (diskPath : DiskPath) :
    m (Except (Error keySize) Unit) := do
  let op := Operation.newLocal vdiskId diskPath
  return (← calls.deleteLocal key bobMeta op true).map fun _ => ()

/-- Delete in the local alien store for every target node, by force where the
node is in the set. Returns the forced names that failed. -/
def deleteOnLocalAliens (allNodesForKey : List Node) (forceNodes : List NodeName)
    (vdiskId : VDiskId) : m (Except (List NodeName) Unit) := do
  let fullyFailedNodes ← allNodesForKey.foldlM (fun fullyFailedNodes node => do
    let forceDelete : Bool := node.name ∈ forceNodes
    let op := (Operation.newAlien vdiskId).setRemoteNodeName node.name
    return match ← calls.deleteLocal key bobMeta op forceDelete with
    | .ok _ => fullyFailedNodes
    -- an unforced delete may fail: it is only an attempt to clean up
    | .error _ => if forceDelete then fullyFailedNodes ++ [node.name] else fullyFailedNodes) []
  if fullyFailedNodes.isEmpty then return .ok () else return .error fullyFailedNodes

end Operations

namespace Quorum

section Operations

variable {m : Type → Type} [Monad m] [MonadLiftT (Except Panic) m] (q : Quorum)
  (chances : DeleteChances keySize) (calls : DeleteCalls m keySize) (key : BobKey keySize)
  (bobMeta : BobMeta)

def deleteAtRemoteNodes : m (List (NodeOutput (RemoteDeleteError keySize)) × ℕ) := do
  let targetNodes ← liftM (q.mapper.getTargetNodesForKey key)
  let targetNodes := targetNodes.filter fun n => n.name ≠ q.mapper.localNodeName
  let errors ← deleteOnRemoteNodesWithOptions chances calls key bobMeta chances.targetOrder
    targetNodes .newLocal
  return (errors, targetNodes.length)

/-- The part of `delete_aliens` that serves failed nodes: choose support nodes,
drain the set into requests, and refill it from their errors. -/
def deleteOnSupport (failedNodes : List NodeName) : m (List Node × List NodeName) := do
  if failedNodes.length > 0 then
    let supNodes ← liftM (q.mapper.getSupportNodes chances.available chances.supportOffset key
      failedNodes.length)
    let (nodesNeedRemoteBackup, failedNodes) :=
      drainCollect chances.drainOrder failedNodes supNodes.length
    let queries := (supNodes.zip nodesNeedRemoteBackup).map fun (node, remoteNode) =>
      (node, BobDeleteOptions.newAlien [remoteNode])
    match ← deleteOnRemoteNodes chances calls key bobMeta chances.supportOrder queries with
    | .error supNodesErrors =>
      return (supNodes,
        extendSet failedNodes (supNodesErrors.flatMap fun err => err.inner.forceAlienNodes))
    | .ok _ => return (supNodes, failedNodes)
  else
    return ([], failedNodes)

/-- The nodes that are neither chosen as support nodes nor this node. -/
def otherNodes (supNodes : List Node) : List Node :=
  q.mapper.nodes.filter fun n =>
    n.name ∉ supNodes.map (·.name) && n.name ≠ q.mapper.localNodeName

def deleteAliens (failedNodes : List NodeName) : m (Except (Error keySize) Unit) := do
  let (supNodes, failedNodes) ← q.deleteOnSupport chances calls key bobMeta failedNodes
  let queries := (q.otherNodes supNodes).map fun n => (n, BobDeleteOptions.newAlien [])
  -- errors of the unforced requests are only written to the logs
  let _ ← deleteOnRemoteNodes chances calls key bobMeta chances.otherOrder queries
  let targetNodes ← liftM (q.mapper.getTargetNodesForKey key)
  let vdiskId ← liftM (q.mapper.vdiskIdFromKey key)
  match ← deleteOnLocalAliens calls key bobMeta targetNodes failedNodes vdiskId with
  | .error _ => return .error Error.internal
  | .ok _ => return .ok ()

/-- The nodes that failed to delete: this one if a path failed, and those whose
calls failed. -/
def deleteOnTargets : m (List NodeName) := do
  let (vdiskId, diskPaths) ← liftM (q.mapper.getOperation key)
  let failedNodes ← (diskPaths.getD []).foldlM (fun failedNodes diskPath => do
    return match ← deleteOnLocalNode calls key bobMeta vdiskId diskPath with
    | .ok _ => failedNodes
    | .error _ => failedNodes.insert q.mapper.localNodeName) []
  let (errors, _) ← q.deleteAtRemoteNodes chances calls key bobMeta
  return extendSet failedNodes (errors.map fun o => o.nodeName)

def deleteOnNodes : m (Except (Error keySize) Unit) := do
  let failedNodes ← q.deleteOnTargets chances calls key bobMeta
  q.deleteAliens chances calls key bobMeta failedNodes

end Operations

end Quorum

/-! ## The log of the calls -/

/-- What a delete asks for: a call to another node, or one to the backend of this node. -/
inductive DeleteRequest (keySize : ℕ)
  | remote (node : Node) (key : BobKey keySize) (bobMeta : BobMeta) (options : BobDeleteOptions)
  | here (key : BobKey keySize) (bobMeta : BobMeta) (op : Operation) (forceDelete : Bool)

/-- It is a request for the alien store of the node with that name. -/
def DeleteRequest.isAlienTo (name : NodeName) : DeleteRequest keySize → Bool
  | remote node _ _ options => node.name = name && options.isAlien
  | here .. => false

/-- How the calls of a delete are answered. -/
structure DeleteWorld (keySize : ℕ) where
  call : Node → BobKey keySize → BobMeta → BobDeleteOptions → Except (Error keySize) Unit
  backend : BackendStorage Id keySize

namespace DeleteWorld

/-- Calls that are answered as the world says. Each is written to a log as it is made. -/
def calls (world : DeleteWorld keySize) :
    DeleteCalls (StateT (List (DeleteRequest keySize)) (Except Panic)) keySize where
  call := fun node key bobMeta options log =>
    .ok (world.call node key bobMeta options, log ++ [.remote node key bobMeta options])
  deleteLocal := fun key bobMeta op forceDelete log =>
    .ok (Backend.deleteLocal (m := Id) world.backend key bobMeta op forceDelete,
      log ++ [.here key bobMeta op forceDelete])

/-- The request succeeds. -/
def acks (world : DeleteWorld keySize) : DeleteRequest keySize → Bool
  | .remote node key bobMeta options => (world.call node key bobMeta options).isOk
  | .here key bobMeta op forceDelete =>
    (Backend.deleteLocal (m := Id) world.backend key bobMeta op forceDelete).isOk

end DeleteWorld

/-! ## What the rounds report -/

section Rounds

variable {world : DeleteWorld keySize} {key : BobKey keySize} {bobMeta : BobMeta}
  {vdiskId : VDiskId}

/-- What a call to a node brings back. -/
private def taskOf (world : DeleteWorld keySize) (key : BobKey keySize) (bobMeta : BobMeta)
    (request : Node × BobDeleteOptions) : DeleteTask keySize :=
  match callNode request.1 (world.call request.1 key bobMeta request.2) with
  | .ok o => .ok o
  | .error err => .error (err.map fun inner => ⟨request.2.forceAlienNodes, inner⟩)

private theorem taskOf_eq_error_iff {request : Node × BobDeleteOptions}
    {e : NodeOutput (RemoteDeleteError keySize)} :
    taskOf world key bobMeta request = .error e ↔
      ∃ err, world.call request.1 key bobMeta request.2 = .error err ∧
        e = ⟨request.1.name, request.2.forceAlienNodes, err⟩ := by
  unfold taskOf callNode
  cases world.call request.1 key bobMeta request.2 with
  | ok _ => simp
  | error err => simp [NodeOutput.map, eq_comm]

/-- A request as it stands in the log. -/
private def sent (key : BobKey keySize) (bobMeta : BobMeta) (request : Node × BobDeleteOptions) :
    DeleteRequest keySize :=
  .remote request.1 key bobMeta request.2

private theorem logs_callNodeDelete (request : Node × BobDeleteOptions) :
    Logs (callNodeDelete world.calls key bobMeta request.2 request.1)
      (taskOf world key bobMeta request) [sent key bobMeta request] := by
  have called : Logs (world.calls.call request.1 key bobMeta request.2)
      (world.call request.1 key bobMeta request.2) [sent key bobMeta request] := fun _ => rfl
  refine called.bind_pure ?_
  unfold taskOf
  cases callNode request.1 (world.call request.1 key bobMeta request.2) <;> rfl

/-- The errors of a round of calls. -/
private def errorsOf (result : Except (List (NodeOutput (RemoteDeleteError keySize))) Unit) :
    List (NodeOutput (RemoteDeleteError keySize)) :=
  match result with
  | .error errors => errors
  | .ok _ => []

/-- A round sends its requests, each once, and reports the calls that failed. -/
private theorem exists_deleteOnRemoteNodes (world : DeleteWorld keySize) (key : BobKey keySize)
    (bobMeta : BobMeta) (chances : DeleteChances keySize) (order : AnyOrder (DeleteTask keySize))
    (requests : List (Node × BobDeleteOptions)) :
    ∃ answer log, Logs (deleteOnRemoteNodes chances world.calls key bobMeta order requests)
        answer log ∧ log.Perm (requests.map (sent key bobMeta)) ∧
      ∀ e, e ∈ errorsOf answer ↔ ∃ request ∈ requests, ∃ err,
        world.call request.1 key bobMeta request.2 = .error err ∧
          e = ⟨request.1.name, request.2.forceAlienNodes, err⟩ := by
  let served := chances.serveOrder.arrange requests
  let errors := finishAllHandles (order.arrange (served.map (taskOf world key bobMeta)))
  have called : Logs (callAll chances.serveOrder order requests fun request =>
      callNodeDelete world.calls key bobMeta request.2 request.1) (requests.length, errors)
      (served.map (sent key bobMeta)) := by
    unfold callAll
    split_ifs with empty
    · obtain rfl := List.isEmpty_iff.mp empty
      have none : served = [] := List.perm_nil.mp (chances.serveOrder.perm [])
      have nothing : order.arrange [] = [] := List.perm_nil.mp (order.perm [])
      simp only [errors, none, List.map_nil, nothing]
      exact Logs.pure
    · exact (Logs.mapM logs_callNodeDelete served).bind_pure rfl
  refine ⟨if errors.isEmpty then .ok () else .error errors, _, called.bind_pure ?_,
    (chances.serveOrder.perm requests).map _, fun e => ?_⟩
  · dsimp only
    split_ifs <;> rfl
  · have reported : errorsOf (if errors.isEmpty then .ok () else .error errors) = errors := by
      unfold errorsOf
      split_ifs with none
      · exact (List.isEmpty_iff.mp none).symm
      · rfl
    rw [reported, mem_finishAllHandles_iff, AnyOrder.mem_arrange, List.mem_map]
    simp only [taskOf_eq_error_iff, served, AnyOrder.mem_arrange]

/-- The nodes whose calls failed are reported under their names. -/
private theorem exists_deleteOnRemoteNodesWithOptions (world : DeleteWorld keySize)
    (key : BobKey keySize) (bobMeta : BobMeta) (chances : DeleteChances keySize)
    (order : AnyOrder (DeleteTask keySize)) (targetNodes : List Node)
    (options : BobDeleteOptions) :
    ∃ errors log, Logs (deleteOnRemoteNodesWithOptions chances world.calls key bobMeta order
        targetNodes options) errors log ∧
      log.Perm (targetNodes.map fun node => .remote node key bobMeta options) ∧
      ∀ name, name ∈ errors.map (·.nodeName) ↔ ∃ node ∈ targetNodes, node.name = name ∧
        world.acks (.remote node key bobMeta options) = false := by
  obtain ⟨answer, log, logs, perm, reported⟩ := exists_deleteOnRemoteNodes world key bobMeta
    chances order (targetNodes.map fun node => (node, options))
  rw [List.map_map] at perm
  refine ⟨errorsOf answer, log, ?_, perm, fun name => ?_⟩
  · unfold deleteOnRemoteNodesWithOptions
    split_ifs with empty
    · obtain rfl := List.isEmpty_iff.mp empty
      have none : errorsOf answer = [] := by
        rw [List.eq_nil_iff_forall_not_mem]
        simp [reported]
      rw [none, List.perm_nil.mp perm]
      exact Logs.pure
    · refine logs.bind_pure ?_
      cases answer <;> rfl
  · simp only [List.mem_map, reported]
    constructor
    · rintro ⟨e, ⟨request, ⟨node, listed, rfl⟩, err, failed, rfl⟩, rfl⟩
      exact ⟨node, listed, rfl, by rw [DeleteWorld.acks, failed]; rfl⟩
    · rintro ⟨node, listed, rfl, failed⟩
      cases answer : world.call node key bobMeta options with
      | ok _ =>
        rw [DeleteWorld.acks, answer] at failed
        cases failed
      | error err => exact ⟨_, ⟨_, ⟨node, listed, rfl⟩, err, answer, rfl⟩, rfl⟩

/-- The delete of the data of a node in the alien store here. -/
def alienHere (key : BobKey keySize) (bobMeta : BobMeta) (vdiskId : VDiskId) (name : NodeName)
    (forceDelete : Bool) : DeleteRequest keySize :=
  .here key bobMeta ((Operation.newAlien vdiskId).setRemoteNodeName name) forceDelete

private theorem exists_deleteOnLocalAliens (world : DeleteWorld keySize) (key : BobKey keySize)
    (bobMeta : BobMeta) (vdiskId : VDiskId) (nodes : List Node) (forceNodes : List NodeName) :
    ∃ answer, Logs (deleteOnLocalAliens world.calls key bobMeta nodes forceNodes vdiskId) answer
        (nodes.map fun node => alienHere key bobMeta vdiskId node.name (node.name ∈ forceNodes)) ∧
      (answer = .ok () ↔ ∀ node ∈ nodes, node.name ∈ forceNodes →
        world.acks (alienHere key bobMeta vdiskId node.name true) = true) := by
  let refused (node : Node) : Bool := decide (node.name ∈ forceNodes) &&
    !world.acks (alienHere key bobMeta vdiskId node.name (decide (node.name ∈ forceNodes)))
  have round (failed : List NodeName) (name : NodeName) (forced : Bool)
      (answer : Except (Error keySize) ℕ) :
      (match answer with
        | .ok _ => failed
        | .error _ => if forced then failed ++ [name] else failed) =
      if forced && !answer.isOk then failed ++ [name] else failed := by
    cases forced <;> cases answer <;> rfl
  let step (failed : List NodeName) (node : Node) :=
    if refused node then failed ++ [node.name] else failed
  have folded : nodes.foldl step [] = (nodes.filter refused).map (·.name) := by
    dsimp only [step]
    rw [← List.foldl_filter, List.foldl_append_eq_append (f := fun node : Node => [node.name])]
    exact List.map_eq_flatMap.symm
  set failures := (nodes.filter refused).map (·.name)
  refine ⟨if failures.isEmpty then .ok () else .error failures, ?_, ?_⟩
  · rw [← folded]
    refine (Logs.foldlM step (fun failed node log => ?_) nodes []).bind_pure ?_
    · exact congrArg (fun set => Except.ok (set, log ++ [_])) (round failed node.name _ _)
    · split_ifs <;> rfl
  · have empty : failures.isEmpty = true ↔ ∀ node ∈ nodes, node.name ∈ forceNodes →
        world.acks (alienHere key bobMeta vdiskId node.name true) = true := by
      rw [List.isEmpty_iff, List.map_eq_nil_iff, List.filter_eq_nil_iff]
      refine forall₂_congr fun node _ => ?_
      by_cases forced : node.name ∈ forceNodes <;> simp [refused, forced]
    rw [← empty]
    split_ifs with none <;> simp [none]

end Rounds

namespace Quorum

variable {q : Quorum} {world : DeleteWorld keySize} {key : BobKey keySize} {bobMeta : BobMeta}
  {vdisk : DataVDisk} {id : VDiskId}

/-- What a target node is asked first: on each of its paths if it is this node, in one
call if it is another. -/
def ownRequests (q : Quorum) (key : BobKey keySize) (bobMeta : BobMeta) (vdiskId : VDiskId)
    (paths : List DiskPath) (node : Node) : List (DeleteRequest keySize) :=
  if node.name = q.mapper.localNodeName then
    paths.map fun path => .here key bobMeta (.newLocal vdiskId path) true
  else [.remote node key bobMeta .newLocal]

/-- A target node deleted: all that it was asked first succeeded. -/
def deleted (q : Quorum) (world : DeleteWorld keySize) (key : BobKey keySize) (bobMeta : BobMeta)
    (vdiskId : VDiskId) (paths : List DiskPath) (node : Node) : Bool :=
  (q.ownRequests key bobMeta vdiskId paths node).all world.acks

/-- The support nodes that are chosen for a number of failed nodes. -/
def Supports (q : Quorum) (chances : DeleteChances keySize) (key : BobKey keySize) (failed : ℕ)
    (supNodes : List Node) : Prop :=
  if failed = 0 then supNodes = []
  else q.mapper.getSupportNodes chances.available chances.supportOffset key failed = .ok supNodes

/-- The set that the paths of this node leave. -/
private theorem foldl_insert_local {paths : List DiskPath} {name : NodeName} {ok : DiskPath → Bool}
    (set : List NodeName) (small : set = [] ∨ set = [name]) :
    paths.foldl (fun failed path => if ok path then failed else failed.insert name) set =
      if paths.all ok then set else [name] := by
  induction paths generalizing set with
  | nil => rfl
  | cons path rest ih =>
    rw [List.foldl_cons, List.all_cons]
    cases ok path with
    | true => exact ih set small
    | false =>
      have inserted : set.insert name = [name] := by
        obtain rfl | rfl := small <;> simp
      rw [if_neg Bool.false_ne_true, inserted, ih _ (Or.inr rfl), ite_self]
      rfl

/-- The requests for the alien store, here or on another node. -/
private def isAlien : DeleteRequest keySize → Bool
  | .remote _ _ _ options => options.isAlien
  | .here _ _ op _ => op.isDataAlien

/-- Every target node gets its own requests, and the failed nodes are those that did not
delete. -/
private theorem exists_deleteOnTargets (world : DeleteWorld keySize) (bobMeta : BobMeta)
    (chances : DeleteChances keySize) (wf : q.mapper.WellFormed)
    (hid : q.mapper.vdiskIdFromKey key = .ok id)
    (hvdisk : q.mapper.vdisks.lookup id = some vdisk) :
    ∃ failed log, Logs (q.deleteOnTargets chances world.calls key bobMeta) failed log ∧
      (∀ node ∈ vdisk.nodes, ∀ request ∈ q.ownRequests key bobMeta vdisk.id
        (q.mapper.localPaths vdisk) node, request ∈ log) ∧
      (∀ request ∈ log, isAlien request = false) ∧
      failed.Perm ((vdisk.nodes.filter fun node =>
        !q.deleted world key bobMeta vdisk.id (q.mapper.localPaths vdisk) node).map (·.name)) := by
  have placed := wf.placed id vdisk hvdisk
  let paths := q.mapper.localPaths vdisk
  let here (path : DiskPath) : DeleteRequest keySize :=
    .here key bobMeta (.newLocal vdisk.id path) true
  let remote := vdisk.nodes.filter fun n => n.name ≠ q.mapper.localNodeName
  obtain ⟨errors, log, logs, perm, reported⟩ := exists_deleteOnRemoteNodesWithOptions world key
    bobMeta chances chances.targetOrder remote .newLocal
  have remotes : Logs (q.deleteAtRemoteNodes chances world.calls key bobMeta)
      (errors, remote.length) log := by
    unfold deleteAtRemoteNodes
    rw [liftM_bind_eq (Virtual.getTargetNodesForKey_eq hid hvdisk)]
    exact logs.bind_pure rfl
  let failed := if paths.all fun path => world.acks (here path) then []
    else [q.mapper.localNodeName]
  have locals : Logs (paths.foldlM (fun failedNodes diskPath => do
      return match ← deleteOnLocalNode world.calls key bobMeta vdisk.id diskPath with
      | .ok _ => failedNodes
      | .error _ => failedNodes.insert q.mapper.localNodeName) []) failed (paths.map here) := by
    rw [show failed = _ from (foldl_insert_local [] (Or.inl rfl)).symm]
    have round (failed : List NodeName) (answer : Except (Error keySize) ℕ) :
        (match answer.map fun _ => () with
          | .ok _ => failed
          | .error _ => failed.insert q.mapper.localNodeName) =
        if answer.isOk then failed else failed.insert q.mapper.localNodeName := by
      cases answer <;> rfl
    refine Logs.foldlM _ (fun failed path log => ?_) paths []
    exact congrArg (fun set => Except.ok (set, log ++ [here path])) (round failed _)
  refine ⟨extendSet failed (errors.map (·.nodeName)), paths.map here ++ log, ?_, ?_, ?_, ?_⟩
  · unfold deleteOnTargets
    rw [liftM_bind_eq (Virtual.getOperation_eq hid hvdisk)]
    dsimp only
    rw [Virtual.getD_localPaths]
    exact locals.bind (remotes.bind_pure rfl)
  · intro node listed request own
    unfold ownRequests at own
    split_ifs at own with local'
    · exact List.mem_append_left _ own
    · rw [List.mem_singleton.mp own]
      refine List.mem_append_right _ (perm.mem_iff.mpr (List.mem_map_of_mem ?_))
      exact List.mem_filter.mpr ⟨listed, decide_eq_true local'⟩
  · intro request member
    rcases List.mem_append.mp member with member | member
    · obtain ⟨path, -, rfl⟩ := List.mem_map.mp member
      rfl
    · obtain ⟨node, -, rfl⟩ := List.mem_map.mp (perm.mem_iff.mp member)
      rfl
  · have distinct := (placed.nodes_sublist.map Node.name).nodup wf.nodup_names
    refine (List.perm_ext_iff_of_nodup ?_ (distinct.sublist (List.filter_sublist.map _))).mpr ?_
    · refine nodup_extendSet ?_
      dsimp only [failed]
      split_ifs
      · exact List.nodup_nil
      · exact List.nodup_singleton _
    · intro name
      have ownOk (node : Node) : q.deleted world key bobMeta vdisk.id paths node =
          if node.name = q.mapper.localNodeName then paths.all fun path => world.acks (here path)
          else world.acks (.remote node key bobMeta .newLocal) := by
        unfold deleted ownRequests
        split_ifs
        · rw [List.all_map]
          rfl
        · simp
      rw [mem_extendSet, reported, placed.failed_iff fun empty => by
        change List.all (q.mapper.localPaths vdisk) _ = true
        rw [empty]
        rfl]
      simp only [List.mem_map, List.mem_filter, Bool.not_eq_true', ← ownOk, paths]
      exact exists_congr fun node => by rw [and_comm (a := node.name = name), and_assoc]

/-- Every failed node is either kept for the local alien store, or its name was
forced in a request that a support node acknowledged. -/
private theorem exists_deleteOnSupport (world : DeleteWorld keySize) (bobMeta : BobMeta)
    (chances : DeleteChances keySize) (wf : q.mapper.WellFormed)
    (hid : q.mapper.vdiskIdFromKey key = .ok id) (hvdisk : q.mapper.vdisks.lookup id = some vdisk)
    (failed : List NodeName) :
    ∃ (supNodes : List Node) (queries : List (Node × BobDeleteOptions)) (force : List NodeName)
        (log : List (DeleteRequest keySize)),
      Logs (q.deleteOnSupport chances world.calls key bobMeta failed) (supNodes, force) log ∧
      log.Perm (queries.map (sent key bobMeta)) ∧
      q.Supports chances key failed.length supNodes ∧
      Virtual.Chosen q.mapper.nodes vdisk.nodes failed.length supNodes ∧
      queries.map (·.1) = supNodes ∧
      (∀ query ∈ queries, ∃ name, query.2 = .newAlien [name]) ∧
      ∀ name ∈ failed, name ∈ force ∨ ∃ node, (node, .newAlien [name]) ∈ queries ∧
        world.acks (.remote node key bobMeta (.newAlien [name])) = true := by
  unfold deleteOnSupport
  split_ifs with some
  · obtain ⟨supNodes, hsup, chosen⟩ := wf.exists_supportNodes chances.available
      chances.supportOffset key failed.length (Virtual.getTargetNodesForKey_eq hid hvdisk)
    have taken := length_drainCollect chances.drainOrder failed supNodes.length
    rw [min_eq_left chosen.length_le] at taken
    let drained := drainCollect chances.drainOrder failed supNodes.length
    let queries := (supNodes.zip drained.1).map fun pair =>
      (pair.1, BobDeleteOptions.newAlien [pair.2])
    obtain ⟨answer, log, logs, perm, reported⟩ := exists_deleteOnRemoteNodes world key bobMeta
      chances chances.supportOrder queries
    refine ⟨supNodes, queries,
      extendSet drained.2 ((errorsOf answer).flatMap fun err => err.inner.forceAlienNodes), log,
      ?_, perm, by rwa [Supports, if_neg some.ne'], chosen, ?_, ?_, ?_⟩
    · rw [liftM_bind_eq hsup]
      refine logs.bind_pure ?_
      cases answer <;> rfl
    · rw [List.map_map]
      exact List.map_fst_zip taken.ge
    · intro query hquery
      obtain ⟨pair, -, rfl⟩ := List.mem_map.mp hquery
      exact ⟨pair.2, rfl⟩
    · intro name hname
      rcases (mem_drainCollect_iff chances.drainOrder failed supNodes.length name).mp hname with
        drainedName | kept
      -- drained into a request, which is acknowledged or refills the set
      · obtain ⟨pair, hpair, rfl⟩ : ∃ pair ∈ supNodes.zip drained.1, pair.2 = name := by
          rw [← List.map_snd_zip taken.le] at drainedName
          exact List.mem_map.mp drainedName
        have queried : (pair.1, BobDeleteOptions.newAlien [pair.2]) ∈ queries :=
          List.mem_map.mpr ⟨pair, hpair, rfl⟩
        cases answered : world.call pair.1 key bobMeta (.newAlien [pair.2]) with
        | ok _ => exact Or.inr ⟨pair.1, queried, by rw [DeleteWorld.acks, answered]; rfl⟩
        | error err =>
          refine Or.inl (mem_extendSet.mpr (Or.inr (List.mem_flatMap.mpr ?_)))
          exact ⟨_, (reported _).mpr ⟨_, queried, err, answered, rfl⟩, List.mem_singleton.mpr rfl⟩
      · exact Or.inl (mem_extendSet.mpr (Or.inl kept))
  · obtain rfl : failed = [] := by simpa using some
    refine ⟨[], [], [], [], Logs.pure, .refl _, rfl, ⟨List.nodup_nil, ?_, ?_, Nat.le_refl _⟩, rfl,
      ?_, ?_⟩ <;> simp

/-! ## The whole delete -/

/-- The request was made, and it succeeded. -/
def Served (world : DeleteWorld keySize) (log : List (DeleteRequest keySize))
    (request : DeleteRequest keySize) : Prop :=
  request ∈ log ∧ world.acks request = true

/-- What a finished delete guarantees about the nodes of the cluster. -/
structure DeleteSound (q : Quorum) (chances : DeleteChances keySize) (world : DeleteWorld keySize)
    (key : BobKey keySize) (bobMeta : BobMeta) (targets : List Node) (vdiskId : VDiskId)
    (paths : List DiskPath) (result : Except (Error keySize) Unit)
    (log : List (DeleteRequest keySize)) : Prop where
  /-- After a success each target node deleted, or has its name forced on a support
  node or in the local alien store. -/
  reached : result = .ok () → ∀ node ∈ targets,
    (∀ request ∈ q.ownRequests key bobMeta vdiskId paths node, Served world log request) ∨
    (∃ sup, Served world log (.remote sup key bobMeta (.newAlien [node.name]))) ∨
    Served world log (alienHere key bobMeta vdiskId node.name true)
  /-- Every other node of the cluster gets exactly one alien request. -/
  count_alien : ∀ node ∈ q.mapper.nodes, node.name ≠ q.mapper.localNodeName →
    log.countP (·.isAlienTo node.name) = 1
  /-- It forces a name exactly at the support nodes, which are chosen for the target nodes
  that did not delete. -/
  forced : ∃ supNodes, q.Supports chances key (targets.filter fun node =>
      !q.deleted world key bobMeta vdiskId paths node).length supNodes ∧
    ∀ node key' bobMeta' options, .remote node key' bobMeta' options ∈ log →
      options.isAlien = true → key' = key ∧ bobMeta' = bobMeta ∧
        ((∃ name, options = .newAlien [name]) ∧ node ∈ supNodes ∨
          options = .newAlien [] ∧ node ∉ supNodes)
  /-- The delete fails exactly when a forced local delete fails. -/
  failed_iff : result ≠ .ok () ↔ ∃ node ∈ targets,
    alienHere key bobMeta vdiskId node.name true ∈ log ∧
      world.acks (alienHere key bobMeta vdiskId node.name true) = false

/-- Nodes of the cluster are told apart by their names. -/
private theorem countP_name_eq {nodes chosen : List Node} (distinct : (nodes.map (·.name)).Nodup)
    (inside : ∀ node ∈ chosen, node ∈ nodes) (once : chosen.Nodup) {node : Node}
    (listed : node ∈ nodes) :
    chosen.countP (fun other => other.name = node.name) = if node ∈ chosen then 1 else 0 := by
  have same : chosen.countP (fun other => other.name = node.name) = chosen.count node := by
    rw [List.count_eq_countP]
    refine List.countP_congr fun other hother => ?_
    simp only [decide_eq_true_eq, beq_iff_eq]
    exact ⟨fun h => List.inj_on_of_nodup_map distinct (inside other hother) listed h,
      fun h => h ▸ rfl⟩
  rw [same]
  split_ifs with member
  · exact List.count_eq_one_of_mem once member
  · exact List.count_eq_zero.mpr member

private theorem not_mem_of_mem_otherNodes {supNodes : List Node} {node : Node}
    (other : node ∈ q.otherNodes supNodes) : node ∉ supNodes := by
  intro member
  have absent := (Bool.and_eq_true_iff.mp (List.mem_filter.mp other).2).1
  exact of_decide_eq_true absent (List.mem_map_of_mem member)

/-- Every remote node is either a support node or one of the others. -/
private theorem mem_otherNodes_iff (wf : q.mapper.WellFormed) {supNodes : List Node}
    (inside : ∀ sup ∈ supNodes, sup ∈ q.mapper.nodes) {node : Node}
    (listed : node ∈ q.mapper.nodes) (remote : node.name ≠ q.mapper.localNodeName) :
    node ∈ q.otherNodes supNodes ↔ node ∉ supNodes := by
  refine ⟨not_mem_of_mem_otherNodes, fun absent => List.mem_filter.mpr ⟨listed, ?_⟩⟩
  have fresh : node.name ∉ supNodes.map (·.name) := by
    intro member
    obtain ⟨sup, hsup, same⟩ := List.mem_map.mp member
    rw [List.inj_on_of_nodup_map wf.nodup_names (inside sup hsup) listed same] at hsup
    exact absent hsup
  simpa [remote] using fresh

/-- Alien requests to distinct nodes of the cluster: a node gets one if it is addressed. -/
private theorem countP_isAlienTo_eq (wf : q.mapper.WellFormed)
    {log : List (DeleteRequest keySize)} {requests : List (Node × BobDeleteOptions)}
    (perm : log.Perm (requests.map (sent key bobMeta)))
    (alien : ∀ request ∈ requests, request.2.isAlien = true)
    {addressees : List Node} (addressed : requests.map (·.1) = addressees)
    (once : addressees.Nodup) (inside : ∀ node ∈ addressees, node ∈ q.mapper.nodes) {node : Node}
    (listed : node ∈ q.mapper.nodes) :
    log.countP (·.isAlienTo node.name) = if node ∈ addressees then 1 else 0 := by
  rw [perm.countP_eq, ← countP_name_eq wf.nodup_names inside once listed, ← addressed,
    List.countP_map, List.countP_map]
  refine List.countP_congr fun request member => ?_
  simp [sent, DeleteRequest.isAlienTo, alien request member]

private theorem countP_isAlienTo_eq_zero {log : List (DeleteRequest keySize)} {name : NodeName}
    (none : ∀ request ∈ log, request.isAlienTo name = false) :
    log.countP (·.isAlienTo name) = 0 := by
  rw [List.countP_eq_zero]
  intro request member
  rw [none request member]
  exact Bool.false_ne_true

/-- A node other than this one is asked as a support node or with the others, and never
both. -/
private theorem countP_isAlienTo_rounds (wf : q.mapper.WellFormed)
    {queries : List (Node × BobDeleteOptions)} {supNodes : List Node}
    {supLog otherLog : List (DeleteRequest keySize)}
    (supPerm : supLog.Perm (queries.map (sent key bobMeta)))
    (alien : ∀ query ∈ queries, query.2.isAlien = true) (addressed : queries.map (·.1) = supNodes)
    (once : supNodes.Nodup) (inside : ∀ sup ∈ supNodes, sup ∈ q.mapper.nodes)
    (otherPerm : otherLog.Perm (((q.otherNodes supNodes).map fun node =>
      (node, BobDeleteOptions.newAlien [])).map (sent key bobMeta)))
    {node : Node} (listed : node ∈ q.mapper.nodes)
    (remote : node.name ≠ q.mapper.localNodeName) :
    (supLog ++ otherLog).countP (·.isAlienTo node.name) = 1 := by
  have others : ((q.otherNodes supNodes).map fun node =>
      (node, BobDeleteOptions.newAlien [])).map (·.1) = q.otherNodes supNodes := by
    rw [List.map_map]
    exact List.map_id _
  have otherCount := countP_isAlienTo_eq wf otherPerm (fun request member => by
    obtain ⟨node, -, rfl⟩ := List.mem_map.mp member
    rfl) others (wf.nodup_names.of_map _ |>.filter _)
    (fun other member => (List.mem_filter.mp member).1) listed
  have apart := mem_otherNodes_iff wf inside listed remote
  rw [List.countP_append, countP_isAlienTo_eq wf supPerm alien addressed once inside listed,
    otherCount]
  by_cases member : node ∈ supNodes <;> simp [member, apart]

theorem exists_sound_delete (world : DeleteWorld keySize) (chances : DeleteChances keySize)
    (bobMeta : BobMeta) (wf : q.mapper.WellFormed) (hid : q.mapper.vdiskIdFromKey key = .ok id)
    (hvdisk : q.mapper.vdisks.lookup id = some vdisk) :
    ∃ result log, Logs (q.deleteOnNodes chances world.calls key bobMeta) result log ∧
      q.DeleteSound chances world key bobMeta vdisk.nodes vdisk.id (q.mapper.localPaths vdisk)
        result log := by
  have placed := wf.placed id vdisk hvdisk
  obtain ⟨failed, targetLog, targetLogs, own, plain, permFailed⟩ :=
    exists_deleteOnTargets world bobMeta chances wf hid hvdisk
  obtain ⟨supNodes, queries, force, supLog, supLogs, supPerm, supports, chosen, addressed, forcing,
    served⟩ := exists_deleteOnSupport world bobMeta chances wf hid hvdisk failed
  let others := (q.otherNodes supNodes).map fun node => (node, BobDeleteOptions.newAlien [])
  obtain ⟨otherAnswer, otherLog, otherLogs, otherPerm, -⟩ := exists_deleteOnRemoteNodes world key
    bobMeta chances chances.otherOrder others
  obtain ⟨answer, hereLogs, hereOk⟩ :=
    exists_deleteOnLocalAliens world key bobMeta vdisk.id vdisk.nodes force
  let hereLog : List (DeleteRequest keySize) := vdisk.nodes.map fun node =>
    alienHere key bobMeta vdisk.id node.name (node.name ∈ force)
  -- the log, round by round
  have asked_iff (request : DeleteRequest keySize) :
      request ∈ targetLog ++ (supLog ++ (otherLog ++ hereLog)) ↔ request ∈ targetLog ∨
        (∃ query ∈ queries, sent key bobMeta query = request) ∨
        (∃ node ∈ q.otherNodes supNodes, .remote node key bobMeta (.newAlien []) = request) ∨
        ∃ node ∈ vdisk.nodes,
          alienHere key bobMeta vdisk.id node.name (node.name ∈ force) = request := by
    simp [supPerm.mem_iff, otherPerm.mem_iff, hereLog, others, sent]
  refine ⟨answer.mapError fun _ => Error.internal, targetLog ++ (supLog ++ (otherLog ++ hereLog)),
    ?_, ?_, ?_, ⟨supNodes, ?_, ?_⟩, ?_⟩
  · refine targetLogs.bind (supLogs.bind (otherLogs.bind ?_))
    rw [liftM_bind_eq (Virtual.getTargetNodesForKey_eq hid hvdisk), liftM_bind_eq hid,
      ← placed.id_eq]
    refine hereLogs.bind_pure ?_
    cases answer <;> rfl
  · intro ok node listed
    rw [mapError_eq_ok_iff, hereOk] at ok
    cases done : q.deleted world key bobMeta vdisk.id (q.mapper.localPaths vdisk) node with
    | true =>
      refine Or.inl fun request asked => ⟨List.mem_append_left _ ?_, ?_⟩
      · exact own node listed request asked
      · exact List.all_eq_true.mp done request asked
    | false =>
      have hfailed : node.name ∈ failed := permFailed.mem_iff.mpr
        (List.mem_map_of_mem (List.mem_filter.mpr ⟨listed, by rw [done]; rfl⟩))
      rcases served _ hfailed with kept | ⟨sup, queried, acked⟩
      · refine Or.inr (Or.inr ⟨(asked_iff _).mpr ?_, ok node listed kept⟩)
        exact Or.inr (Or.inr (Or.inr ⟨node, listed, by rw [decide_eq_true kept]⟩))
      · refine Or.inr (Or.inl ⟨sup, (asked_iff _).mpr ?_, acked⟩)
        exact Or.inr (Or.inl ⟨_, queried, rfl⟩)
  · intro node listed remote
    have rounds := countP_isAlienTo_rounds wf supPerm (fun query queried => by
      obtain ⟨name, same⟩ := forcing query queried
      rw [same]
      rfl) addressed (chosen.nodup.of_map _) chosen.mem_ring otherPerm listed remote
    have targetCount : targetLog.countP (·.isAlienTo node.name) = 0 :=
      countP_isAlienTo_eq_zero fun request member => by
        have := plain request member
        cases request <;> simp_all [DeleteRequest.isAlienTo, isAlien]
    have hereCount : hereLog.countP (·.isAlienTo node.name) = 0 :=
      countP_isAlienTo_eq_zero fun request member => by
        obtain ⟨node, -, rfl⟩ := List.mem_map.mp member
        rfl
    rw [← List.append_assoc supLog, List.countP_append, List.countP_append, rounds, targetCount,
      hereCount]
  · rwa [permFailed.length_eq, List.length_map] at supports
  · intro node key' bobMeta' options asked alien
    obtain asked | ⟨query, queried, same⟩ | ⟨other, hother, same⟩ | ⟨_, -, same⟩ :=
      (asked_iff _).mp asked
    · rw [show options.isAlien = false from plain _ asked] at alien
      cases alien
    · cases same
      refine ⟨rfl, rfl, Or.inl ⟨forcing query queried, ?_⟩⟩
      rw [← addressed]
      exact List.mem_map_of_mem queried
    · cases same
      exact ⟨rfl, rfl, Or.inr ⟨rfl, not_mem_of_mem_otherNodes hother⟩⟩
    · cases same
  · rw [Ne, mapError_eq_ok_iff, hereOk]
    constructor
    · intro some
      push Not at some
      obtain ⟨node, listed, kept, failed⟩ := some
      refine ⟨node, listed, (asked_iff _).mpr ?_, Bool.eq_false_iff.mpr failed⟩
      exact Or.inr (Or.inr (Or.inr ⟨node, listed, by rw [decide_eq_true kept]⟩))
    · rintro ⟨node, listed, asked, failed⟩ all
      have kept : node.name ∈ force := by
        obtain asked | ⟨_, -, same⟩ | ⟨_, -, same⟩ | ⟨other, -, same⟩ := (asked_iff _).mp asked
        · exact absurd (plain _ asked) (by simp [isAlien, alienHere])
        · cases same
        · cases same
        · simp only [alienHere, DeleteRequest.here.injEq, true_and, Operation.setRemoteNodeName,
            Operation.mk.injEq, Option.some.injEq, decide_eq_true_eq] at same
          exact same.1 ▸ same.2
      rw [all node listed kept] at failed
      cases failed

/-- For an accepted configuration and whatever the local, remote and alien calls
answer: a delete that succeeds has reached every target node or left a forced
marker for it; every other node of the cluster gets exactly one alien request,
which forces a name exactly if the node was chosen as support node; and the delete
fails exactly when a forced local alien delete fails. -/
theorem delete_reaches_every_replica {ext : Externals} {cluster : Configs.Cluster}
    {config : NodeConfig} {mapper : Virtual}
    (validated : cluster.validate ext.parseUri = .ok ())
    (built : Virtual.new config cluster = .ok mapper) (quorum : ℕ)
    (chances : DeleteChances keySize) (world : DeleteWorld keySize) (key : BobKey keySize)
    (bobMeta : BobMeta) :
    ∃ targets vdiskId paths result log,
      mapper.getTargetNodesForKey key = .ok targets ∧
      mapper.getOperation key = .ok (vdiskId, paths) ∧
      deleteOnNodes ⟨mapper, quorum⟩ chances world.calls key bobMeta [] = .ok (result, log) ∧
      DeleteSound ⟨mapper, quorum⟩ chances world key bobMeta targets vdiskId (paths.getD []) result
        log := by
  have wf := (Virtual.builtFrom_of_new built).wellFormed (Cluster.valid_of_validate validated)
  obtain ⟨id, vdisk, hid, hvdisk, -⟩ := wf.exists_vdisk key
  obtain ⟨result, log, logs, sound⟩ :=
    exists_sound_delete (q := ⟨mapper, quorum⟩) world chances bobMeta wf hid hvdisk
  refine ⟨_, _, _, result, log, Virtual.getTargetNodesForKey_eq hid hvdisk,
    Virtual.getOperation_eq hid hvdisk, logs [], ?_⟩
  rw [Virtual.getD_localPaths]
  exact sound

/-- A world in which calls to `beta` fail and every other call succeeds. -/
def lossyDeleteWorld : DeleteWorld 8 where
  call := fun node _ _ _ => if node.name = ⟨"beta"⟩ then .error ⟨.timeout⟩ else .ok ()
  backend := .accepting

/-- Everybody is available, and nothing changes its order. -/
def calmChances : DeleteChances 8 :=
  ⟨fun _ _ => true, 0, .launched, .launched, .launched, .launched, .launched⟩

theorem lossy_delete_reaches_every_replica :
    let key : BobKey 8 := ⟨Vector.replicate 8 0⟩
    let q : Quorum := ⟨Virtual.smallMapper, 2⟩
    ∃ targets vdiskId paths result log,
      Virtual.smallMapper.getTargetNodesForKey key = .ok targets ∧
      Virtual.smallMapper.getOperation key = .ok (vdiskId, paths) ∧
      q.deleteOnNodes calmChances lossyDeleteWorld.calls key ⟨1⟩ [] = .ok (result, log) ∧
      q.DeleteSound calmChances lossyDeleteWorld key ⟨1⟩ targets vdiskId (paths.getD []) result
        log := by
  exact delete_reaches_every_replica Virtual.validate_small Virtual.new_small 2 calmChances
    lossyDeleteWorld ⟨Vector.replicate 8 0⟩ ⟨1⟩

end Quorum

end Bob.Cluster

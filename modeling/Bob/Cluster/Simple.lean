/-
# The simple policy

Under the simple policy a node asks the target nodes of a key and no others, itself like
any of them. A read takes the first answer with data. An existence check sorts its keys by
their lists of target nodes, asks each list once and writes the answers back by position.
The read asks a node for its disks only, while the check asks for its alien store as well.
So the two agree exactly where no answering target has an alien copy of a key that no
answering target has on a disk.
-/

import Bob.Cluster.Network

namespace Bob.Cluster

open Bob.Math Bob.Configs Bob.Backend

variable {keySize : ℕ}

/-- The simple policy of one node. -/
structure SimpleQuorum where
  mapper : Virtual
  quorum : ℕ

/-- The policy that a node runs with. -/
inductive ClusterPolicy
  | simple (q : SimpleQuorum)
  | quorum (q : Quorum)

def getCluster (mapper : Virtual) (config : NodeConfig) : Except Panic ClusterPolicy :=
  if config.clusterPolicy = "simple" then .ok (.simple ⟨mapper, config.quorum⟩)
  else if config.clusterPolicy = "quorum" then .ok (.quorum ⟨mapper, config.quorum⟩)
  else .error ⟨"unknown cluster policy: " ++ config.clusterPolicy⟩

/-- The keys that a list of nodes is to be asked for, and where they stand in the request. -/
abbrev NodesGroup (keySize : ℕ) := List Node × List (BobKey keySize) × List ℕ

/-- Groups by list of nodes. Nodes are compared by name; the entry keeps the nodes. -/
abbrev KeysByNodes (keySize : ℕ) := Dict (List NodeName) (NodesGroup keySize)

/-- Enter a key and its position under a list of nodes. -/
def KeysByNodes.push (keysByNodes : KeysByNodes keySize) (nodes : List Node)
    (key : BobKey keySize) (ind : ℕ) : KeysByNodes keySize :=
  keysByNodes.insert (nodes.map (·.name))
    (match keysByNodes.lookup (nodes.map (·.name)) with
      | some (stored, keys, indexes) => (stored, keys ++ [key], indexes ++ [ind])
      | none => (nodes, [key], [ind]))

/-- What the nodes answer to calls, the orders in which the calls of a round finish, and the
order in which the groups are visited. -/
structure SimpleWorld (keySize : ℕ) where
  get : Node → BobGetOptions → BobKey keySize → Except (Error keySize) BobData
  exist : Node → BobGetOptions → List (BobKey keySize) → Except (Error keySize) (List Bool)
  getOrder : AnyOrder (GetTask keySize)
  existOrder : AnyOrder (ExistTask keySize)
  groupOrder : AnyOrder (Sigma fun _ : List NodeName => NodesGroup keySize)

def existOnNodes (world : SimpleWorld keySize) (nodes : List Node) (keys : List (BobKey keySize)) :
    List (ExistTask keySize) :=
  world.existOrder.arrange (nodes.map fun node => callNode node (world.exist node .newAll keys))

/-- Join the answer of a node to the flags at the positions of its keys. An error is dropped. -/
def joinResult (indexes : List ℕ) (exist : List Bool) (result : ExistTask keySize) :
    Except Panic (List Bool) :=
  match result with
  | .error _ => .ok exist
  | .ok output =>
    if (indexes.zip output.inner).any fun answer => exist.length ≤ answer.1 then
      .error ⟨"index out of bounds"⟩
    else .ok (scatterOr exist (indexes.zip output.inner))

namespace SimpleQuorum

variable (q : SimpleQuorum)

def getTargetNodes (key : BobKey keySize) : Except Panic (List Node) := do
  match ← q.mapper.getVdiskForKey key with
  | some vdisk => return vdisk.nodes
  | none => .error ⟨"get vdisk for key failed"⟩

def groupKeysByNodes (keys : List (BobKey keySize)) : Except Panic (KeysByNodes keySize) :=
  keys.zipIdx.foldlM (fun keysByNodes item => do
    let nodes ← q.getTargetNodes item.1
    return keysByNodes.push nodes item.1 item.2) ∅

def get (world : SimpleWorld keySize) (key : BobKey keySize) :
    Except Panic (Except (Error keySize) BobData) := do
  let targetNodes ← q.getTargetNodes key
  let results := world.getOrder.arrange
    (targetNodes.map fun node => callNode node (world.get node .newLocal key))
  match (results.filterMap okOf)[0]? with
  | some res => return .ok res.inner
  | none => return .error (.keyNotFound key)

/-- Ask the nodes of a group for its keys. -/
def existOnGroup (world : SimpleWorld keySize) (exist : List Bool)
    (entry : Sigma fun _ : List NodeName => NodesGroup keySize) : Except Panic (List Bool) :=
  let ⟨_, nodes, keys, indexes⟩ := entry
  (existOnNodes world nodes keys).foldlM (joinResult indexes) exist

def exist (world : SimpleWorld keySize) (keys : List (BobKey keySize)) :
    Except Panic (Except (Error keySize) (List Bool)) := do
  let keysByNodes ← q.groupKeysByNodes keys
  let exist ← (world.groupOrder.arrange keysByNodes.entries).foldlM (existOnGroup world)
    (List.replicate keys.length false)
  return .ok exist

end SimpleQuorum

/-! ## Sorting keys by target nodes -/

section Grouping

variable {q : SimpleQuorum} {targets : BobKey keySize → List Node} {keys : List (BobKey keySize)}

/-- The items of each group are those at its positions, and its nodes are the target nodes
of some key. -/
private structure Sorted (targets : BobKey keySize → List Node) (keys : List (BobKey keySize))
    (groups : KeysByNodes keySize) : Prop where
  aligned : Aligned Prod.snd keys groups
  nodes : ∀ names group, groups.lookup names = some group →
    group.1.map (·.name) = names ∧ ∃ key, group.1 = targets key

private theorem sorted_empty : Sorted targets keys ∅ where
  aligned := aligned_empty
  nodes := fun names group found => by simp at found

/-- What one turn of the loop stores: the nodes of the group stay the same, if there is one. -/
private theorem exists_push (groups : KeysByNodes keySize) (nodes : List Node)
    (key : BobKey keySize) (ind : ℕ) :
    ∃ group : NodesGroup keySize,
      groups.push nodes key ind = groups.insert (nodes.map (·.name)) group ∧
      group.2 = pushItem key ind ((groups.lookup (nodes.map (·.name))).map Prod.snd) ∧
      (group.1 = nodes ∨ ∃ stored, groups.lookup (nodes.map (·.name)) = some stored ∧
        group.1 = stored.1) := by
  refine ⟨_, rfl, ?_, ?_⟩
  · cases groups.lookup (nodes.map (·.name)) <;> rfl
  · cases groups.lookup (nodes.map (·.name)) with
    | none => exact Or.inl rfl
    | some stored => exact Or.inr ⟨stored, rfl, rfl⟩

private theorem Sorted.push {groups : KeysByNodes keySize} (sorted : Sorted targets keys groups)
    {key : BobKey keySize} {ind : ℕ} (here : keys[ind]? = some key) :
    Sorted targets keys (groups.push (targets key) key ind) ∧
      ∀ names i, FiledUnder Prod.snd (groups.push (targets key) key ind) names i ↔
        FiledUnder Prod.snd groups names i ∨ names = (targets key).map (·.name) ∧ i = ind := by
  obtain ⟨group, entered, pushed, kept⟩ := exists_push groups (targets key) key ind
  rw [entered]
  refine ⟨⟨sorted.aligned.insert here pushed, fun names other found => ?_⟩, fun names i =>
    filedUnder_insert pushed⟩
  by_cases same : names = (targets key).map (·.name)
  · subst same
    rw [AList.lookup_insert] at found
    cases found
    rcases kept with fresh | ⟨stored, before, kept⟩
    · rw [fresh]
      exact ⟨rfl, key, rfl⟩
    · rw [kept]
      exact sorted.nodes _ stored before
  · rw [AList.lookup_insert_ne same] at found
    exact sorted.nodes names other found

/-- Sorting enters each position under the target nodes of its key. -/
private theorem exists_groupKeysByNodes (routed : ∀ key, q.getTargetNodes key = .ok (targets key)) :
    ∃ groups, q.groupKeysByNodes keys = .ok groups ∧ Sorted targets keys groups ∧
      ∀ names i, FiledUnder Prod.snd groups names i ↔
        ∃ key, keys[i]? = some key ∧ names = (targets key).map (·.name) := by
  refine exists_foldlM_filed sorted_empty fun groups key ind sorted here => ?_
  obtain ⟨sorted', filed⟩ := sorted.push here
  exact ⟨_, bind_eq_ok_iff.mpr ⟨_, routed key, rfl⟩, sorted', filed⟩

end Grouping

/-! ## What the two requests find -/

section Requests

variable {q : SimpleQuorum} {world : SimpleWorld keySize} {targets : BobKey keySize → List Node}
  {keys : List (BobKey keySize)} {key : BobKey keySize}

/-- A read finds data if some target node answers with data. -/
theorem SimpleQuorum.exists_get {nodes : List Node} (routed : q.getTargetNodes key = .ok nodes) :
    ∃ answer, q.get world key = .ok answer ∧
      (HasData answer ↔ ∃ node ∈ nodes, HasData (world.get node .newLocal key)) := by
  let results := world.getOrder.arrange
    (nodes.map fun node => callNode node (world.get node .newLocal key))
  have none_iff : (results.filterMap okOf)[0]? = none ↔
      ¬ ∃ node ∈ nodes, HasData (world.get node .newLocal key) := by
    rw [← List.head?_eq_getElem?, List.head?_eq_none_iff, List.filterMap_eq_nil_iff]
    simp only [results, AnyOrder.mem_arrange, List.forall_mem_map, not_exists, not_and]
    refine forall₂_congr fun node _ => ?_
    cases world.get node .newLocal key <;> simp [callNode, okOf, HasData]
  have answered : q.get world key = .ok (match (results.filterMap okOf)[0]? with
      | some res => .ok res.inner
      | none => .error (.keyNotFound key)) := by
    rw [get, routed]
    change (match (results.filterMap okOf)[0]? with
      | some res => pure (Except.ok res.inner)
      | none => pure (Except.error (Error.keyNotFound key)) : Except Panic _) = _
    cases (results.filterMap okOf)[0]? <;> rfl
  refine ⟨_, answered, ?_⟩
  cases first : (results.filterMap okOf)[0]? with
  | none =>
    refine iff_of_false ?_ (none_iff.mp first)
    rintro ⟨data, found⟩
    cases found
  | some res =>
    have found : (results.filterMap okOf)[0]? ≠ none := by simp [first]
    exact iff_of_true ⟨res.inner, rfl⟩ (not_not.mp (mt none_iff.mpr found))

/-- What the answer of a node adds at a position. -/
private def joins (indexes : List ℕ) (result : ExistTask keySize) (i : ℕ) : Bool :=
  match result with
  | .ok output => (indexes.zip output.inner).any fun answer => decide (answer.1 = i) && answer.2
  | .error _ => false

private theorem joinResult_flags {indexes : List ℕ} {n : ℕ} (inside : ∀ i ∈ indexes, i < n)
    (result : ExistTask keySize) (flag : ℕ → Bool) :
    joinResult indexes (flags n flag) result =
      .ok (flags n fun i => flag i || joins indexes result i) := by
  cases result with
  | error e => simp [joinResult, joins]
  | ok output =>
    rw [joinResult, if_neg, scatterOr_flags]
    · rfl
    · -- positions beyond the flags do not occur
      rw [List.any_eq_true]
      rintro ⟨answer, member, beyond⟩
      have below := inside answer.1 (List.of_mem_zip member).1
      simp only [length_flags, decide_eq_true_eq] at beyond
      omega

variable {reports : NodeName → BobKey keySize → Bool}

/-- If each of its nodes answers by what it reports, a group joins to each of its positions
whether one of the nodes reports the key there. -/
private theorem existOnGroup_flags {n : ℕ}
    {entry : Sigma fun _ : List NodeName => NodesGroup keySize}
    (answers : ∀ node ∈ entry.2.1,
      AnswersFor entry.2.2.1 (reports node.name) (world.exist node .newAll entry.2.2.1))
    (aligned : entry.2.2.2.map (keys[·]?) = entry.2.2.1.map some)
    (inside : ∀ i ∈ entry.2.2.2, i < n) (flag : ℕ → Bool) :
    SimpleQuorum.existOnGroup world (flags n flag) entry =
      .ok (flags n fun i => flag i || (decide (i ∈ entry.2.2.2) && entry.2.1.any fun node =>
        keys[i]?.any (reports node.name))) := by
  obtain ⟨names, nodes, filed, indexes⟩ := entry
  have answer (node : Node) (member : node ∈ nodes) (i : ℕ) :
      joins indexes (callNode node (world.exist node .newAll filed)) i =
        (decide (i ∈ indexes) && keys[i]?.any (reports node.name)) := by
    rcases answers node member with answered | ⟨⟨e, failed⟩, none⟩
    · simp only at answered
      rw [answered]
      exact any_zip_of_aligned aligned
    · simp only at failed
      rw [failed]
      -- a node that does not answer reports nothing
      have missing : keys[i]?.any (reports node.name) = false := by
        cases keys[i]? <;> simp [none]
      simp [callNode, joins, missing]
  refine (foldlM_flags (joins indexes) fun result _ => joinResult_flags inside result).trans
    (congrArg Except.ok (flags_congr fun i _ => ?_))
  rw [existOnNodes, AnyOrder.any_arrange, List.any_map]
  congr 1
  rw [Bool.eq_iff_iff, Bool.and_eq_true, List.any_eq_true, List.any_eq_true]
  constructor
  · rintro ⟨node, member, joined⟩
    rw [Function.comp_apply, answer node member, Bool.and_eq_true] at joined
    exact ⟨joined.1, node, member, joined.2⟩
  · rintro ⟨listed, node, member, reported⟩
    refine ⟨node, member, ?_⟩
    rw [Function.comp_apply, answer node member, Bool.and_eq_true]
    exact ⟨listed, reported⟩

/-- A check reports each key that some target node of the key reports. -/
theorem SimpleQuorum.exist_eq (routed : ∀ key, q.getTargetNodes key = .ok (targets key))
    (answers : ∀ key, ∀ node ∈ targets key, ∀ asked,
      AnswersFor asked (reports node.name) (world.exist node .newAll asked)) :
    q.exist world keys =
      .ok (.ok (keys.map fun key => (targets key).any fun node => reports node.name key)) := by
  obtain ⟨groups, grouped, sorted, filed⟩ := @exists_groupKeysByNodes _ q targets keys routed
  have stored {entry : Sigma fun _ : List NodeName => NodesGroup keySize}
      (member : entry ∈ world.groupOrder.arrange groups.entries) :
      groups.lookup entry.1 = some entry.2 :=
    Dict.mem_entries_iff.mp (AnyOrder.mem_arrange.mp member)
  have answers' (entry : Sigma fun _ : List NodeName => NodesGroup keySize)
      (member : entry ∈ world.groupOrder.arrange groups.entries) (node : Node)
      (listed : node ∈ entry.2.1) :
      AnswersFor entry.2.2.1 (reports node.name) (world.exist node .newAll entry.2.2.1) := by
    obtain ⟨-, key, same⟩ := sorted.nodes _ _ (stored member)
    exact answers key node (same ▸ listed) _
  have asked := @foldlM_flags _ _ _ _ _ _ (fun _ => false) fun entry member =>
    existOnGroup_flags (answers' entry member) (sorted.aligned _ _ (stored member))
      fun i listed => sorted.aligned.lt_length (stored member) listed
  rw [flags_false] at asked
  rw [exist, grouped]
  change ((world.groupOrder.arrange groups.entries).foldlM (existOnGroup world)
    (List.replicate keys.length false) >>= fun exist => pure (Except.ok exist)) = _
  rw [asked]
  refine congrArg (fun found => Except.ok (Except.ok found)) (flags_eq_map fun i key here => ?_)
  -- the groups with this position are those of the target nodes of its key
  rw [Bool.false_or, AnyOrder.any_arrange, Bool.eq_iff_iff, List.any_eq_true]
  have byName (nodes : List Node) : (nodes.any fun node => reports node.name key) =
      (nodes.map (·.name)).any fun name => reports name key := by
    rw [List.any_map]
    rfl
  simp only [Bool.and_eq_true, decide_eq_true_eq, here, Option.any_some, byName]
  constructor
  · rintro ⟨⟨names, group⟩, member, listed, reported⟩
    have found := Dict.mem_entries_iff.mp member
    obtain ⟨key', here', same⟩ := (filed names i).mp ⟨group, found, listed⟩
    cases here.symm.trans here'
    rwa [(sorted.nodes names group found).1, same] at reported
  · intro reported
    obtain ⟨group, found, listed⟩ := (filed _ i).mpr ⟨key, here, rfl⟩
    refine ⟨⟨_, group⟩, Dict.mem_entries_iff.mpr found, listed, ?_⟩
    rwa [(sorted.nodes _ group found).1]

end Requests

/-! ## Nodes that answer by what they have -/

section Nodes

variable {σ : Type}

/-- The backend of a node: its store, the state of the store, and the order in which an
existence check visits its operations. -/
structure Served (σ : Type) (keySize : ℕ) where
  inner : BackendStorage (StateT σ (Except Panic)) keySize
  state : σ
  order : AnyOrder (Sigma fun _ : Operation => List (BobKey keySize) × List ℕ)

/-- What a request to the backend brings back. One that panics brings back an error. -/
def Served.reply {α : Type} (served : Served σ keySize)
    (request : StateT σ (Except Panic) (Except (Error keySize) α)) : Except (Error keySize) α :=
  match request served.state with
  | .ok (answer, _) => answer
  | .error _ => .error .internal

/-- The nodes that answer, the errors with which calls to the others fail, and the orders in
which calls finish and groups are visited. -/
structure SimpleChances (keySize : ℕ) where
  answering : NodeName → Bool
  failure : Node → Error keySize
  getOrder : AnyOrder (GetTask keySize)
  existOrder : AnyOrder (ExistTask keySize)
  groupOrder : AnyOrder (Sigma fun _ : List NodeName => NodesGroup keySize)

/-- What the simple policy meets. A request that is forced to a node goes to its backend. -/
def Deployment.simpleWorld (d : Deployment) (served : NodeName → Served σ keySize)
    (chances : SimpleChances keySize) : SimpleWorld keySize where
  get := fun node options key =>
    if chances.answering node.name then
      (served node.name).reply
        (Backend.get (served node.name).inner (d.mapper node.name) key options)
    else .error (chances.failure node)
  exist := fun node options keys =>
    if chances.answering node.name then
      (served node.name).reply (Backend.exist (served node.name).inner (d.mapper node.name)
        (served node.name).order keys options)
    else .error (chances.failure node)
  getOrder := chances.getOrder
  existOrder := chances.existOrder
  groupOrder := chances.groupOrder

/-- The node has the key on one of the disks that it has for the key. -/
def NormalCopy (mapper : Virtual) (has : Operation → BobKey keySize → Bool)
    (key : BobKey keySize) : Prop :=
  ∃ vdiskId paths, mapper.getOperation key = .ok (vdiskId, paths) ∧
    ∃ path ∈ paths.getD [], has (.newLocal vdiskId path) key = true

/-- The node has the key in its alien store. -/
def AlienCopy (mapper : Virtual) (has : Operation → BobKey keySize → Bool)
    (key : BobKey keySize) : Prop :=
  ∃ vdiskId paths, mapper.getOperation key = .ok (vdiskId, paths) ∧
    has (.newAlien vdiskId) key = true

variable {mapper : Virtual} {served : Served σ keySize} {has : Operation → BobKey keySize → Bool}
  {key : BobKey keySize}

/-- A read from a node finds data if the node has the key on a disk. -/
private theorem hasData_reply_get_iff (truthful : Truthful served.inner served.state has)
    {vdiskId : VDiskId} {paths : Option (List DiskPath)}
    (route : mapper.getOperation key = .ok (vdiskId, paths)) :
    HasData (served.reply (Backend.get served.inner mapper key .newLocal)) ↔
      NormalCopy mapper has key := by
  obtain ⟨res, replied, found⟩ := @get_finds_iff _ _ served.inner served.state mapper .newLocal key
    vdiskId _ False paths route (fun path => truthful.reads vdiskId path key) nofun
  have isSome : HasData res ↔ res.toOption.isSome = true := by
    rw [hasData_iff_toOption, Option.isSome_iff_ne_none]
  rw [Served.reply, replied, isSome, found]
  constructor
  · rintro (⟨-, onDisk⟩ | ⟨-, impossible⟩)
    · exact ⟨vdiskId, paths, route, onDisk⟩
    · exact impossible.elim
  · rintro ⟨vdiskId', paths', route', onDisk⟩
    cases route.symm.trans route'
    exact Or.inl ⟨rfl, onDisk⟩

/-- What a node reports for a key: one of the operations of the key has it. -/
private def reportsAny (mapper : Virtual) (has : Operation → BobKey keySize → Bool)
    (key : BobKey keySize) : Bool :=
  match findOperations mapper key .newAll with
  | .ok operations => operations.any fun op => has op key
  | .error _ => false

private theorem reply_exist (wf : mapper.WellFormed)
    (truthful : Truthful served.inner served.state has) (keys : List (BobKey keySize)) :
    served.reply (Backend.exist served.inner mapper served.order keys .newAll) =
      .ok (keys.map (reportsAny mapper has)) := by
  obtain ⟨operations, routed⟩ := @Pearl.exists_operations keySize mapper wf .newAll
  rw [Served.reply, exist_eq truthful.checks routed]
  refine congrArg Except.ok (List.map_congr_left fun key _ => ?_)
  rw [reportsAny, routed key]

private theorem reportsAny_iff {vdiskId : VDiskId} {paths : Option (List DiskPath)}
    (route : mapper.getOperation key = .ok (vdiskId, paths)) :
    reportsAny mapper has key = true ↔ NormalCopy mapper has key ∨ AlienCopy mapper has key := by
  have listed : ∃ operations, findOperations mapper key .newAll = .ok operations :=
    ⟨_, bind_eq_ok_iff.mpr ⟨_, route, rfl⟩⟩
  obtain ⟨operations, listed⟩ := listed
  rw [reportsAny, listed]
  simp only [List.any_eq_true]
  rw [exists_mem_operations_iff route listed]
  refine or_congr ?_ ?_
  · constructor
    · exact fun ⟨_, onDisk⟩ => ⟨vdiskId, paths, route, onDisk⟩
    · rintro ⟨vdiskId', paths', route', onDisk⟩
      cases route.symm.trans route'
      exact ⟨rfl, onDisk⟩
  · constructor
    · exact fun ⟨_, alien⟩ => ⟨vdiskId, paths, route, alien⟩
    · rintro ⟨vdiskId', paths', route', alien⟩
      cases route.symm.trans route'
      exact ⟨rfl, alien⟩

end Nodes

/-! ## Checks and reads of one cluster -/

section Cluster

variable {σ : Type} {cluster : Configs.Cluster} {d : Deployment} {reader : NodeName}
  {q : SimpleQuorum} {served : NodeName → Served σ keySize} {chances : SimpleChances keySize}
  {has : NodeName → Operation → BobKey keySize → Bool} {key : BobKey keySize}

/-- Some target node of the key that answers has a copy of this kind. -/
def OnAnsweringTarget (mapper : Virtual) (chances : SimpleChances keySize)
    (copy : NodeName → BobKey keySize → Prop) (key : BobKey keySize) : Prop :=
  ∃ name, IsTarget mapper key name ∧ chances.answering name = true ∧ copy name key

/-- An existence check answers for each key as a read of the key. -/
def SimpleQuorum.Agrees (q : SimpleQuorum) (world : SimpleWorld keySize)
    (keys : List (BobKey keySize)) : Prop :=
  ∃ found, q.exist world keys = .ok (.ok found) ∧ found.length = keys.length ∧
    ∀ (i : ℕ) (key : BobKey keySize), keys[i]? = some key →
      (found[i]? = some true ↔ ∃ data, q.get world key = .ok (.ok data))

private theorem getTargetNodes_eq {id : VDiskId} {vdisk : DataVDisk}
    (routes : Routes d cluster key id vdisk reader) (asked : q.mapper = d.mapper reader) :
    q.getTargetNodes key = .ok vdisk.nodes := by
  rw [SimpleQuorum.getTargetNodes, asked, Virtual.getVdiskForKey, routes.vdiskId]
  change (match (d.mapper reader).vdisks.lookup id with
    | some vdisk => pure vdisk.nodes
    | none => Except.error ⟨"get vdisk for key failed"⟩ : Except Panic _) = _
  rw [routes.stored]
  rfl

private theorem mapper_of_getCluster {mapper : Virtual} {config : NodeConfig}
    (chosen : getCluster mapper config = .ok (.simple q)) : q.mapper = mapper := by
  unfold getCluster at chosen
  split_ifs at chosen
  · cases chosen
    rfl
  · cases chosen

private theorem onAnsweringTarget_iff {id : VDiskId} {vdisk : DataVDisk}
    (routes : Routes d cluster key id vdisk reader) {copy : NodeName → BobKey keySize → Prop} :
    OnAnsweringTarget (d.mapper reader) chances copy key ↔
      ∃ node ∈ vdisk.nodes, chances.answering node.name = true ∧ copy node.name key := by
  have targets := Virtual.getTargetNodesForKey_eq routes.vdiskId routes.stored
  simp only [OnAnsweringTarget, isTarget_iff targets, List.mem_map]
  constructor
  · rintro ⟨_, ⟨node, member, rfl⟩, rest⟩
    exact ⟨node, member, rest⟩
  · rintro ⟨node, member, rest⟩
    exact ⟨_, ⟨node, member, rfl⟩, rest⟩

private theorem name_mem_of_target {id : VDiskId} {vdisk : DataVDisk}
    (routes : Routes d cluster key id vdisk reader) {node : Node} (member : node ∈ vdisk.nodes) :
    node.name ∈ nodeNames cluster :=
  routes.name_mem ((routes.wellFormed.placed _ _ routes.stored).nodes_sublist.subset member)

section Answers

variable {id : BobKey keySize → VDiskId} {vdisk : BobKey keySize → DataVDisk}
  (routes : ∀ key, ∀ name ∈ nodeNames cluster, Routes d cluster key (id key) (vdisk key) name)
  (asked : reader ∈ nodeNames cluster) (same : q.mapper = d.mapper reader)
  (truthful : ∀ name ∈ nodeNames cluster, chances.answering name = true →
    Truthful (served name).inner (served name).state (has name))
include routes asked same truthful

/-- A read finds data if an answering target has the key on a disk. -/
private theorem get_finds_data_iff (key : BobKey keySize) :
    (∃ data, q.get (d.simpleWorld served chances) key = .ok (.ok data)) ↔
      OnAnsweringTarget q.mapper chances (fun name => NormalCopy (d.mapper name) (has name))
        key := by
  have here := routes key reader asked
  obtain ⟨answer, got, found⟩ := @SimpleQuorum.exists_get _ q (d.simpleWorld served chances) key _
    (getTargetNodes_eq here same)
  have isData : (∃ data, q.get (d.simpleWorld served chances) key = .ok (.ok data)) ↔
      HasData answer := by
    simp only [got, Except.ok.injEq, HasData]
  rw [isData, found, same, onAnsweringTarget_iff here]
  refine exists_congr fun node => and_congr_right fun member => ?_
  have named := name_mem_of_target here member
  obtain ⟨paths, route, -⟩ := (routes key node.name named).operation
  dsimp only [Deployment.simpleWorld]
  split_ifs with answers
  · rw [hasData_reply_get_iff (truthful node.name named answers) route]
    simp only [answers, true_and]
  · simp [HasData, answers]

/-- A check reports a key if an answering target has it at all. -/
private theorem exists_exist_reports (keys : List (BobKey keySize)) :
    ∃ found, q.exist (d.simpleWorld served chances) keys = .ok (.ok found) ∧
      found.length = keys.length ∧ ∀ (i : ℕ) (key : BobKey keySize), keys[i]? = some key →
        (found[i]? = some true ↔ OnAnsweringTarget q.mapper chances
          (fun name key => NormalCopy (d.mapper name) (has name) key ∨
            AlienCopy (d.mapper name) (has name) key) key) := by
  -- a node that does not answer reports nothing
  let reports (name : NodeName) (key : BobKey keySize) : Bool :=
    chances.answering name && reportsAny (d.mapper name) (has name) key
  have answers (key : BobKey keySize) (node : Node) (member : node ∈ (vdisk key).nodes)
      (ask : List (BobKey keySize)) : AnswersFor ask (reports node.name)
        ((d.simpleWorld served chances).exist node .newAll ask) := by
    have named := name_mem_of_target (routes key reader asked) member
    dsimp only [Deployment.simpleWorld, reports]
    split_ifs with answering
    · simp only [answering, Bool.true_and]
      exact Or.inl (reply_exist (routes key node.name named).wellFormed
        (truthful node.name named answering) ask)
    · simp only [answering, Bool.false_and]
      exact answersFor_error
  refine ⟨_, SimpleQuorum.exist_eq (fun key => getTargetNodes_eq (routes key reader asked) same)
    answers, List.length_map .., fun i key here => ?_⟩
  rw [List.getElem?_map, here, Option.map_some, Option.some.injEq, List.any_eq_true, same,
    onAnsweringTarget_iff (routes key reader asked)]
  refine exists_congr fun node => and_congr_right fun member => ?_
  obtain ⟨paths, route, -⟩ :=
    (routes key node.name (name_mem_of_target (routes key reader asked) member)).operation
  rw [Bool.and_eq_true, reportsAny_iff route]

end Answers

private theorem onAnsweringTarget_or {mapper : Virtual}
    {copy other : NodeName → BobKey keySize → Prop} :
    OnAnsweringTarget mapper chances (fun name key => copy name key ∨ other name key) key ↔
      OnAnsweringTarget mapper chances copy key ∨ OnAnsweringTarget mapper chances other key := by
  simp only [OnAnsweringTarget, and_or_left, exists_or]

/-- Under the simple policy, existence checks agree with reads exactly if, for each key, an
alien copy on an answering target comes with a copy on a disk of an answering target. -/
theorem simple_exist_agrees_with_get_iff {ext : Externals} {config : NodeConfig}
    (validated : cluster.validate ext.parseUri = .ok ()) (built : d.BuiltFrom cluster)
    (asked : reader ∈ nodeNames cluster)
    (chosen : getCluster (d.mapper reader) config = .ok (.simple q))
    (truthful : ∀ name ∈ nodeNames cluster, chances.answering name = true →
      Truthful (served name).inner (served name).state (has name))
    (keys : List (BobKey keySize)) :
    q.Agrees (d.simpleWorld served chances) keys ↔
      ∀ key ∈ keys,
        OnAnsweringTarget q.mapper chances (fun name => AlienCopy (d.mapper name) (has name)) key →
        OnAnsweringTarget q.mapper chances (fun name => NormalCopy (d.mapper name) (has name))
          key := by
  have valid := Cluster.valid_of_validate validated
  have same := mapper_of_getCluster chosen
  choose id vdisk routes using fun key : BobKey keySize => built.exists_routes valid key
  have reads := get_finds_data_iff routes asked same truthful
  obtain ⟨found, checked, length, flagged⟩ :=
    exists_exist_reports routes asked same truthful keys
  constructor
  · rintro ⟨found', checked', -, agrees⟩ key member alien
    cases checked.symm.trans checked'
    obtain ⟨i, here⟩ := List.getElem?_of_mem member
    have reported := (flagged i key here).mpr (onAnsweringTarget_or.mpr (Or.inr alien))
    exact (reads key).mp ((agrees i key here).mp reported)
  · intro covered
    refine ⟨found, checked, length, fun i key here => ?_⟩
    rw [flagged i key here, reads key, onAnsweringTarget_or]
    exact or_iff_left_of_imp (covered key (List.mem_of_getElem? here))

end Cluster

/-! ## The small cluster under the simple policy -/

/-- The node file of the first node, with the simple policy. -/
def simpleNode : NodeConfig := { Virtual.preparedSmallNode with clusterPolicy := "simple" }

/-- The simple policy of the first node. -/
def smallSimple : SimpleQuorum := ⟨smallDeployment.mapper ⟨"alpha"⟩, 2⟩

/-- All nodes answer, in the order in which they are asked. -/
def allAnswer : SimpleChances 8 :=
  ⟨fun _ => true, fun node => .failed node.name.str, .launched, .launched, .launched⟩

/-- Backends over the stores of a network. -/
def servedBy (net : Network (logEngine 8)) (name : NodeName) : Served (Pearl (logEngine 8)) 8 :=
  ⟨Pearl.storage (smallDeployment.makeDir name), net name, .launched⟩

/-- The target nodes have the key on their disks, so alien copies do not matter. -/
theorem small_exist_agrees_with_get :
    getCluster (smallDeployment.mapper ⟨"alpha"⟩) simpleNode = .ok (.simple smallSimple) ∧
    smallSimple.Agrees (smallDeployment.simpleWorld (servedBy smallNetwork) allAnswer)
      [pairKey, pairKey] := by
  have asked : (⟨"alpha"⟩ : NodeName) ∈ nodeNames Virtual.smallCluster := by decide
  have chosen : getCluster (smallDeployment.mapper ⟨"alpha"⟩) simpleNode =
      .ok (.simple smallSimple) := rfl
  refine ⟨chosen, (simple_exist_agrees_with_get_iff Virtual.validate_small
    builtFrom_smallDeployment asked chosen
    (fun name _ _ => Pearl.truthful_storage (logEngine.lawful 8)) _).mpr ?_⟩
  intro key member _
  obtain rfl : key = pairKey := by simpa using member
  refine ⟨⟨"alpha"⟩, ⟨_, rfl, by decide⟩, rfl, 0, some [⟨⟨"disk1"⟩, "/mnt/1"⟩], by decide, ?_⟩
  exact ⟨_, List.mem_singleton_self _, by decide⟩

/-- The first node while its disks are not ready: a write to a disk is kept as alien data of
the node itself. -/
def afterDiskFailure : Option (Pearl (logEngine 8)) :=
  let p : Pearl (logEngine 8) :=
    { diskControllers :=
        Pearl.smallSettings.readGroupFromDisk Virtual.smallMapper ⟨"alpha"⟩ .launched
      alienDiskController := Pearl.smallPearl.alienDiskController.started }
  match Backend.putLocal (Pearl.storage fun _ _ => .ok ()) Virtual.smallMapper Pearl.doubleKey
      ⟨[7], ⟨5⟩⟩ (.newLocal 1 ⟨⟨"disk1"⟩, "/mnt/1"⟩) p with
  | .ok (.ok (), p) => some { p with diskControllers := p.diskControllers.map (·.started) }
  | _ => none

/-- A key whose write fell back to the alien store of its target is reported, also if it is
asked for twice, but a read does not find it. -/
theorem fallback_copy_reported_not_read :
    Virtual.smallCluster.validate Virtual.lenientExternals.parseUri = .ok () ∧
    smallDeployment.BuiltFrom Virtual.smallCluster ∧
    getCluster (smallDeployment.mapper ⟨"alpha"⟩) simpleNode = .ok (.simple smallSimple) ∧
    ∃ p : Pearl (logEngine 8), afterDiskFailure = some p ∧
      (∀ name, Truthful (servedBy (fun _ => p) name).inner (servedBy (fun _ => p) name).state
        p.reports) ∧
      smallSimple.exist (smallDeployment.simpleWorld (servedBy fun _ => p) allAnswer)
        [Pearl.doubleKey, Pearl.doubleKey] = .ok (.ok [true, true]) ∧
      smallSimple.get (smallDeployment.simpleWorld (servedBy fun _ => p) allAnswer)
        Pearl.doubleKey = .ok (.error (.keyNotFound Pearl.doubleKey)) := by
  refine ⟨Virtual.validate_small, builtFrom_smallDeployment, rfl, ?_⟩
  obtain ⟨p, put, answers⟩ : ∃ p, afterDiskFailure = some p ∧
      (smallSimple.exist (smallDeployment.simpleWorld (servedBy fun _ => p) allAnswer)
        [Pearl.doubleKey, Pearl.doubleKey],
      smallSimple.get (smallDeployment.simpleWorld (servedBy fun _ => p) allAnswer)
        Pearl.doubleKey) =
        (.ok (.ok [true, true]), .ok (.error (.keyNotFound Pearl.doubleKey))) := by
    apply Option.map_eq_some_iff.mp
    decide +kernel
  obtain ⟨reported, missed⟩ := Prod.mk.inj answers
  exact ⟨p, put, fun _ => Pearl.truthful_storage (logEngine.lawful 8), reported, missed⟩

end Bob.Cluster

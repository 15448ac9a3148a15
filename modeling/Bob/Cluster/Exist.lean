/-
# Batched existence checks

A batch of keys is regrouped by node. The local node is asked first, then primary
and secondary nodes for the keys still missing, then the alien stores. Each node
gets its own sub-batch, and the answers are scattered back by index. The indexing
operations of the source can panic; here they return a panic value, and none is
reached. Each store answers a batch key by key, or its node fails.
-/

import Bob.Cluster.Operations
import Bob.Common.Routing

namespace Bob.Cluster

open Bob.Math Bob.Configs

variable {keySize : ℕ}

/-! ## Index maps -/

/-- Positions in the batch of the keys that concern one node. -/
structure IndexMap where
  indexes : List ℕ
  deriving DecidableEq, Repr

namespace IndexMap

def new : IndexMap := ⟨[]⟩

def whereNotExists (data : List Bool) : IndexMap :=
  ⟨(data.zipIdx.filter fun entry => !entry.1).map (·.2)⟩

def isEmpty (map : IndexMap) : Bool := map.indexes.isEmpty

def push (map : IndexMap) (item : ℕ) : IndexMap := ⟨map.indexes ++ [item]⟩

def collect {α : Type} (map : IndexMap) (data : List α) : Except Panic (List α) :=
  map.indexes.mapM fun i =>
    match data[i]? with
    | some item => .ok item
    | none => .error ⟨"index out of bounds"⟩

def updateExistence (map : IndexMap) (original mapped : List Bool) : Except Panic (List Bool) :=
  if map.indexes.length ≠ mapped.length then
    .error ⟨"assertion failed: self.indexes.len() == mapped.len()"⟩
  else if map.indexes.any fun i => i ≥ original.length then
    .error ⟨"index out of bounds"⟩
  else .ok (scatterOr original (map.indexes.zip mapped))

def retainNotExisted (map : IndexMap) (original : List Bool) : Except Panic IndexMap :=
  if map.indexes.any fun i => i ≥ original.length then
    .error ⟨"index out of bounds"⟩
  else .ok ⟨map.indexes.filter fun i => original[i]? = some false⟩

end IndexMap

/-! ## Grouping by node -/

/-- Index maps by node. Nodes are compared by name; the entry keeps the node. -/
abbrev NodeMaps := Dict NodeName (Node × IndexMap)

/-- File an index under a node, creating its map if there is none. -/
def NodeMaps.pushTo (maps : NodeMaps) (node : Node) (index : ℕ) : NodeMaps :=
  maps.insert node.name (match maps.lookup node.name with
    | some (stored, map) => (stored, map.push index)
    | none => (node, IndexMap.new.push index))

/-- The three groups that `group_by_nodes` fills. -/
structure Groups where
  localMap : IndexMap
  primary : NodeMaps
  secondary : NodeMaps

namespace Groups

/-- A key without a local or primary target makes one of its targets primary. -/
def addPrimary (groups : Groups) (localNode : NodeName) (targetNodes : List Node) : Groups :=
  if targetNodes.any fun n => n.name = localNode || (groups.primary.lookup n.name).isSome then
    groups
  else
    match targetNodes.find? fun n => (groups.secondary.lookup n.name).isNone with
    | some node =>
      { groups with primary := groups.primary.insert node.name (node, IndexMap.new) }
    | none => groups

/-- File the index of a key under one of its target nodes. -/
def pushNode (localNode : NodeName) (index : ℕ) (groups : Groups) (node : Node) : Groups :=
  if node.name = localNode then
    { groups with localMap := groups.localMap.push index }
  else if (groups.primary.lookup node.name).isSome then
    { groups with primary := groups.primary.pushTo node index }
  else
    { groups with secondary := groups.secondary.pushTo node index }

def addKey (localNode : NodeName) (groups : Groups) (targetNodes : List Node) (index : ℕ) :
    Groups :=
  targetNodes.foldl (pushNode localNode index) (groups.addPrimary localNode targetNodes)

end Groups

/-- The loop over the keys, from position `index`. -/
def groupFrom (mapper : Virtual) (groups : Groups) (index : ℕ) :
    List (BobKey keySize) → Except Panic Groups
  | [] => .ok groups
  | key :: rest => do
    let targetNodes ← mapper.getTargetNodesForKey key
    groupFrom mapper (groups.addKey mapper.localNodeName targetNodes index) (index + 1) rest

def groupByNodes (keys : List (BobKey keySize)) (mapper : Virtual) : Except Panic Groups :=
  groupFrom mapper ⟨IndexMap.new, ∅, ∅⟩ 0 keys

/-! ## Asking the nodes -/

/-- What a store says about each key, or the error with which its node fails. -/
abbrev StoreAnswer (keySize : ℕ) := Except (Error keySize) (BobKey keySize → Bool)

/-- The answer to a batch: one flag per key. -/
def StoreAnswer.batch (answer : StoreAnswer keySize) (keys : List (BobKey keySize)) :
    Except (Error keySize) (List Bool) :=
  answer.map fun holds => keys.map holds

/-- The store answers and reports the key. -/
def StoreAnswer.reports (answer : StoreAnswer keySize) (key : BobKey keySize) : Bool :=
  match answer with
  | .ok holds => holds key
  | .error _ => false

/-- The calls of an existence check to other nodes. -/
abbrev ExistTask (keySize : ℕ) := CallResult (List Bool) (Error keySize)

/-- The stores of the cluster, and the orders in which the rounds of calls finish. -/
structure ExistWorld (keySize : ℕ) where
  localNormal : StoreAnswer keySize
  localAlien : StoreAnswer keySize
  normal : NodeName → StoreAnswer keySize
  alien : NodeName → StoreAnswer keySize
  primaryOrder : AnyOrder (ExistTask keySize)
  secondaryOrder : AnyOrder (ExistTask keySize)
  alienOrder : AnyOrder (ExistTask keySize)

section Operations

variable (world : ExistWorld keySize)

def existOnLocalNode (keys : List (BobKey keySize)) : Except (Error keySize) (List Bool) :=
  world.localNormal.batch keys

def existOnLocalAlien (keys : List (BobKey keySize)) : Except (Error keySize) (List Bool) :=
  world.localAlien.batch keys

/-- Each node is asked for the keys stored under its name. -/
def existOnRemoteNodes (order : AnyOrder (ExistTask keySize))
    (keysByNode : Dict NodeName (Node × List (BobKey keySize))) :
    Except Panic (List (ExistTask keySize)) := do
  let calls ← keysByNode.values.mapM fun (node, _) =>
    match keysByNode.lookup node.name with
    | some (_, keys) => .ok (callNode node ((world.normal node.name).batch keys))
    | none => .error ⟨"map is based on nodes from values"⟩
  return order.arrange calls

def existOnRemoteAliens (nodes : List Node) (keys : List (BobKey keySize)) :
    List (ExistTask keySize) :=
  world.alienOrder.arrange (nodes.map fun node =>
    callNode node ((world.alien node.name).batch keys))

end Operations

namespace Quorum

variable (q : Quorum) (world : ExistWorld keySize)

/-- Drop the indexes already found, and keep the node of each map. -/
def pruneMaps (result : List Bool) (indexesByNode : NodeMaps) : Except Panic NodeMaps :=
  indexesByNode.entries.foldlM (fun acc entry => do
    let value ← (entry.2.2.retainNotExisted result).map fun map => (entry.2.1, map)
    pure (acc.insert entry.1 value)) ∅

/-- The sub-batches of the nodes whose maps are not empty. -/
def collectKeys (keys : List (BobKey keySize)) (indexesByNode : NodeMaps) :
    Except Panic (Dict NodeName (Node × List (BobKey keySize))) :=
  (indexesByNode.entries.filter fun entry => !entry.2.2.isEmpty).foldlM (fun acc entry => do
    let value ← (entry.2.2.collect keys).map fun nodeKeys => (entry.2.1, nodeKeys)
    pure (acc.insert entry.2.1.name value)) ∅

/-- Scatter the answer of one node. -/
def updateFrom (keysByNode : Dict NodeName (Node × List (BobKey keySize)))
    (indexesByNode : NodeMaps) (result : List Bool) (remoteResult : ExistTask keySize) :
    Except Panic (List Bool) :=
  match remoteResult with
  | .error _ => .ok result
  | .ok output =>
    match keysByNode.lookup output.nodeName with
    | none => .error ⟨"result should be from known node"⟩
    | some (node, _) =>
      match indexesByNode.lookup node.name with
      -- both lookups end in `expect`
      | none => .error ⟨"node should exist"⟩
      | some (_, map) => map.updateExistence result output.inner

def collectRemoteExists (order : AnyOrder (ExistTask keySize)) (result : List Bool)
    (keys : List (BobKey keySize)) (indexesByNode : NodeMaps) : Except Panic (List Bool) := do
  if indexesByNode.entries.isEmpty then
    return result
  let indexesByNode ← pruneMaps result indexesByNode
  let keysByNode ← collectKeys keys indexesByNode
  if keysByNode.entries.isEmpty then
    return result
  let remoteResults ← existOnRemoteNodes world order keysByNode
  remoteResults.foldlM (updateFrom keysByNode indexesByNode) result

/-- Ask the local node for its keys. -/
def existLocal (result : List Bool) (keys : List (BobKey keySize)) (localMap : IndexMap) :
    Except Panic (List Bool) :=
  if localMap.isEmpty then .ok result
  else do
    let localKeys ← localMap.collect keys
    match existOnLocalNode world localKeys with
    | .ok localExist => localMap.updateExistence result localExist
    | .error _ => .ok result

/-- Ask the local alien store for the keys still missing. Returns the keys that
are missing afterwards as well. -/
def existLocalAlien (result : List Bool) (keys : List (BobKey keySize))
    (alienIndexMap : IndexMap) : Except Panic (List Bool × IndexMap) :=
  if alienIndexMap.isEmpty then .ok (result, alienIndexMap)
  else do
    let alienKeys ← alienIndexMap.collect keys
    match existOnLocalAlien world alienKeys with
    | .ok localAlienResult =>
      let result ← alienIndexMap.updateExistence result localAlienResult
      let alienIndexMap ← alienIndexMap.retainNotExisted result
      return (result, alienIndexMap)
    | .error _ => .ok (result, alienIndexMap)

/-- Ask the alien stores of all other nodes for the keys still missing. -/
def existRemoteAliens (result : List Bool) (keys : List (BobKey keySize))
    (alienIndexMap : IndexMap) : Except Panic (List Bool) :=
  if alienIndexMap.isEmpty then .ok result
  else do
    let allRemoteNodes := q.mapper.nodes.filter fun n => n.name ≠ q.mapper.localNodeName
    let alienKeys ← alienIndexMap.collect keys
    (existOnRemoteAliens world allRemoteNodes alienKeys).foldlM (fun result remoteAlienResult =>
      match remoteAlienResult with
      | .ok output => alienIndexMap.updateExistence result output.inner
      | .error _ => .ok result) result

def exist (keys : List (BobKey keySize)) : Except Panic (List Bool) := do
  let groups ← groupByNodes keys q.mapper
  let result ← existLocal world (List.replicate keys.length false) keys groups.localMap
  let result ← collectRemoteExists world world.primaryOrder result keys groups.primary
  let result ← collectRemoteExists world world.secondaryOrder result keys groups.secondary
  let alienIndexMap := IndexMap.whereNotExists result
  let (result, alienIndexMap) ← existLocalAlien world result keys alienIndexMap
  q.existRemoteAliens world result keys alienIndexMap

end Quorum

/-! ## Index maps over flags -/

/-- Whether a store reports the key at a position of the batch. -/
def asked (keys : List (BobKey keySize)) (answer : StoreAnswer keySize) (i : ℕ) : Bool :=
  (keys[i]?).any answer.reports

/-- A node that fails reports nothing. -/
@[simp] theorem asked_error {keys : List (BobKey keySize)} {e : Error keySize} {i : ℕ} :
    asked keys (.error e) i = false := by
  unfold asked
  cases keys[i]? <;> rfl

namespace IndexMap

variable {map : IndexMap} {n : ℕ} {flag : ℕ → Bool}

/-- Every index is below `n`. -/
def Within (map : IndexMap) (n : ℕ) : Prop := ∀ i ∈ map.indexes, i < n

private theorem not_any_ge (within : map.Within n) :
    (map.indexes.any fun i => i ≥ (flags n flag).length) = false := by
  rw [List.any_eq_false]
  intro i hi
  simpa using within i hi

/-- Collecting succeeds, and a flag of a collected item is a flag of its index. -/
theorem exists_collect {α : Type} {data : List α} (within : map.Within data.length) :
    ∃ collected, map.collect data = .ok collected ∧
      ∀ f : α → Bool, collected.map f = map.indexes.map fun i => (data[i]?).any f := by
  have succeeds (i : ℕ) (hi : i ∈ map.indexes) : ∃ item, (match data[i]? with
      | some item => Except.ok item
      | none => .error (⟨"index out of bounds"⟩ : Panic)) = .ok item := by
    rw [List.getElem?_eq_getElem (within i hi)]
    exact ⟨_, rfl⟩
  obtain ⟨collected, hcollected⟩ := exists_mapM_eq_ok succeeds
  refine ⟨collected, hcollected, fun f => ?_⟩
  have pointwise := mapM_eq_ok_iff.mp hcollected
  -- the induction is over indexes and items side by side
  clear hcollected succeeds within
  generalize map.indexes = indexes at pointwise ⊢
  induction pointwise with
  | nil => rfl
  | @cons i item _ _ found _ ih =>
    rw [List.map_cons, List.map_cons, ih]
    cases hi : data[i]? with
    | none => simp [hi] at found
    | some value =>
      rw [hi] at found
      cases found
      rfl

/-- Answers of the right length are joined at their indexes. -/
theorem updateExistence_flags (within : map.Within n) {mapped : List Bool}
    (len : map.indexes.length = mapped.length) :
    map.updateExistence (flags n flag) mapped = .ok (flags n fun i => flag i ||
      (map.indexes.zip mapped).any fun pair => decide (pair.1 = i) && pair.2) := by
  rw [updateExistence, if_neg (not_not.mpr len), not_any_ge within, if_neg Bool.false_ne_true,
    scatterOr_flags]

theorem retainNotExisted_flags (within : map.Within n) :
    map.retainNotExisted (flags n flag) = .ok ⟨map.indexes.filter fun i => !flag i⟩ := by
  rw [retainNotExisted, not_any_ge within, if_neg Bool.false_ne_true]
  refine congrArg (fun indexes => Except.ok (IndexMap.mk indexes)) ?_
  refine List.filter_congr fun i hi => ?_
  rw [getElem?_flags (within i hi)]
  cases flag i <;> rfl

theorem mem_whereNotExists_flags {i : ℕ} :
    i ∈ (whereNotExists (flags n flag)).indexes ↔ i < n ∧ flag i = false := by
  simp only [whereNotExists, List.mem_map, List.mem_filter, Prod.exists,
    List.mk_mem_zipIdx_iff_getElem?]
  constructor
  · rintro ⟨value, j, ⟨found, isFalse⟩, rfl⟩
    have below : j < n := by
      by_contra above
      simp [flags, above] at found
    rw [getElem?_flags below] at found
    exact ⟨below, by simpa [Option.some.inj found] using isFalse⟩
  · rintro ⟨below, isFalse⟩
    exact ⟨false, i, ⟨by rw [getElem?_flags below, isFalse], rfl⟩, rfl⟩

end IndexMap

/-- What a finished call adds at position `i`, when its answers belong to `map`. -/
private def joinedBy (map : IndexMap) (task : ExistTask keySize) (i : ℕ) : Bool :=
  match task with
  | .ok output => (map.indexes.zip output.inner).any fun pair => decide (pair.1 = i) && pair.2
  | .error _ => false

private theorem joinedBy_callNode {map : IndexMap} {keys collected : List (BobKey keySize)}
    {node : Node} {answer : StoreAnswer keySize} {i : ℕ}
    (same : ∀ f : BobKey keySize → Bool,
      collected.map f = map.indexes.map fun i => (keys[i]?).any f) :
    joinedBy map (callNode node (answer.batch collected)) i =
      (decide (i ∈ map.indexes) && asked keys answer i) := by
  cases answer with
  | error e => simp [StoreAnswer.batch, callNode, Except.map, joinedBy]
  | ok holds =>
    simp only [StoreAnswer.batch, callNode, Except.map, joinedBy, same holds, any_zip_map]
    rfl

private theorem length_eq_of_callNode {map : IndexMap} {keys collected : List (BobKey keySize)}
    {node : Node} {answer : StoreAnswer keySize} {output : NodeOutput (List Bool)}
    (same : ∀ f : BobKey keySize → Bool,
      collected.map f = map.indexes.map fun i => (keys[i]?).any f)
    (called : callNode node (answer.batch collected) = .ok output) :
    output.nodeName = node.name ∧ map.indexes.length = output.inner.length := by
  cases answer with
  | error e => cases called
  | ok holds =>
    cases called
    have len : (collected.map holds).length = map.indexes.length := by
      rw [same holds, List.length_map]
    exact ⟨rfl, len.symm⟩

namespace Quorum

/-! ## The phases -/

section Phases

variable {q : Quorum} {world : ExistWorld keySize} {keys : List (BobKey keySize)}
  {flag : ℕ → Bool} {map : IndexMap}

theorem existLocal_flags (within : map.Within keys.length) :
    existLocal world (flags keys.length flag) keys map = .ok (flags keys.length fun i =>
      flag i || (decide (i ∈ map.indexes) && asked keys world.localNormal i)) := by
  obtain ⟨collected, hcollected, same⟩ := IndexMap.exists_collect within
  unfold existLocal
  split_ifs with empty
  · have none : map.indexes = [] := List.isEmpty_iff.mp empty
    simp [none]
  · rw [hcollected]
    simp only [bind, Except.bind, existOnLocalNode, StoreAnswer.batch]
    cases answer : world.localNormal with
    | error e => simp [Except.map]
    | ok holds =>
      simp only [Except.map, same holds]
      rw [IndexMap.updateExistence_flags within (by simp)]
      simp only [any_zip_map]
      rfl

/-- The local alien store. What is missing before stays in the map if it is missing
after. -/
theorem exists_existLocalAlien_flags (world : ExistWorld keySize)
    (within : map.Within keys.length)
    (covers : ∀ i < keys.length, flag i = false → i ∈ map.indexes) :
    let flag' := fun i => flag i || asked keys world.localAlien i
    ∃ rest : IndexMap,
      existLocalAlien world (flags keys.length flag) keys map =
        .ok (flags keys.length flag', rest) ∧
      rest.Within keys.length ∧ ∀ i < keys.length, flag' i = false → i ∈ rest.indexes := by
  intro flag'
  obtain ⟨collected, hcollected, same⟩ := IndexMap.exists_collect within
  -- positions outside the map are found already, so it does not matter that only
  -- those in the map are asked
  have joined : flags keys.length flag' = flags keys.length fun i =>
      flag i || (decide (i ∈ map.indexes) && asked keys world.localAlien i) := by
    refine flags_congr fun i below => ?_
    cases found : flag i with
    | true => simp [flag', found]
    | false => simp [flag', found, covers i below found]
  have missing (i : ℕ) (isFalse : flag' i = false) : flag i = false :=
    (Bool.or_eq_false_iff.mp isFalse).1
  unfold existLocalAlien
  split_ifs with empty
  · have none : map.indexes = [] := List.isEmpty_iff.mp empty
    refine ⟨map, ?_, within, fun i below isFalse => covers i below (missing i isFalse)⟩
    rw [joined]
    simp [none]
  · rw [hcollected]
    simp only [bind, Except.bind, existOnLocalAlien, StoreAnswer.batch]
    cases answer : world.localAlien with
    -- the store failed: nothing is joined, and the map is not pruned either
    | error e =>
      refine ⟨map, ?_, within, fun i below isFalse => covers i below (missing i isFalse)⟩
      simp [Except.map, flag', answer]
    | ok holds =>
      have updated : map.updateExistence (flags keys.length flag) (collected.map holds) =
          .ok (flags keys.length flag') := by
        rw [same holds, IndexMap.updateExistence_flags within (by simp), joined]
        simp only [any_zip_map, answer]
        rfl
      refine ⟨⟨map.indexes.filter fun i => !flag' i⟩, ?_, ?_, fun i below isFalse => ?_⟩
      · simp only [Except.map, updated, IndexMap.retainNotExisted_flags within]
        rfl
      · exact fun i hi => within i (List.mem_filter.mp hi).1
      · exact List.mem_filter.mpr ⟨covers i below (missing i isFalse), by rw [isFalse]; rfl⟩

/-- The alien stores of the other nodes. -/
theorem existRemoteAliens_flags (within : map.Within keys.length)
    (covers : ∀ i < keys.length, flag i = false → i ∈ map.indexes) :
    q.existRemoteAliens world (flags keys.length flag) keys map =
      .ok (flags keys.length fun i => flag i || q.mapper.nodes.any fun n =>
        n.name ≠ q.mapper.localNodeName && asked keys (world.alien n.name) i) := by
  obtain ⟨collected, hcollected, same⟩ := IndexMap.exists_collect within
  unfold existRemoteAliens
  split_ifs with empty
  · have none : map.indexes = [] := List.isEmpty_iff.mp empty
    refine congrArg Except.ok (flags_congr fun i below => ?_)
    cases found : flag i with
    | true => simp
    | false =>
      have := covers i below found
      simp [none] at this
  · rw [hcollected]
    simp only [bind, Except.bind, existOnRemoteAliens]
    rw [foldlM_flags (joinedBy map)]
    · refine congrArg Except.ok (flags_congr fun i below => ?_)
      rw [AnyOrder.any_arrange, List.any_map, List.any_filter]
      cases found : flag i with
      | true => simp
      | false =>
        simp only [Function.comp_apply, joinedBy_callNode same, covers i below found, decide_true,
          Bool.true_and]
    · intro task htask flag
      obtain ⟨node, -, rfl⟩ := List.mem_map.mp (AnyOrder.mem_arrange.mp htask)
      cases called : callNode node ((world.alien node.name).batch collected) with
      | error e => simp [joinedBy]
      | ok output =>
        exact IndexMap.updateExistence_flags within (length_eq_of_callNode same called).2

end Phases

/-! ## A round of calls to nodes -/

/-- Maps as grouping builds them: each entry keeps the node it is named after, and
its indexes belong to the batch. -/
def Filed (maps : NodeMaps) (n : ℕ) : Prop :=
  ∀ name node map, maps.lookup name = some (node, map) → node.name = name ∧ map.Within n

section Round

variable {world : ExistWorld keySize} {keys : List (BobKey keySize)} {flag : ℕ → Bool}
  {maps : NodeMaps}

private theorem exists_pruneMaps (filed : Filed maps keys.length) (flag : ℕ → Bool) :
    ∃ pruned, pruneMaps (flags keys.length flag) maps = .ok pruned ∧
      ∀ name, pruned.lookup name = (maps.lookup name).map fun value =>
        (value.1, ⟨value.2.indexes.filter fun i => !flag i⟩) := by
  have entryOf (entry : Sigma fun _ : NodeName => Node × IndexMap) (hentry : entry ∈ maps.entries) :
      ((entry.2.2.retainNotExisted (flags keys.length flag)).map fun map => (entry.2.1, map)) =
        .ok (entry.2.1, ⟨entry.2.2.indexes.filter fun i => !flag i⟩) := by
    have within := (filed entry.1 entry.2.1 entry.2.2 (Dict.mem_entries_iff.mp hentry)).2
    rw [IndexMap.retainNotExisted_flags within]
    rfl
  obtain ⟨pruned, built, entered, untouched⟩ := Dict.exists_foldlM_insert maps.keys_nodup
    (fun entry hentry => ⟨_, entryOf entry hentry⟩) ∅
  refine ⟨pruned, built, fun name => ?_⟩
  cases found : maps.lookup name with
  | none =>
    rw [untouched name fun member => ?_]
    · rfl
    · obtain ⟨value, hvalue⟩ := Dict.mem_keys_iff.mp member
      rw [found] at hvalue
      cases hvalue
  | some value =>
    have hentry := Dict.mem_entries_iff.mpr found
    exact entered _ hentry _ (entryOf _ hentry)

private theorem exists_collectKeys (filed : Filed maps keys.length) :
    ∃ keysByNode, collectKeys keys maps = .ok keysByNode ∧
      ∀ name node nodeKeys, keysByNode.lookup name = some (node, nodeKeys) ↔
        ∃ map, maps.lookup name = some (node, map) ∧ map.isEmpty = false ∧
          map.collect keys = .ok nodeKeys := by
  let items := maps.entries.filter fun entry => !entry.2.2.isEmpty
  have stored (entry : Sigma fun _ : NodeName => Node × IndexMap) (hentry : entry ∈ items) :
      maps.lookup entry.1 = some entry.2 ∧ entry.2.1.name = entry.1 ∧
        entry.2.2.Within keys.length := by
    have found := Dict.mem_entries_iff.mp (List.mem_filter.mp hentry).1
    exact ⟨found, filed _ _ _ found⟩
  -- the new dictionary is keyed by the node of the entry, which is the old key
  have named : items.map (fun entry => entry.2.1.name) = items.map (·.1) :=
    List.map_congr_left fun entry hentry => (stored entry hentry).2.1
  have distinct : (items.map fun entry => entry.2.1.name).Nodup := by
    rw [named]
    exact maps.keys_nodup.sublist (List.filter_sublist.map _)
  obtain ⟨keysByNode, built, entered, untouched⟩ := Dict.exists_foldlM_insert distinct
    (f := fun entry => (entry.2.2.collect keys).map fun nodeKeys => (entry.2.1, nodeKeys))
    (fun entry hentry => by
      obtain ⟨collected, hcollected, -⟩ := IndexMap.exists_collect (stored entry hentry).2.2
      exact ⟨(entry.2.1, collected), by rw [hcollected]; rfl⟩) ∅
  refine ⟨keysByNode, built, fun name node nodeKeys => ⟨fun found => ?_, ?_⟩⟩
  · -- only items were entered, so the entry comes from one of them
    have member : name ∈ items.map fun entry => entry.2.1.name := by
      by_contra absent
      rw [untouched name absent] at found
      cases found
    obtain ⟨entry, hentry, rfl⟩ := List.mem_map.mp member
    obtain ⟨lookedUp, sameName, within⟩ := stored entry hentry
    obtain ⟨collected, hcollected, -⟩ := IndexMap.exists_collect within
    have value := entered entry hentry (entry.2.1, collected) (by rw [hcollected]; rfl)
    rw [found] at value
    cases value
    refine ⟨entry.2.2, by rw [sameName]; exact lookedUp, ?_, hcollected⟩
    simpa using (List.mem_filter.mp hentry).2
  · rintro ⟨map, found, nonempty, collected⟩
    have hentry : (⟨name, node, map⟩ : Sigma fun _ : NodeName => Node × IndexMap) ∈ items :=
      List.mem_filter.mpr ⟨Dict.mem_entries_iff.mpr found, by rw [nonempty]; rfl⟩
    have value := entered _ hentry (node, nodeKeys) (by rw [collected]; rfl)
    rwa [(stored _ hentry).2.1] at value

/-- The map that the answers of a finished call belong to. -/
private def mapFor (maps : NodeMaps) (task : ExistTask keySize) : IndexMap :=
  match task with
  | .ok output => ((maps.lookup output.nodeName).map Prod.snd).getD IndexMap.new
  | .error _ => IndexMap.new

private theorem joinedBy_mapFor {node : Node} {map : IndexMap} {nodeKeys : List (BobKey keySize)}
    {answer : StoreAnswer keySize} {i : ℕ} (found : maps.lookup node.name = some (node, map))
    (same : ∀ f : BobKey keySize → Bool,
      nodeKeys.map f = map.indexes.map fun i => (keys[i]?).any f) :
    joinedBy (mapFor maps (callNode node (answer.batch nodeKeys)))
        (callNode node (answer.batch nodeKeys)) i =
      (decide (i ∈ map.indexes) && asked keys answer i) := by
  cases answer with
  | error e => simp [StoreAnswer.batch, callNode, Except.map, joinedBy]
  | ok holds =>
    have own : mapFor maps (callNode node (StoreAnswer.batch (.ok holds) nodeKeys)) = map := by
      simp [StoreAnswer.batch, callNode, Except.map, mapFor, found]
    rw [own]
    exact joinedBy_callNode same

/-- The maps and sub-batches of one round: indexes already found are dropped, and
each map that keeps an index gives a sub-batch. -/
structure Prepared (maps : NodeMaps) (keys : List (BobKey keySize)) (flag : ℕ → Bool)
    (pruned : NodeMaps) (keysByNode : Dict NodeName (Node × List (BobKey keySize))) : Prop where
  filed : Filed maps keys.length
  lookup_pruned : ∀ name, pruned.lookup name = (maps.lookup name).map fun value =>
    (value.1, ⟨value.2.indexes.filter fun i => !flag i⟩)
  lookup_keys : ∀ name node nodeKeys, keysByNode.lookup name = some (node, nodeKeys) ↔
    ∃ map, pruned.lookup name = some (node, map) ∧ map.isEmpty = false ∧
      map.collect keys = .ok nodeKeys

theorem filed_of_lookup_pruned {pruned : NodeMaps} (filed : Filed maps keys.length)
    (lookupPruned : ∀ name, pruned.lookup name = (maps.lookup name).map fun value =>
      (value.1, ⟨value.2.indexes.filter fun i => !flag i⟩)) : Filed pruned keys.length := by
  intro name node map found
  rw [lookupPruned] at found
  obtain ⟨value, hvalue, same⟩ := Option.map_eq_some_iff.mp found
  cases same
  obtain ⟨named, within⟩ := filed name value.1 value.2 hvalue
  exact ⟨named, fun i hi => within i (List.mem_filter.mp hi).1⟩

theorem exists_prepared (filed : Filed maps keys.length) (flag : ℕ → Bool) :
    ∃ pruned keysByNode, pruneMaps (flags keys.length flag) maps = .ok pruned ∧
      collectKeys keys pruned = .ok keysByNode ∧ Prepared maps keys flag pruned keysByNode := by
  obtain ⟨pruned, hpruned, lookupPruned⟩ := exists_pruneMaps filed flag
  obtain ⟨keysByNode, hkeys, lookupKeys⟩ :=
    exists_collectKeys (filed_of_lookup_pruned filed lookupPruned)
  exact ⟨pruned, keysByNode, hpruned, hkeys, filed, lookupPruned, lookupKeys⟩

namespace Prepared

variable {pruned : NodeMaps} {keysByNode : Dict NodeName (Node × List (BobKey keySize))}

theorem filed_pruned (prepared : Prepared maps keys flag pruned keysByNode) :
    Filed pruned keys.length :=
  filed_of_lookup_pruned prepared.filed prepared.lookup_pruned

/-- What is left of a map comes from the map of the same node. -/
theorem exists_original (prepared : Prepared maps keys flag pruned keysByNode) {name : NodeName}
    {node : Node} {map : IndexMap} (kept : pruned.lookup name = some (node, map)) :
    ∃ original, maps.lookup name = some (node, original) ∧
      map = ⟨original.indexes.filter fun i => !flag i⟩ := by
  rw [prepared.lookup_pruned] at kept
  obtain ⟨stored, hstored, same⟩ := Option.map_eq_some_iff.mp kept
  cases same
  exact ⟨stored.2, hstored, rfl⟩

/-- A sub-batch is stored under the name of its node, and its keys are those of the
map of that node. -/
theorem value_spec (prepared : Prepared maps keys flag pruned keysByNode)
    {value : Node × List (BobKey keySize)} (hvalue : value ∈ keysByNode.values) :
    keysByNode.lookup value.1.name = some value ∧ ∃ map,
      pruned.lookup value.1.name = some (value.1, map) ∧ map.Within keys.length ∧
      ∀ f : BobKey keySize → Bool, value.2.map f = map.indexes.map fun i => (keys[i]?).any f := by
  obtain ⟨entry, hentry, rfl⟩ := List.mem_map.mp hvalue
  have found := Dict.mem_entries_iff.mp hentry
  obtain ⟨map, hmap, -, collected⟩ := (prepared.lookup_keys _ _ _).mp found
  obtain ⟨named, within⟩ := prepared.filed_pruned _ _ _ hmap
  obtain ⟨collected', hcollected', same⟩ := IndexMap.exists_collect within
  cases collected.symm.trans hcollected'
  exact ⟨by rw [named]; exact found, map, by rw [named]; exact hmap, within, same⟩

/-- An index that is still missing is in a sub-batch of each node it is filed under. -/
private theorem exists_value (prepared : Prepared maps keys flag pruned keysByNode) {i : ℕ}
    (missing : flag i = false) {entry : Sigma fun _ : NodeName => Node × IndexMap}
    (hentry : entry ∈ maps.entries) (here : i ∈ entry.2.2.indexes) :
    ∃ value ∈ keysByNode.values, value.1.name = entry.1 ∧ ∃ map : IndexMap,
      pruned.lookup value.1.name = some (value.1, map) ∧ i ∈ map.indexes := by
  have original := Dict.mem_entries_iff.mp hentry
  let map : IndexMap := ⟨entry.2.2.indexes.filter fun i => !flag i⟩
  have kept : i ∈ map.indexes := List.mem_filter.mpr ⟨here, by rw [missing]; rfl⟩
  have hmap : pruned.lookup entry.1 = some (entry.2.1, map) := by
    rw [prepared.lookup_pruned, original]
    rfl
  obtain ⟨named, within⟩ := prepared.filed_pruned _ _ _ hmap
  obtain ⟨collected, hcollected, -⟩ := IndexMap.exists_collect within
  have nonempty : map.isEmpty = false := by
    rw [IndexMap.isEmpty, List.isEmpty_eq_false_iff]
    exact List.ne_nil_of_mem kept
  have stored := (prepared.lookup_keys entry.1 entry.2.1 collected).mpr
    ⟨map, hmap, nonempty, hcollected⟩
  exact ⟨(entry.2.1, collected), List.mem_map.mpr ⟨_, Dict.mem_entries_iff.mpr stored, rfl⟩,
    named, map, by rw [named]; exact hmap, kept⟩

/-- The sub-batches together ask everything that is still missing. -/
private theorem any_values (prepared : Prepared maps keys flag pruned keysByNode)
    (world : ExistWorld keySize) (i : ℕ) :
    (flag i || keysByNode.values.any fun value =>
      joinedBy (mapFor pruned (callNode value.1 ((world.normal value.1.name).batch value.2)))
        (callNode value.1 ((world.normal value.1.name).batch value.2)) i) =
    (flag i || maps.entries.any fun entry =>
      decide (i ∈ entry.2.2.indexes) && asked keys (world.normal entry.1) i) := by
  cases missing : flag i with
  | true => simp
  | false =>
    rw [Bool.false_or, Bool.false_or, Bool.eq_iff_iff, List.any_eq_true, List.any_eq_true]
    constructor
    · rintro ⟨value, hvalue, found⟩
      obtain ⟨-, map, hmap, -, same⟩ := prepared.value_spec hvalue
      rw [joinedBy_mapFor hmap same, Bool.and_eq_true, decide_eq_true_eq] at found
      obtain ⟨original, horiginal, rfl⟩ := prepared.exists_original hmap
      refine ⟨⟨value.1.name, value.1, original⟩, Dict.mem_entries_iff.mpr horiginal, ?_⟩
      simpa [found.2] using (List.mem_filter.mp found.1).1
    · rintro ⟨entry, hentry, found⟩
      rw [Bool.and_eq_true, decide_eq_true_eq] at found
      obtain ⟨value, hvalue, named, map, hmap, kept⟩ :=
        prepared.exists_value missing hentry found.1
      obtain ⟨-, map', hmap', -, same⟩ := prepared.value_spec hvalue
      cases hmap.symm.trans hmap'
      refine ⟨value, hvalue, ?_⟩
      rw [joinedBy_mapFor hmap same, named]
      simpa [kept] using found.2

end Prepared

/-- One round asks each node for the keys of its map that are still missing, and
joins what the answering nodes report. -/
theorem collectRemoteExists_flags (world : ExistWorld keySize)
    (order : AnyOrder (ExistTask keySize)) (filed : Filed maps keys.length) :
    collectRemoteExists world order (flags keys.length flag) keys maps =
      .ok (flags keys.length fun i => flag i || maps.entries.any fun entry =>
        decide (i ∈ entry.2.2.indexes) && asked keys (world.normal entry.1) i) := by
  obtain ⟨pruned, keysByNode, hpruned, hkeys, prepared⟩ := exists_prepared filed flag
  -- every node finds its own sub-batch, so none of the calls panics
  let call (value : Node × List (BobKey keySize)) : ExistTask keySize :=
    callNode value.1 ((world.normal value.1.name).batch value.2)
  have calls : (keysByNode.values.mapM fun value =>
      match keysByNode.lookup value.1.name with
      | some (_, keys) => Except.ok (callNode value.1 ((world.normal value.1.name).batch keys))
      | none => .error (⟨"map is based on nodes from values"⟩ : Panic)) =
        .ok (keysByNode.values.map call) := by
    rw [mapM_eq_ok_iff, List.forall₂_map_right_iff, List.forall₂_same]
    intro value hvalue
    rw [(prepared.value_spec hvalue).1]
  unfold collectRemoteExists
  split_ifs with none
  · rw [List.isEmpty_iff.mp none]
    simp
    rfl
  rw [hpruned]
  simp only [bind, Except.bind, hkeys]
  split_ifs with idle
  · refine congrArg Except.ok (flags_congr fun i _ => ?_)
    rw [← prepared.any_values world i, Dict.values, List.isEmpty_iff.mp idle]
    simp
  · rw [existOnRemoteNodes, calls]
    simp only [bind, Except.bind, pure, Except.pure]
    rw [foldlM_flags fun task i => joinedBy (mapFor pruned task) task i]
    · refine congrArg Except.ok (flags_congr fun i _ => ?_)
      rw [AnyOrder.any_arrange, List.any_map]
      exact prepared.any_values world i
    · intro task htask flag
      obtain ⟨value, hvalue, rfl⟩ := List.mem_map.mp (AnyOrder.mem_arrange.mp htask)
      obtain ⟨stored, map, hmap, within, same⟩ := prepared.value_spec hvalue
      cases called : call value with
      | error e => simp [joinedBy, updateFrom]
      | ok output =>
        obtain ⟨name, inner⟩ := output
        obtain ⟨rfl, len⟩ : name = value.1.name ∧ map.indexes.length = inner.length :=
          length_eq_of_callNode same called
        simp only [updateFrom, stored, hmap, joinedBy, mapFor, Option.map_some, Option.getD_some]
        exact IndexMap.updateExistence_flags within len

end Round

end Quorum

end Bob.Cluster

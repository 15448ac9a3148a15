/-
# Reading a key from the cluster

A read looks in four places, one after the other: the disks of the local node, the
other target nodes, the local alien store, and the alien stores of all other nodes.
Nodes are asked together, and the first that answers with data wins. An existence
check of the key alone visits the same places in another order. So if each store
has data for the key exactly when it reports the key, the read succeeds exactly
when the check reports it.
-/

import Bob.Cluster.ExistSpec

namespace Bob.Cluster

open Bob.Math Bob.Configs

variable {keySize : ℕ}

/-- The calls of a read to other nodes. -/
abbrev GetTask (keySize : ℕ) := CallResult BobData (Error keySize)

/-- What the local backend answers to an operation, what the other nodes answer to a
call, and the orders in which the two rounds of calls finish. -/
structure GetWorld (keySize : ℕ) where
  getLocal : Operation → BobKey keySize → Except (Error keySize) BobData
  call : Node → BobGetOptions → BobKey keySize → Except (Error keySize) BobData
  targetOrder : AnyOrder (GetTask keySize)
  alienOrder : AnyOrder (GetTask keySize)

section Operations

variable (world : GetWorld keySize)

/-- The first answer with data, in the order in which the calls finish. -/
def getAny (order : AnyOrder (GetTask keySize)) (key : BobKey keySize) (targetNodes : List Node)
    (options : BobGetOptions) : Option (NodeOutput BobData) :=
  (order.arrange (targetNodes.map fun node =>
    callNode node (world.call node options key))).findSome? okOf

/-- An error of the local backend is logged, and the search goes on. -/
def lookupLocalAlien (key : BobKey keySize) (vdiskId : VDiskId) : Option BobData :=
  (world.getLocal (.newAlien vdiskId) key).toOption

def lookupLocalNode (key : BobKey keySize) (vdiskId : VDiskId) (diskPath : DiskPath) :
    Option BobData :=
  (world.getLocal (.newLocal vdiskId diskPath) key).toOption

def lookupRemoteAliens (mapper : Virtual) (key : BobKey keySize) : Option BobData :=
  let targetNodes := mapper.nodes.filter fun node => node.name ≠ mapper.localNodeName
  (getAny world world.alienOrder key targetNodes .newAlien).map (·.inner)

def lookupRemoteNodes (mapper : Virtual) (key : BobKey keySize) :
    Except Panic (Option BobData) := do
  let targetNodes ← mapper.getTargetNodesForKey key
  let targetNodes := targetNodes.filter fun node => node.name ≠ mapper.localNodeName
  return (getAny world world.targetOrder key targetNodes .newLocal).map (·.inner)

end Operations

namespace Quorum

def get (q : Quorum) (world : GetWorld keySize) (key : BobKey keySize) :
    Except Panic (Except (Error keySize) BobData) := do
  let (vdiskId, diskPaths) ← q.mapper.getOperation key
  match (diskPaths.getD []).findSome? (lookupLocalNode world key vdiskId) with
  | some data => return .ok data
  | none =>
    match ← lookupRemoteNodes world q.mapper key with
    | some data => return .ok data
    | none =>
      match lookupLocalAlien world key vdiskId with
      | some data => return .ok data
      | none =>
        match lookupRemoteAliens world q.mapper key with
        | some data => return .ok data
        | none => return .error (.keyNotFound key)

end Quorum

/-! ## Where data is found -/

/-- The answer is one with data. -/
def HasData {keySize : ℕ} (answer : Except (Error keySize) BobData) : Prop :=
  ∃ data, answer = .ok data

theorem hasData_iff_toOption {answer : Except (Error keySize) BobData} :
    HasData answer ↔ answer.toOption ≠ none := by
  cases answer <;> simp [HasData, Except.toOption]

/-- Whichever node is first, there is an answer exactly when some node has data. -/
theorem getAny_ne_none_iff {world : GetWorld keySize} {order : AnyOrder (GetTask keySize)}
    {key : BobKey keySize} {targetNodes : List Node} {options : BobGetOptions} :
    getAny world order key targetNodes options ≠ none ↔
      ∃ node ∈ targetNodes, HasData (world.call node options key) := by
  rw [getAny, Ne, List.findSome?_eq_none_iff]
  simp only [AnyOrder.mem_arrange, List.mem_map, forall_exists_index, and_imp,
    forall_apply_eq_imp_iff₂, not_forall, exists_prop]
  refine exists_congr fun node => and_congr_right fun _ => ?_
  cases answer : world.call node options key with
  | error e => simp [callNode, okOf, HasData]
  | ok data => simp [callNode, okOf, HasData]

/-- Where a read of the key finds data: on a disk of this node, on another target
node, in the alien store here or in one of another node. -/
def getSpec (mapper : Virtual) (world : GetWorld keySize) (key : BobKey keySize)
    (vdiskId : VDiskId) (paths : List DiskPath) (targetNodes : List Node) : Prop :=
  (∃ path ∈ paths, HasData (world.getLocal (.newLocal vdiskId path) key)) ∨
  (∃ node ∈ targetNodes, node.name ≠ mapper.localNodeName ∧
    HasData (world.call node .newLocal key)) ∨
  HasData (world.getLocal (.newAlien vdiskId) key) ∨
  ∃ node ∈ mapper.nodes, node.name ≠ mapper.localNodeName ∧ HasData (world.call node .newAlien key)

namespace Quorum

variable {mapper : Virtual} {world : GetWorld keySize} {key : BobKey keySize} {vdiskId : VDiskId}
  {diskPaths : Option (List DiskPath)} {targetNodes : List Node} {quorum : ℕ}

/-- What the four lookups find, in the order in which they are made. -/
def found (mapper : Virtual) (world : GetWorld keySize) (key : BobKey keySize) (vdiskId : VDiskId)
    (paths : List DiskPath) (targetNodes : List Node) : Option BobData :=
  paths.findSome? (lookupLocalNode world key vdiskId) <|>
  (getAny world world.targetOrder key
    (targetNodes.filter fun node => node.name ≠ mapper.localNodeName) .newLocal).map (·.inner) <|>
  lookupLocalAlien world key vdiskId <|>
  lookupRemoteAliens world mapper key

theorem get_eq (operation : mapper.getOperation key = .ok (vdiskId, diskPaths))
    (targets : mapper.getTargetNodesForKey key = .ok targetNodes) :
    get ⟨mapper, quorum⟩ world key =
      .ok (match found mapper world key vdiskId (diskPaths.getD []) targetNodes with
        | some data => .ok data
        | none => .error (.keyNotFound key)) := by
  rw [get, operation, found]
  simp only [bind, Except.bind, lookupRemoteNodes, targets, pure, Except.pure]
  cases (diskPaths.getD []).findSome? (lookupLocalNode world key vdiskId) with
  | some data => rfl
  | none =>
    cases (getAny world world.targetOrder key
      (targetNodes.filter fun node => node.name ≠ mapper.localNodeName) .newLocal) with
    | some output => rfl
    | none =>
      cases lookupLocalAlien world key vdiskId with
      | some data => rfl
      | none => cases lookupRemoteAliens world mapper key <;> rfl

/-- One of the lookups finds data exactly when one of the four places has data. -/
theorem found_ne_none_iff {paths : List DiskPath} :
    found mapper world key vdiskId paths targetNodes ≠ none ↔
      getSpec mapper world key vdiskId paths targetNodes := by
  have either {x y : Option BobData} : (x <|> y) ≠ none ↔ x ≠ none ∨ y ≠ none := by
    cases x <;> simp
  have disks : paths.findSome? (lookupLocalNode world key vdiskId) ≠ none ↔
      ∃ path ∈ paths, HasData (world.getLocal (.newLocal vdiskId path) key) := by
    simp [List.findSome?_eq_none_iff, hasData_iff_toOption, lookupLocalNode]
  rw [found, getSpec, either, either, either, disks, lookupLocalAlien, ← hasData_iff_toOption,
    lookupRemoteAliens]
  simp only [ne_eq, Option.map_eq_none_iff]
  rw [← ne_eq, ← ne_eq, getAny_ne_none_iff, getAny_ne_none_iff]
  simp only [List.mem_filter, decide_not, Bool.not_eq_true', decide_eq_false_iff_not, and_assoc]

/-- A read returns, and it returns data exactly when one of the four places has data.
Otherwise it says that the key was not found. -/
theorem exists_get (operation : mapper.getOperation key = .ok (vdiskId, diskPaths))
    (targets : mapper.getTargetNodesForKey key = .ok targetNodes) :
    ∃ answer, get ⟨mapper, quorum⟩ world key = .ok answer ∧
      (answer.isOk = true ↔ getSpec mapper world key vdiskId (diskPaths.getD []) targetNodes) ∧
      (answer.isOk = false → answer = .error (.keyNotFound key)) := by
  refine ⟨_, get_eq operation targets, ?_, ?_⟩
  · rw [← found_ne_none_iff]
    cases found mapper world key vdiskId (diskPaths.getD []) targetNodes <;>
      simp [Except.isOk, Except.toBool]
  · cases found mapper world key vdiskId (diskPaths.getD []) targetNodes <;>
      simp [Except.isOk, Except.toBool]

/-- On each node and in each store a read of the key succeeds exactly when the store
reports the key. -/
structure StoresAgree (mapper : Virtual) (gets : GetWorld keySize) (checks : ExistWorld keySize)
    (key : BobKey keySize) : Prop where
  localNormal : ∀ vdiskId paths, mapper.getOperation key = .ok (vdiskId, some paths) →
    ((∃ path ∈ paths, HasData (gets.getLocal (.newLocal vdiskId path) key)) ↔
      checks.localNormal.reports key = true)
  localAlien : ∀ vdiskId paths, mapper.getOperation key = .ok (vdiskId, paths) →
    (HasData (gets.getLocal (.newAlien vdiskId) key) ↔ checks.localAlien.reports key = true)
  normal : ∀ node ∈ mapper.nodes,
    (HasData (gets.call node .newLocal key) ↔ (checks.normal node.name).reports key = true)
  alien : ∀ node ∈ mapper.nodes,
    (HasData (gets.call node .newAlien key) ↔ (checks.alien node.name).reports key = true)

/-- The two searches visit the same places. -/
private theorem getSpec_iff_existSpec {checks : ExistWorld keySize} {id : VDiskId}
    {vdisk : DataVDisk} (agree : StoresAgree mapper world checks key)
    (hid : mapper.vdiskIdFromKey key = .ok id) (stored : mapper.vdisks.lookup id = some vdisk)
    (placed : mapper.WellPlaced id vdisk) :
    getSpec mapper world key vdisk.id (mapper.localPaths vdisk) vdisk.nodes ↔
      existSpec mapper checks key := by
  have operation := Virtual.getOperation_eq hid stored
  have isTarget (name : NodeName) : IsTarget mapper key name ↔ name ∈ vdisk.nodes.map (·.name) :=
    isTarget_iff (Virtual.getTargetNodesForKey_eq hid stored)
  refine or_congr ?_ (or_congr ?_ (or_congr (agree.localAlien _ _ operation) ?_))
  · rw [isTarget, placed.local_mem_iff]
    by_cases none : mapper.localPaths vdisk = []
    · simp [none]
    · rw [if_neg (by simpa using none)] at operation
      simp [none, agree.localNormal _ _ operation]
  · constructor
    · rintro ⟨node, hnode, remote, data⟩
      exact ⟨node.name, remote, (isTarget _).mpr (List.mem_map_of_mem hnode),
        (agree.normal node (placed.nodes_sublist.subset hnode)).mp data⟩
    · rintro ⟨name, remote, target, reports⟩
      obtain ⟨node, hnode, rfl⟩ := List.mem_map.mp ((isTarget name).mp target)
      exact ⟨node, hnode, remote,
        (agree.normal node (placed.nodes_sublist.subset hnode)).mpr reports⟩
  · refine exists_congr fun node => and_congr_right fun hnode => and_congr_right fun _ => ?_
    exact agree.alien node hnode

/-- If stores read what they report, then in every validated cluster a read of a key
succeeds exactly when the existence check of that key answers true, in whatever order
the nodes answer. -/
theorem get_agrees_with_exist {ext : Externals} {cluster : Configs.Cluster} {config : NodeConfig}
    {mapper : Virtual} (validated : cluster.validate ext.parseUri = .ok ())
    (built : Virtual.new config cluster = .ok mapper) (quorum : ℕ) {key : BobKey keySize}
    {gets : GetWorld keySize} {checks : ExistWorld keySize}
    (agree : StoresAgree mapper gets checks key) :
    ∃ answer, get ⟨mapper, quorum⟩ gets key = .ok answer ∧
      exist ⟨mapper, quorum⟩ checks [key] = .ok [answer.isOk] := by
  have wf := (Virtual.builtFrom_of_new built).wellFormed (Cluster.valid_of_validate validated)
  obtain ⟨id, vdisk, hid, stored, placed⟩ := wf.exists_vdisk key
  obtain ⟨answer, hget, data, -⟩ := @exists_get _ mapper gets key _ _ _ quorum
    (Virtual.getOperation_eq hid stored) (Virtual.getTargetNodesForKey_eq hid stored)
  rw [Virtual.getD_localPaths, getSpec_iff_existSpec agree hid stored placed] at data
  obtain ⟨result, hexist, each⟩ := exists_exist wf quorum checks [key]
  obtain ⟨found, _, reports, none, rfl⟩ := List.forall₂_cons_left_iff.mp each
  obtain rfl := List.forall₂_nil_left_iff.mp none
  have same : found = answer.isOk := by rw [Bool.eq_iff_iff, reports, data]
  exact ⟨answer, hget, by rw [hexist, same]⟩

/-- Only `beta` answers. It has data for the keys that start with zero. -/
def betaGetWorld : GetWorld 8 where
  getLocal := fun _ _ => .error .internal
  call := fun node options key =>
    if node.name = ⟨"beta"⟩ ∧ options = .newLocal ∧ key.bytes[0]? = some 0 then .ok ⟨[1], ⟨7⟩⟩
    else .error ⟨.timeout⟩
  targetOrder := .launched
  alienOrder := .launched

theorem beta_get_agrees_with_exist :
    ∃ answer, get ⟨Virtual.smallMapper, 2⟩ betaGetWorld ⟨Vector.replicate 8 0⟩ = .ok answer ∧
      exist ⟨Virtual.smallMapper, 2⟩ betaExistWorld [⟨Vector.replicate 8 0⟩] =
        .ok [answer.isOk] := by
  refine get_agrees_with_exist Virtual.validate_small Virtual.new_small 2 ⟨?_, ?_, ?_, ?_⟩
  · intro vdiskId paths _
    simp [HasData, betaGetWorld, betaExistWorld, StoreAnswer.reports]
  · intro vdiskId paths _
    simp [HasData, betaGetWorld, betaExistWorld, StoreAnswer.reports]
  · intro node _
    by_cases here : node.name = ⟨"beta"⟩ <;>
      simp [HasData, betaGetWorld, betaExistWorld, StoreAnswer.reports, here]
  · intro node _
    simp [HasData, betaGetWorld, betaExistWorld, StoreAnswer.reports, BobGetOptions.newAlien,
      BobGetOptions.newLocal]

end Quorum

end Bob.Cluster

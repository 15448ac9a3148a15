/-
# A batch of existence checks is a list of single ones

Grouping files every index under each target node of its key and under no other
node. So the rounds of a batched check ask, for each key, exactly the stores that
a check of that key alone would ask, and the answer at one position does not
depend on the other keys.
-/

import Bob.Cluster.Exist

namespace Bob.Cluster

open Bob.Math Bob.Configs

variable {keySize : ℕ}

/-! ## Where grouping files an index -/

/-- The index is in the map stored under `name`. -/
def NodeMaps.Has (maps : NodeMaps) (name : NodeName) (i : ℕ) : Prop :=
  ∃ node map, maps.lookup name = some (node, map) ∧ i ∈ map.indexes

/-- Entries keep the node they are named after, and never the local node. -/
def NodeMaps.Keyed (maps : NodeMaps) (localNode : NodeName) : Prop :=
  ∀ name node map, maps.lookup name = some (node, map) → node.name = name ∧ name ≠ localNode

namespace NodeMaps

variable {maps : NodeMaps} {localNode name : NodeName} {node : Node} {index i : ℕ}

theorem has_pushTo_iff :
    (maps.pushTo node index).Has name i ↔ maps.Has name i ∨ (name = node.name ∧ i = index) := by
  unfold Has pushTo
  by_cases here : name = node.name
  · subst here
    rw [AList.lookup_insert]
    cases found : maps.lookup node.name with
    | none => simp [IndexMap.push, IndexMap.new]
    | some value =>
      obtain ⟨stored, map⟩ := value
      simp [IndexMap.push, and_assoc]
  · rw [AList.lookup_insert_ne here]
    simp [here]

theorem Keyed.pushTo (keyed : maps.Keyed localNode) (remote : node.name ≠ localNode) :
    (maps.pushTo node index).Keyed localNode := by
  intro name other map found
  unfold NodeMaps.pushTo at found
  by_cases here : name = node.name
  · subst here
    refine ⟨?_, remote⟩
    rw [AList.lookup_insert] at found
    cases stored : maps.lookup node.name with
    | none =>
      rw [stored] at found
      cases found
      rfl
    | some value =>
      rw [stored] at found
      cases found
      exact (keyed _ value.1 value.2 stored).1
  · rw [AList.lookup_insert_ne here] at found
    exact keyed name other map found

/-- A new empty map files nothing. -/
theorem has_insert_new_iff (absent : maps.lookup node.name = none) :
    NodeMaps.Has (maps.insert node.name (node, IndexMap.new)) name i ↔ maps.Has name i := by
  unfold Has
  by_cases here : name = node.name
  · subst here
    rw [AList.lookup_insert, absent]
    simp [IndexMap.new]
  · rw [AList.lookup_insert_ne here]

theorem Keyed.insert_new (keyed : maps.Keyed localNode) (remote : node.name ≠ localNode) :
    NodeMaps.Keyed (maps.insert node.name (node, IndexMap.new)) localNode := by
  intro name other map found
  by_cases here : name = node.name
  · subst here
    rw [AList.lookup_insert] at found
    cases found
    exact ⟨rfl, remote⟩
  · rw [AList.lookup_insert_ne here] at found
    exact keyed name other map found

end NodeMaps

namespace Groups

variable {groups : Groups} {localNode name : NodeName} {node : Node} {targetNodes : List Node}
  {index i : ℕ}

/-- The index is filed under the node of that name. -/
def Has (groups : Groups) (localNode name : NodeName) (i : ℕ) : Prop :=
  if name = localNode then i ∈ groups.localMap.indexes
  else groups.primary.Has name i ∨ groups.secondary.Has name i

/-- Both dictionaries are keyed by the names of remote nodes. -/
structure Keyed (groups : Groups) (localNode : NodeName) : Prop where
  primary : groups.primary.Keyed localNode
  secondary : groups.secondary.Keyed localNode

theorem keyed_addPrimary (keyed : groups.Keyed localNode) :
    (groups.addPrimary localNode targetNodes).Keyed localNode := by
  unfold addPrimary
  split_ifs with served
  · exact keyed
  · split
    · rename_i node found
      refine ⟨keyed.primary.insert_new fun here => served ?_, keyed.secondary⟩
      exact List.any_eq_true.mpr ⟨node, List.mem_of_find?_eq_some found, by simp [here]⟩
    · exact keyed

theorem has_addPrimary_iff :
    (groups.addPrimary localNode targetNodes).Has localNode name i ↔
      groups.Has localNode name i := by
  unfold addPrimary
  split_ifs with served
  · rfl
  · split
    · rename_i node found
      -- the branch is taken only if no target is primary, so nothing is overwritten
      have absent : groups.primary.lookup node.name = none := by
        by_contra stored
        apply served
        refine List.any_eq_true.mpr ⟨node, List.mem_of_find?_eq_some found, ?_⟩
        simp [Option.isSome_iff_ne_none.mpr stored]
      unfold Has
      rw [NodeMaps.has_insert_new_iff absent]
    · rfl

theorem keyed_pushNode (keyed : groups.Keyed localNode) :
    (pushNode localNode index groups node).Keyed localNode := by
  unfold pushNode
  split_ifs with here isPrimary
  · exact ⟨keyed.primary, keyed.secondary⟩
  · exact ⟨keyed.primary.pushTo here, keyed.secondary⟩
  · exact ⟨keyed.primary, keyed.secondary.pushTo here⟩

theorem has_pushNode_iff :
    (pushNode localNode index groups node).Has localNode name i ↔
      groups.Has localNode name i ∨ (name = node.name ∧ i = index) := by
  by_cases isLocal : name = localNode
  · subst isLocal
    simp only [Has, if_true]
    unfold pushNode
    split_ifs with here isPrimary
    · simp [IndexMap.push, here]
    · simp [Ne.symm here]
    · simp [Ne.symm here]
  · simp only [Has, isLocal, if_false]
    unfold pushNode
    split_ifs with here isPrimary
    · have other : name ≠ node.name := fun same => isLocal (same.trans here)
      simp [other]
    · rw [NodeMaps.has_pushTo_iff]
      tauto
    · rw [NodeMaps.has_pushTo_iff]
      tauto

/-- The loop over the target nodes of one key files its index under each of them. -/
theorem keyed_addKey (keyed : groups.Keyed localNode) :
    (groups.addKey localNode targetNodes index).Keyed localNode := by
  have folded (start : Groups) (hstart : start.Keyed localNode) :
      (targetNodes.foldl (pushNode localNode index) start).Keyed localNode := by
    induction targetNodes generalizing start with
    | nil => exact hstart
    | cons node rest ih => exact ih _ (keyed_pushNode hstart)
  exact folded _ (keyed_addPrimary keyed)

theorem has_addKey_iff :
    (groups.addKey localNode targetNodes index).Has localNode name i ↔
      groups.Has localNode name i ∨ (name ∈ targetNodes.map (·.name) ∧ i = index) := by
  have folded (start : Groups) :
      (targetNodes.foldl (pushNode localNode index) start).Has localNode name i ↔
        start.Has localNode name i ∨ (name ∈ targetNodes.map (·.name) ∧ i = index) := by
    induction targetNodes generalizing start with
    | nil => simp
    | cons node rest ih =>
      rw [List.foldl_cons, ih, has_pushNode_iff, List.map_cons, List.mem_cons]
      tauto
  rw [addKey, folded, has_addPrimary_iff]

end Groups

section Grouping

variable {mapper : Virtual}

/-- The node of that name is a target of the key. -/
def IsTarget (mapper : Virtual) (key : BobKey keySize) (name : NodeName) : Prop :=
  ∃ targets, mapper.getTargetNodesForKey key = .ok targets ∧ name ∈ targets.map (·.name)

theorem isTarget_iff {key : BobKey keySize} {targets : List Node} {name : NodeName}
    (routed : mapper.getTargetNodesForKey key = .ok targets) :
    IsTarget mapper key name ↔ name ∈ targets.map (·.name) := by
  constructor
  · rintro ⟨nodes, hnodes, member⟩
    cases routed.symm.trans hnodes
    exact member
  · exact fun member => ⟨targets, routed, member⟩

/-- The loop over the keys files each index under exactly the targets of its key. -/
private theorem exists_groupFrom (wf : mapper.WellFormed) (keys : List (BobKey keySize))
    (groups : Groups) (index : ℕ) (keyed : groups.Keyed mapper.localNodeName) :
    ∃ result, groupFrom mapper groups index keys = .ok result ∧
      result.Keyed mapper.localNodeName ∧
      ∀ name i, result.Has mapper.localNodeName name i ↔
        groups.Has mapper.localNodeName name i ∨
          ∃ j key, i = index + j ∧ keys[j]? = some key ∧ IsTarget mapper key name := by
  induction keys generalizing groups index with
  | nil => exact ⟨groups, rfl, keyed, by simp⟩
  | cons key rest ih =>
    obtain ⟨id, vdisk, hid, hvdisk, -⟩ := wf.exists_vdisk key
    have targets := Virtual.getTargetNodesForKey_eq hid hvdisk
    obtain ⟨result, hresult, keyed', has⟩ := ih
      (groups.addKey mapper.localNodeName vdisk.nodes index) (index + 1) (Groups.keyed_addKey keyed)
    refine ⟨result, ?_, keyed', fun name i => ?_⟩
    · rw [groupFrom, targets]
      exact hresult
    rw [has, Groups.has_addKey_iff, ← isTarget_iff targets, or_assoc]
    refine or_congr_right ?_
    constructor
    · rintro (⟨member, rfl⟩ | ⟨j, other, rfl, found, member⟩)
      · exact ⟨0, key, rfl, rfl, member⟩
      · exact ⟨j + 1, other, by omega, found, member⟩
    · rintro ⟨j, other, rfl, found, member⟩
      cases j with
      | zero =>
        cases found
        exact Or.inl ⟨member, rfl⟩
      | succ j => exact Or.inr ⟨j, other, by omega, found, member⟩

/-- Grouping a batch succeeds and files each index under exactly the targets of its key. -/
theorem exists_groupByNodes (wf : mapper.WellFormed) (keys : List (BobKey keySize)) :
    ∃ groups, groupByNodes keys mapper = .ok groups ∧ groups.Keyed mapper.localNodeName ∧
      ∀ name i, groups.Has mapper.localNodeName name i ↔
        ∃ key, keys[i]? = some key ∧ IsTarget mapper key name := by
  have keyed : Groups.Keyed ⟨IndexMap.new, ∅, ∅⟩ mapper.localNodeName := by
    constructor <;> intro name node map found <;> simp at found
  obtain ⟨groups, hgroups, keyed', has⟩ := exists_groupFrom wf keys _ 0 keyed
  refine ⟨groups, hgroups, keyed', fun name i => ?_⟩
  have empty : ¬ Groups.Has ⟨IndexMap.new, ∅, ∅⟩ mapper.localNodeName name i := by
    unfold Groups.Has
    split_ifs <;> simp [IndexMap.new, NodeMaps.Has]
  rw [has]
  simp [empty]

end Grouping

/-! ## The whole check -/

/-- What a check of one key alone is to answer: whether some store that may hold the
key, and whose node answers, reports it. -/
def existSpec (mapper : Virtual) (world : ExistWorld keySize) (key : BobKey keySize) : Prop :=
  (IsTarget mapper key mapper.localNodeName ∧ world.localNormal.reports key) ∨
  (∃ name, name ≠ mapper.localNodeName ∧ IsTarget mapper key name ∧
    (world.normal name).reports key) ∨
  world.localAlien.reports key ∨
  ∃ node ∈ mapper.nodes, node.name ≠ mapper.localNodeName ∧ (world.alien node.name).reports key

namespace Quorum

section Check

variable {mapper : Virtual} {world : ExistWorld keySize} {keys : List (BobKey keySize)}
  {groups : Groups}

private theorem filed_of_has {maps : NodeMaps} {n : ℕ} {localNode : NodeName}
    (keyed : maps.Keyed localNode) (below : ∀ name i, maps.Has name i → i < n) :
    Filed maps n := by
  intro name node map found
  exact ⟨(keyed name node map found).1, fun i hi => below name i ⟨node, map, found, hi⟩⟩

private theorem any_entries_iff {maps : NodeMaps} {i : ℕ} (f : NodeName → Bool) :
    (maps.entries.any fun entry => decide (i ∈ entry.2.2.indexes) && f entry.1) = true ↔
      ∃ name, maps.Has name i ∧ f name := by
  simp only [List.any_eq_true, Bool.and_eq_true, decide_eq_true_eq]
  constructor
  · rintro ⟨⟨name, node, map⟩, member, hi, hf⟩
    exact ⟨name, ⟨node, map, Dict.mem_entries_iff.mp member, hi⟩, hf⟩
  · rintro ⟨name, ⟨node, map, found, hi⟩, hf⟩
    exact ⟨⟨name, node, map⟩, Dict.mem_entries_iff.mpr found, hi, hf⟩

/-- What the normal stores report at a position of the batch. -/
private def reportedNormal (world : ExistWorld keySize) (keys : List (BobKey keySize))
    (groups : Groups) (i : ℕ) : Bool :=
  let fromNodes (maps : NodeMaps) := maps.entries.any fun entry =>
    decide (i ∈ entry.2.2.indexes) && asked keys (world.normal entry.1) i
  (decide (i ∈ groups.localMap.indexes) && asked keys world.localNormal i) ||
    fromNodes groups.primary || fromNodes groups.secondary

/-- What all phases together report at a position of the batch. -/
private def reported (mapper : Virtual) (world : ExistWorld keySize) (keys : List (BobKey keySize))
    (groups : Groups) (i : ℕ) : Bool :=
  reportedNormal world keys groups i || asked keys world.localAlien i ||
    mapper.nodes.any fun n => n.name ≠ mapper.localNodeName && asked keys (world.alien n.name) i

private theorem exist_flags {quorum : ℕ} (grouped : groupByNodes keys mapper = .ok groups)
    (within : groups.localMap.Within keys.length) (primary : Filed groups.primary keys.length)
    (secondary : Filed groups.secondary keys.length) :
    exist ⟨mapper, quorum⟩ world keys =
      .ok (flags keys.length (reported mapper world keys groups)) := by
  unfold exist
  rw [← flags_false]
  refine bind_eq_ok_iff.mpr ⟨groups, grouped, ?_⟩
  refine bind_eq_ok_iff.mpr ⟨_, existLocal_flags within, ?_⟩
  refine bind_eq_ok_iff.mpr ⟨_, collectRemoteExists_flags world _ primary, ?_⟩
  -- after the third phase the normal stores are done
  refine bind_eq_ok_iff.mpr ⟨flags keys.length (reportedNormal world keys groups), ?_, ?_⟩
  · simp only [collectRemoteExists_flags world _ secondary, Bool.false_or]
    rfl
  -- The alien phase starts from the indexes that are still missing.
  have missing (i : ℕ) :
      i ∈ (IndexMap.whereNotExists
        (flags keys.length (reportedNormal world keys groups))).indexes ↔
      i < keys.length ∧ reportedNormal world keys groups i = false :=
    IndexMap.mem_whereNotExists_flags
  obtain ⟨rest, asksLocal, restWithin, restCovers⟩ := exists_existLocalAlien_flags world
    (fun i hi => ((missing i).mp hi).1) fun i below absent => (missing i).mpr ⟨below, absent⟩
  refine bind_eq_ok_iff.mpr ⟨_, asksLocal, ?_⟩
  exact existRemoteAliens_flags restWithin restCovers

private theorem reported_iff {i : ℕ} {key : BobKey keySize} (found : keys[i]? = some key)
    (keyed : groups.Keyed mapper.localNodeName)
    (has : ∀ name, groups.Has mapper.localNodeName name i ↔ IsTarget mapper key name) :
    reported mapper world keys groups i = true ↔ existSpec mapper world key := by
  have asks (answer : StoreAnswer keySize) : asked keys answer i = answer.reports key := by
    simp [asked, found]
  have isLocal : i ∈ groups.localMap.indexes ↔ IsTarget mapper key mapper.localNodeName := by
    rw [← has, Groups.Has, if_pos rfl]
  have isRemote (name : NodeName) :
      groups.primary.Has name i ∨ groups.secondary.Has name i ↔
        name ≠ mapper.localNodeName ∧ IsTarget mapper key name := by
    rw [← has, Groups.Has]
    split_ifs with here
    · -- The local node has no entry in either dictionary.
      simp only [here, ne_eq, not_true_eq_false, false_and, iff_false, not_or]
      constructor
      · rintro ⟨node, map, stored, -⟩
        exact (keyed.primary _ _ _ stored).2 rfl
      · rintro ⟨node, map, stored, -⟩
        exact (keyed.secondary _ _ _ stored).2 rfl
    · simp [here]
  have remote :
      (∃ name, groups.primary.Has name i ∧ (world.normal name).reports key) ∨
        (∃ name, groups.secondary.Has name i ∧ (world.normal name).reports key) ↔
      ∃ name, name ≠ mapper.localNodeName ∧ IsTarget mapper key name ∧
        (world.normal name).reports key := by
    rw [← exists_or]
    refine exists_congr fun name => ?_
    rw [← or_and_right, isRemote, and_assoc]
  have fromNormal (maps : NodeMaps) : (maps.entries.any fun entry =>
      decide (i ∈ entry.2.2.indexes) && asked keys (world.normal entry.1) i) = true ↔
        ∃ name, maps.Has name i ∧ (world.normal name).reports key := by
    simp only [asks]
    exact any_entries_iff fun name => (world.normal name).reports key
  unfold reported reportedNormal existSpec
  simp only [Bool.or_eq_true, fromNormal]
  simp only [asks, Bool.and_eq_true, decide_eq_true_eq, isLocal, List.any_eq_true, ← remote,
    or_assoc]

end Check

/-- With a well-formed mapper a batched check returns, and answers each key as a check
of that key alone would. -/
theorem exists_exist {mapper : Virtual} (wf : mapper.WellFormed) (quorum : ℕ)
    (world : ExistWorld keySize) (keys : List (BobKey keySize)) :
    ∃ result, exist ⟨mapper, quorum⟩ world keys = .ok result ∧
      List.Forall₂ (fun key found => found = true ↔ existSpec mapper world key) keys result := by
  obtain ⟨groups, grouped, keyed, has⟩ := exists_groupByNodes wf keys
  have below (name : NodeName) (i : ℕ) (hi : groups.Has mapper.localNodeName name i) :
      i < keys.length := by
    obtain ⟨key, found, -⟩ := (has name i).mp hi
    exact (List.getElem?_eq_some_iff.mp found).1
  have within : groups.localMap.Within keys.length := by
    intro i hi
    apply below mapper.localNodeName
    rwa [Groups.Has, if_pos rfl]
  have primary : Filed groups.primary keys.length := by
    refine filed_of_has keyed.primary fun name i hi => below name i ?_
    obtain ⟨node, map, stored, -⟩ := id hi
    rw [Groups.Has, if_neg (keyed.primary _ _ _ stored).2]
    exact Or.inl hi
  have secondary : Filed groups.secondary keys.length := by
    refine filed_of_has keyed.secondary fun name i hi => below name i ?_
    obtain ⟨node, map, stored, -⟩ := id hi
    rw [Groups.Has, if_neg (keyed.secondary _ _ _ stored).2]
    exact Or.inr hi
  refine ⟨_, exist_flags grouped within primary secondary, ?_⟩
  refine List.forall₂_iff_get.mpr ⟨(length_flags ..).symm, fun i hi hi' => ?_⟩
  have found : keys[i]? = some keys[i] := List.getElem?_eq_getElem hi
  have flag : (flags keys.length (reported mapper world keys groups))[i]? = some _ :=
    getElem?_flags hi
  rw [List.getElem?_eq_getElem hi', Option.some.injEq] at flag
  rw [List.get_eq_getElem, List.get_eq_getElem, flag]
  refine reported_iff found keyed fun name => ?_
  rw [has name i, found]
  simp

/-- A batched existence check never panics on an index or on a length mismatch, and
its answer for each key is the answer of a check of that key alone. -/
theorem exist_answers_each_key {ext : Externals} {cluster : Configs.Cluster} {config : NodeConfig}
    {mapper : Virtual} (validated : cluster.validate ext.parseUri = .ok ())
    (built : Virtual.new config cluster = .ok mapper) (quorum : ℕ)
    (world : ExistWorld keySize) (keys : List (BobKey keySize)) :
    ∃ result, exist ⟨mapper, quorum⟩ world keys = .ok result ∧
      List.Forall₂ (fun key found => found = true ↔ existSpec mapper world key) keys result := by
  have wf := (Virtual.builtFrom_of_new built).wellFormed (Cluster.valid_of_validate validated)
  exact exists_exist wf quorum world keys

/-- Only `beta` answers. It holds in its normal store the keys that start with zero. -/
def betaExistWorld : ExistWorld 8 where
  localNormal := .error .internal
  localAlien := .ok fun _ => false
  normal := fun name =>
    if name = ⟨"beta"⟩ then .ok fun key => key.bytes[0] == 0 else .error ⟨.timeout⟩
  alien := fun _ => .error ⟨.timeout⟩
  primaryOrder := .launched
  secondaryOrder := .launched
  alienOrder := .launched

theorem beta_exist_answers_each_key :
    let q : Quorum := ⟨Virtual.smallMapper, 2⟩
    let keys : List (BobKey 8) := [⟨Vector.replicate 8 0⟩, ⟨Vector.replicate 8 1⟩]
    ∃ result, q.exist betaExistWorld keys = .ok result ∧ List.Forall₂
      (fun key found => found = true ↔ existSpec Virtual.smallMapper betaExistWorld key)
      keys result := by
  exact exist_answers_each_key Virtual.validate_small Virtual.new_small 2 betaExistWorld
    [⟨Vector.replicate 8 0⟩, ⟨Vector.replicate 8 1⟩]

end Quorum

end Bob.Cluster

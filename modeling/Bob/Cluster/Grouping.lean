/-
# How a batch is grouped

The loop over the keys decides for each remote node whether it is primary or secondary, the
first time one of its keys comes up, and never moves it. The node maps of the two groups are
therefore disjoint. An index is filed once under each target node of its key, the indexes come
in order, and a key without a local target finds a primary one, unless all its targets are
secondary when it comes up.

Which nodes an index is filed under is shown with the existence checks. Here it is how often,
in which group, and in which order.
-/

import Bob.Cluster.ExistSpec

namespace Bob.Cluster

open Bob.Math Bob.Configs

variable {keySize : ℕ}

/-! ## What grouping returns -/

namespace Groups

/-- The local map is returned unless it is empty. -/
def returnedLocal (groups : Groups) : Option IndexMap :=
  if groups.localMap.isEmpty then none else some groups.localMap

/-- The index map is returned for the node of that name. -/
def Returns (groups : Groups) (localNode name : NodeName) (map : IndexMap) : Prop :=
  (name = localNode ∧ groups.returnedLocal = some map) ∨
    (∃ node, groups.primary.lookup name = some (node, map)) ∨
    ∃ node, groups.secondary.lookup name = some (node, map)

def IsPrimary (groups : Groups) (name : NodeName) : Prop := (groups.primary.lookup name).isSome

def IsSecondary (groups : Groups) (name : NodeName) : Prop :=
  (groups.secondary.lookup name).isSome

end Groups

/-- What is to hold of the groups of a batch. -/
structure Grouped (mapper : Virtual) (keys : List (BobKey keySize)) (groups : Groups) : Prop where
  disjoint : ∀ name, ¬ (groups.IsPrimary name ∧ groups.IsSecondary name)
  remote : ¬ groups.IsPrimary mapper.localNodeName ∧ ¬ groups.IsSecondary mapper.localNodeName
  /-- The index of a key is once in the map of each of its targets, which is the only one. -/
  once : ∀ i key name, keys[i]? = some key → IsTarget mapper key name →
    ∃ map, (∀ other, groups.Returns mapper.localNodeName name other ↔ other = map) ∧
      map.indexes.count i = 1
  /-- It is in no other map. -/
  nowhere : ∀ i key name, keys[i]? = some key → ¬ IsTarget mapper key name →
    ∀ map, groups.Returns mapper.localNodeName name map → i ∉ map.indexes
  increasing : ∀ name map, groups.Returns mapper.localNodeName name map →
    map.indexes.Pairwise (· < ·)
  /-- A key with remote targets only has a primary one, unless all were secondary before it. -/
  served : ∀ i key, keys[i]? = some key → (∃ name, IsTarget mapper key name) →
    ¬ IsTarget mapper key mapper.localNodeName →
      (∃ name, IsTarget mapper key name ∧ groups.IsPrimary name) ∨
      ∃ earlier, groupByNodes (keys.take i) mapper = .ok earlier ∧
        ∀ name, IsTarget mapper key name → earlier.IsSecondary name

/-! ## One index is pushed -/

namespace NodeMaps

variable {maps : NodeMaps} {node : Node} {index : ℕ} {name : NodeName}

/-- A map after a push is one from before, or the new index was pushed to it. -/
theorem lookup_pushTo_cases {other : Node} {map : IndexMap}
    (found : (maps.pushTo node index).lookup name = some (other, map)) :
    maps.lookup name = some (other, map) ∨ name = node.name ∧ ∃ old : IndexMap,
      ((∃ stored, maps.lookup name = some (stored, old)) ∨ old = IndexMap.new) ∧
        map = old.push index := by
  unfold pushTo at found
  by_cases here : name = node.name
  · subst here
    refine .inr ⟨rfl, ?_⟩
    rw [AList.lookup_insert] at found
    cases stored : maps.lookup node.name with
    | none =>
      rw [stored] at found
      cases found
      exact ⟨IndexMap.new, .inr rfl, rfl⟩
    | some value =>
      rw [stored] at found
      cases found
      exact ⟨value.2, .inl ⟨value.1, rfl⟩, rfl⟩
  · rw [AList.lookup_insert_ne here] at found
    exact .inl found

theorem isSome_lookup_insert {value : Node × IndexMap} :
    (AList.lookup name (maps.insert node.name value)).isSome ↔
      name = node.name ∨ (maps.lookup name).isSome := by
  by_cases here : name = node.name
  · subst here
    simp [AList.lookup_insert]
  · rw [AList.lookup_insert_ne here]
    simp [here]

end NodeMaps

namespace Groups

variable {groups : Groups} {localNode name : NodeName} {node : Node} {targetNodes : List Node}
  {index : ℕ} {map : IndexMap}

/-- The index map is kept for the node of that name, empty or not. -/
def Files (groups : Groups) (localNode name : NodeName) (map : IndexMap) : Prop :=
  (name = localNode ∧ map = groups.localMap) ∨
    (∃ node, groups.primary.lookup name = some (node, map)) ∨
    ∃ node, groups.secondary.lookup name = some (node, map)

theorem files_of_returns (returns : groups.Returns localNode name map) :
    groups.Files localNode name map := by
  refine returns.imp_left ?_
  rintro ⟨here, returned⟩
  rw [returnedLocal] at returned
  split_ifs at returned
  exact ⟨here, (Option.some.inj returned).symm⟩

theorem files_pushNode_cases
    (files : (pushNode localNode index groups node).Files localNode name map) :
    groups.Files localNode name map ∨ name = node.name ∧ ∃ old : IndexMap,
      (groups.Files localNode name old ∨ old = IndexMap.new) ∧ map = old.push index := by
  unfold pushNode at files
  split_ifs at files with here isPrimary
  · rcases files with ⟨rfl, rfl⟩ | remote
    · exact .inr ⟨here.symm, groups.localMap, .inl (.inl ⟨rfl, rfl⟩), rfl⟩
    · exact .inl (.inr remote)
  · rcases files with same | ⟨other, found⟩ | same
    · exact .inl (.inl same)
    · refine (NodeMaps.lookup_pushTo_cases found).imp (fun before => .inr (.inl ⟨other, before⟩)) ?_
      rintro ⟨named, old, stored, pushed⟩
      exact ⟨named, old, stored.imp_left fun before => .inr (.inl before), pushed⟩
    · exact .inl (.inr (.inr same))
  · rcases files with same | same | ⟨other, found⟩
    · exact .inl (.inl same)
    · exact .inl (.inr (.inl same))
    · refine (NodeMaps.lookup_pushTo_cases found).imp (fun before => .inr (.inr ⟨other, before⟩)) ?_
      rintro ⟨named, old, stored, pushed⟩
      exact ⟨named, old, stored.imp_left fun before => .inr (.inr before), pushed⟩

/-- Pushing an index makes no node primary. -/
theorem isPrimary_pushNode_iff :
    (pushNode localNode index groups node).IsPrimary name ↔ groups.IsPrimary name := by
  unfold pushNode IsPrimary
  split_ifs with here isPrimary
  · rfl
  · rw [NodeMaps.pushTo, NodeMaps.isSome_lookup_insert]
    exact ⟨fun either => either.elim (fun same => same ▸ isPrimary) id, .inr⟩
  · rfl

/-- It makes a remote node secondary if it is not primary. -/
theorem isSecondary_pushNode_iff :
    (pushNode localNode index groups node).IsSecondary name ↔ groups.IsSecondary name ∨
      name = node.name ∧ name ≠ localNode ∧ ¬ groups.IsPrimary name := by
  unfold pushNode IsSecondary IsPrimary
  split_ifs with here isPrimary
  · refine (or_iff_left ?_).symm
    rintro ⟨rfl, remote, -⟩
    exact remote here
  · refine (or_iff_left ?_).symm
    rintro ⟨rfl, -, notPrimary⟩
    exact notPrimary isPrimary
  · rw [NodeMaps.pushTo, NodeMaps.isSome_lookup_insert, or_comm]
    refine or_congr_right ⟨?_, And.left⟩
    rintro rfl
    exact ⟨rfl, here, isPrimary⟩

/-! ## One key -/

/-- A primary node is added only if it is a target and not secondary. -/
theorem addPrimary_cases (groups : Groups) (localNode : NodeName) (targetNodes : List Node) :
    groups.addPrimary localNode targetNodes = groups ∨
      ∃ node ∈ targetNodes, ¬ groups.IsSecondary node.name ∧
        groups.addPrimary localNode targetNodes =
          { groups with primary := groups.primary.insert node.name (node, IndexMap.new) } := by
  unfold addPrimary
  split_ifs with served
  · exact .inl rfl
  · cases found : targetNodes.find? fun n => (groups.secondary.lookup n.name).isNone with
    | none => exact .inl rfl
    | some node =>
      refine .inr ⟨node, List.mem_of_find?_eq_some found, ?_, rfl⟩
      have absent := List.find?_some found
      simpa [IsSecondary] using absent

theorem files_addPrimary_cases
    (files : (groups.addPrimary localNode targetNodes).Files localNode name map) :
    groups.Files localNode name map ∨ map = IndexMap.new := by
  rcases addPrimary_cases groups localNode targetNodes with same | ⟨node, -, -, added⟩
  · exact .inl (same ▸ files)
  · rw [added] at files
    rcases files with isLocal | ⟨other, found⟩ | isSecondary
    · exact .inl (.inl isLocal)
    · by_cases here : name = node.name
      · subst here
        rw [AList.lookup_insert] at found
        cases found
        exact .inr rfl
      · rw [AList.lookup_insert_ne here] at found
        exact .inl (.inr (.inl ⟨other, found⟩))
    · exact .inl (.inr (.inr isSecondary))

theorem isPrimary_addPrimary (isPrimary : groups.IsPrimary name) :
    (groups.addPrimary localNode targetNodes).IsPrimary name := by
  rcases addPrimary_cases groups localNode targetNodes with same | ⟨node, -, -, added⟩
  · rwa [same]
  · rw [added, IsPrimary, NodeMaps.isSome_lookup_insert]
    exact .inr isPrimary

/-- A key without a local target has a primary one then, unless all are secondary. -/
theorem exists_isPrimary_addPrimary (remote : ∀ node ∈ targetNodes, node.name ≠ localNode) :
    (∃ node ∈ targetNodes, (groups.addPrimary localNode targetNodes).IsPrimary node.name) ∨
      ∀ node ∈ targetNodes, groups.IsSecondary node.name := by
  unfold addPrimary
  split_ifs with served
  · obtain ⟨node, member, found⟩ := List.any_eq_true.mp served
    rw [Bool.or_eq_true, decide_eq_true_eq] at found
    exact .inl ⟨node, member, found.resolve_left (remote node member)⟩
  · cases found : targetNodes.find? fun n => (groups.secondary.lookup n.name).isNone with
    | none =>
      refine .inr fun node member => ?_
      have stored := List.find?_eq_none.mp found node member
      simpa [IsSecondary, Option.isSome_iff_ne_none] using stored
    | some node =>
      refine .inl ⟨node, List.mem_of_find?_eq_some found, ?_⟩
      rw [IsPrimary, NodeMaps.isSome_lookup_insert]
      exact .inl rfl

theorem isPrimary_foldl_iff {start : Groups} :
    (targetNodes.foldl (pushNode localNode index) start).IsPrimary name ↔
      start.IsPrimary name := by
  induction targetNodes generalizing start with
  | nil => rfl
  | cons node rest ih => rw [List.foldl_cons, ih, isPrimary_pushNode_iff]

/-- A primary node stays primary. -/
theorem isPrimary_addKey (isPrimary : groups.IsPrimary name) :
    (groups.addKey localNode targetNodes index).IsPrimary name :=
  isPrimary_foldl_iff.mpr (isPrimary_addPrimary isPrimary)

/-- No node is in both groups. -/
def Disjoint (groups : Groups) : Prop := ∀ name, ¬ (groups.IsPrimary name ∧ groups.IsSecondary name)

theorem Disjoint.addPrimary (disjoint : groups.Disjoint) :
    (groups.addPrimary localNode targetNodes).Disjoint := by
  rcases addPrimary_cases groups localNode targetNodes with same | ⟨node, -, fresh, added⟩
  · rwa [same]
  · rintro name ⟨isPrimary, isSecondary⟩
    rw [added] at isPrimary isSecondary
    rcases NodeMaps.isSome_lookup_insert.mp isPrimary with rfl | before
    · exact fresh isSecondary
    · exact disjoint name ⟨before, isSecondary⟩

theorem Disjoint.pushNode (disjoint : groups.Disjoint) :
    (pushNode localNode index groups node).Disjoint := by
  rintro name ⟨isPrimary, isSecondary⟩
  rw [isPrimary_pushNode_iff] at isPrimary
  rcases isSecondary_pushNode_iff.mp isSecondary with before | ⟨-, -, notPrimary⟩
  · exact disjoint name ⟨isPrimary, before⟩
  · exact notPrimary isPrimary

theorem Disjoint.addKey (disjoint : groups.Disjoint) :
    (groups.addKey localNode targetNodes index).Disjoint := by
  have folded (start : Groups) (hstart : start.Disjoint) :
      (targetNodes.foldl (Groups.pushNode localNode index) start).Disjoint := by
    induction targetNodes generalizing start with
    | nil => exact hstart
    | cons node rest ih => exact ih _ hstart.pushNode
  exact folded _ disjoint.addPrimary

/-- The maps are in order, and the last index is only under the nodes in `filed`. -/
structure Ordered (groups : Groups) (localNode : NodeName) (index : ℕ) (filed : Set NodeName) :
    Prop where
  pairwise : ∀ name map, groups.Files localNode name map → map.indexes.Pairwise (· < ·)
  lt_or_eq : ∀ name map, groups.Files localNode name map → ∀ i ∈ map.indexes,
    i < index ∨ i = index ∧ name ∈ filed

variable {filed : Set NodeName}

theorem Ordered.addPrimary (ordered : groups.Ordered localNode index filed) :
    (groups.addPrimary localNode targetNodes).Ordered localNode index filed := by
  refine ⟨fun name map files => ?_, fun name map files => ?_⟩
  · rcases files_addPrimary_cases files with before | rfl
    · exact ordered.pairwise name map before
    · exact List.Pairwise.nil
  · rcases files_addPrimary_cases files with before | rfl
    · exact ordered.lt_or_eq name map before
    · exact nofun

theorem Ordered.pushNode (ordered : groups.Ordered localNode index filed)
    (fresh : node.name ∉ filed) :
    (pushNode localNode index groups node).Ordered localNode index (insert node.name filed) := by
  -- what the index is pushed to has smaller ones only
  have below {old : IndexMap} (source : groups.Files localNode node.name old ∨ old = .new) :
      old.indexes.Pairwise (· < ·) ∧ ∀ i ∈ old.indexes, i < index := by
    rcases source with files | rfl
    · refine ⟨ordered.pairwise _ _ files, fun i member => ?_⟩
      exact (ordered.lt_or_eq _ _ files i member).resolve_right fun last => fresh last.2
    · exact ⟨List.Pairwise.nil, nofun⟩
  refine ⟨fun name map files => ?_, fun name map files i member => ?_⟩
  · rcases files_pushNode_cases files with before | ⟨rfl, old, source, rfl⟩
    · exact ordered.pairwise name map before
    · obtain ⟨sorted, less⟩ := below source
      refine List.pairwise_append.mpr
        ⟨sorted, List.pairwise_singleton _ _, fun i member j last => ?_⟩
      rw [List.mem_singleton.mp last]
      exact less i member
  · rcases files_pushNode_cases files with before | ⟨rfl, old, source, rfl⟩
    · exact (ordered.lt_or_eq name map before i member).imp_right fun last =>
        ⟨last.1, Set.mem_insert_of_mem _ last.2⟩
    · rcases List.mem_append.mp member with inOld | last
      · exact .inl ((below source).2 i inOld)
      · exact .inr ⟨List.mem_singleton.mp last, Set.mem_insert _ _⟩

/-- The index of a key is pushed once to each of its targets, since these are distinct. -/
theorem Ordered.addKey (ordered : groups.Ordered localNode index ∅)
    (distinct : (targetNodes.map (·.name)).Nodup) :
    (groups.addKey localNode targetNodes index).Ordered localNode (index + 1) ∅ := by
  have folded (start : Groups) (filed : Set NodeName)
      (hstart : start.Ordered localNode index filed)
      (fresh : ∀ name ∈ targetNodes.map (·.name), name ∉ filed) :
      ∃ filed, (targetNodes.foldl (Groups.pushNode localNode index) start).Ordered localNode index
        filed := by
    induction targetNodes generalizing start filed with
    | nil => exact ⟨filed, hstart⟩
    | cons node rest ih =>
      rw [List.map_cons, List.nodup_cons] at distinct
      rw [List.map_cons, List.forall_mem_cons] at fresh
      refine ih distinct.2 _ _ (hstart.pushNode fresh.1) fun name member => ?_
      rintro (rfl | before)
      · exact distinct.1 member
      · exact fresh.2 name member before
  obtain ⟨filed, last⟩ := folded _ ∅ ordered.addPrimary fun _ _ => Set.notMem_empty _
  refine ⟨last.pairwise, fun name map files i member => .inl ?_⟩
  have le := last.lt_or_eq name map files i member
  omega

end Groups

/-! ## All keys -/

section Runs

variable {mapper : Virtual} {keys : List (BobKey keySize)} {groups result : Groups} {index : ℕ}

/-- What the turn of each key keeps, the loop over the keys keeps. -/
theorem groupFrom_induction {P : ℕ → Groups → Prop}
    (turn : ∀ index groups (key : BobKey keySize) targets,
      mapper.getTargetNodesForKey key = .ok targets → P index groups →
        P (index + 1) (groups.addKey mapper.localNodeName targets index))
    (start : P index groups) (done : groupFrom mapper groups index keys = .ok result) :
    P (index + keys.length) result := by
  induction keys generalizing groups index with
  | nil =>
    cases done
    exact start
  | cons key rest ih =>
    obtain ⟨targets, routed, later⟩ := bind_eq_ok_iff.mp done
    have kept := ih (turn index groups key targets routed start) later
    rwa [List.length_cons, Nat.add_comm rest.length, ← Nat.add_assoc]

theorem groupFrom_append {more : List (BobKey keySize)} :
    groupFrom mapper groups index (keys ++ more) =
      groupFrom mapper groups index keys >>= fun earlier =>
        groupFrom mapper earlier (index + keys.length) more := by
  induction keys generalizing groups index with
  | nil => rfl
  | cons key rest ih =>
    rw [List.cons_append, groupFrom, groupFrom]
    cases mapper.getTargetNodesForKey key with
    | error panic => rfl
    | ok targets =>
      refine ih.trans ?_
      rw [List.length_cons, Nat.add_comm rest.length, ← Nat.add_assoc]
      rfl

theorem isPrimary_groupFrom {name : NodeName} (isPrimary : groups.IsPrimary name)
    (done : groupFrom mapper groups index keys = .ok result) : result.IsPrimary name :=
  groupFrom_induction (P := fun _ groups => groups.IsPrimary name)
    (fun _ _ _ _ _ before => Groups.isPrimary_addKey before) isPrimary done

theorem disjoint_groupByNodes (done : groupByNodes keys mapper = .ok result) :
    result.Disjoint := by
  refine groupFrom_induction (P := fun _ groups => groups.Disjoint)
    (fun _ _ _ _ _ before => before.addKey) ?_ done
  rintro name ⟨isPrimary, -⟩
  cases isPrimary

theorem nodup_targets (wf : mapper.WellFormed) {key : BobKey keySize} {targets : List Node}
    (routed : mapper.getTargetNodesForKey key = .ok targets) :
    (targets.map (·.name)).Nodup := by
  obtain ⟨id, vdisk, hid, hvdisk, placed⟩ := wf.exists_vdisk key
  cases routed.symm.trans (Virtual.getTargetNodesForKey_eq hid hvdisk)
  exact placed.nodup_names wf

theorem ordered_groupByNodes (wf : mapper.WellFormed)
    (done : groupByNodes keys mapper = .ok result) :
    result.Ordered mapper.localNodeName keys.length ∅ := by
  have empty : Groups.Ordered ⟨IndexMap.new, ∅, ∅⟩ mapper.localNodeName 0 ∅ := by
    have new {name : NodeName} {map : IndexMap}
        (files : Groups.Files ⟨IndexMap.new, ∅, ∅⟩ mapper.localNodeName name map) :
        map = IndexMap.new := by
      rcases files with ⟨-, rfl⟩ | ⟨node, found⟩ | ⟨node, found⟩
      · rfl
      · cases found
      · cases found
    refine ⟨fun name map files => ?_, fun name map files => ?_⟩
    · rw [new files]
      exact List.Pairwise.nil
    · rw [new files]
      exact nofun
  have kept := groupFrom_induction
    (P := fun index groups => groups.Ordered mapper.localNodeName index ∅)
    (fun _ _ _ _ routed before => before.addKey (nodup_targets wf routed)) empty done
  rwa [Nat.zero_add] at kept

/-- When a key comes up it has a primary target, or gets one, or all of them are secondary. -/
theorem served_of_groupByNodes (done : groupByNodes keys mapper = .ok result) {i : ℕ}
    {key : BobKey keySize} (found : keys[i]? = some key)
    (remote : ¬ IsTarget mapper key mapper.localNodeName) :
    (∃ name, IsTarget mapper key name ∧ result.IsPrimary name) ∨
      ∃ earlier, groupByNodes (keys.take i) mapper = .ok earlier ∧
        ∀ name, IsTarget mapper key name → earlier.IsSecondary name := by
  obtain ⟨below, rfl⟩ := List.getElem?_eq_some_iff.mp found
  have split : keys = keys.take i ++ keys[i] :: keys.drop (i + 1) := by
    rw [List.getElem_cons_drop, List.take_append_drop]
  rw [groupByNodes, split, groupFrom_append] at done
  obtain ⟨earlier, before, turn⟩ := bind_eq_ok_iff.mp done
  obtain ⟨targets, routed, later⟩ := bind_eq_ok_iff.mp turn
  simp only [isTarget_iff routed] at remote ⊢
  have others : ∀ node ∈ targets, node.name ≠ mapper.localNodeName := fun node member same =>
    remote (same ▸ List.mem_map_of_mem member)
  rcases @Groups.exists_isPrimary_addPrimary earlier mapper.localNodeName targets others with
    ⟨node, member, isPrimary⟩ | all
  · refine .inl ⟨node.name, List.mem_map_of_mem member, isPrimary_groupFrom ?_ later⟩
    exact Groups.isPrimary_foldl_iff.mpr isPrimary
  · refine .inr ⟨earlier, before, fun name member => ?_⟩
    obtain ⟨node, hnode, rfl⟩ := List.mem_map.mp member
    exact all node hnode

end Runs

/-! ## The maps of a node -/

section Returned

variable {groups : Groups} {localNode name : NodeName}

theorem not_isPrimary_local (keyed : groups.Keyed localNode) : ¬ groups.IsPrimary localNode := by
  intro isPrimary
  obtain ⟨⟨node, map⟩, found⟩ := Option.isSome_iff_exists.mp isPrimary
  exact (keyed.primary _ _ _ found).2 rfl

theorem not_isSecondary_local (keyed : groups.Keyed localNode) :
    ¬ groups.IsSecondary localNode := by
  intro isSecondary
  obtain ⟨⟨node, map⟩, found⟩ := Option.isSome_iff_exists.mp isSecondary
  exact (keyed.secondary _ _ _ found).2 rfl

theorem returnedLocal_eq_some_iff {map : IndexMap} :
    groups.returnedLocal = some map ↔ map = groups.localMap ∧ groups.localMap.indexes ≠ [] := by
  rw [Groups.returnedLocal, IndexMap.isEmpty]
  split_ifs with empty
  · refine iff_of_false not_false ?_
    exact fun both => both.2 (List.isEmpty_iff.mp empty)
  · rw [Option.some_inj, eq_comm]
    exact (and_iff_left fun none => empty (List.isEmpty_iff.mpr none)).symm

/-- For the local node the local map is returned, and no other one. -/
theorem returns_local_iff (keyed : groups.Keyed localNode) {map : IndexMap} :
    groups.Returns localNode localNode map ↔ groups.returnedLocal = some map := by
  constructor
  · rintro (⟨-, returned⟩ | ⟨node, found⟩ | ⟨node, found⟩)
    · exact returned
    · exact absurd rfl (keyed.primary _ _ _ found).2
    · exact absurd rfl (keyed.secondary _ _ _ found).2
  · intro returned
    exact .inl ⟨rfl, returned⟩

/-- An index is filed under a node if it is in a map that is returned for the node. -/
theorem has_iff_returns (keyed : groups.Keyed localNode) {i : ℕ} :
    groups.Has localNode name i ↔
      ∃ map, groups.Returns localNode name map ∧ i ∈ map.indexes := by
  rw [Groups.Has]
  split_ifs with here
  · subst here
    simp only [returns_local_iff keyed, returnedLocal_eq_some_iff]
    constructor
    · intro member
      exact ⟨groups.localMap, ⟨rfl, List.ne_nil_of_mem member⟩, member⟩
    · rintro ⟨map, ⟨rfl, -⟩, member⟩
      exact member
  · constructor
    · rintro (⟨node, map, found, member⟩ | ⟨node, map, found, member⟩)
      · exact ⟨map, .inr (.inl ⟨node, found⟩), member⟩
      · exact ⟨map, .inr (.inr ⟨node, found⟩), member⟩
    · rintro ⟨map, ⟨same, -⟩ | ⟨node, found⟩ | ⟨node, found⟩, member⟩
      · exact absurd same here
      · exact .inl ⟨node, map, found, member⟩
      · exact .inr ⟨node, map, found, member⟩

/-- At most one map is returned for a node. -/
theorem returns_unique (keyed : groups.Keyed localNode) (disjoint : groups.Disjoint)
    {map other : IndexMap} (first : groups.Returns localNode name map)
    (second : groups.Returns localNode name other) : other = map := by
  by_cases here : name = localNode
  · subst here
    rw [returns_local_iff keyed] at first second
    exact Option.some.inj (second.symm.trans first)
  · have remote {map : IndexMap} (returns : groups.Returns localNode name map) :=
      returns.resolve_left fun both => here both.1
    have apart {a b : Node × IndexMap} (isPrimary : groups.primary.lookup name = some a)
        (isSecondary : groups.secondary.lookup name = some b) : False :=
      disjoint name ⟨Option.isSome_of_eq_some isPrimary, Option.isSome_of_eq_some isSecondary⟩
    rcases remote first with ⟨node, found⟩ | ⟨node, found⟩ <;>
      rcases remote second with ⟨node', found'⟩ | ⟨node', found'⟩
    · cases found.symm.trans found'
      rfl
    · exact (apart found found').elim
    · exact (apart found' found).elim
    · cases found.symm.trans found'
      rfl

end Returned

namespace Quorum

theorem exists_grouped {mapper : Virtual} (wf : mapper.WellFormed) (keys : List (BobKey keySize)) :
    ∃ groups, groupByNodes keys mapper = .ok groups ∧ Grouped mapper keys groups := by
  obtain ⟨groups, done, keyed, has⟩ := exists_groupByNodes wf keys
  have disjoint := disjoint_groupByNodes done
  have ordered := ordered_groupByNodes wf done
  have increasing {name : NodeName} {map : IndexMap}
      (returns : groups.Returns mapper.localNodeName name map) : map.indexes.Pairwise (· < ·) :=
    ordered.pairwise name map (Groups.files_of_returns returns)
  refine ⟨groups, done, disjoint, ⟨not_isPrimary_local keyed, not_isSecondary_local keyed⟩,
    ?_, ?_, fun _ _ => increasing, fun i key found _ => served_of_groupByNodes done found⟩
  · intro i key name found target
    obtain ⟨map, returns, member⟩ :=
      (has_iff_returns keyed).mp ((has name i).mpr ⟨key, found, target⟩)
    refine ⟨map, fun other => ?_, ?_⟩
    · exact ⟨returns_unique keyed disjoint returns, fun same => same ▸ returns⟩
    · exact List.count_eq_one_of_mem ((increasing returns).imp ne_of_lt) member
  · intro i key name found other map returns member
    obtain ⟨again, hagain, target⟩ := (has name i).mp
      ((has_iff_returns keyed).mpr ⟨map, returns, member⟩)
    rw [found] at hagain
    cases hagain
    exact other target

/-- Grouping a batch for a validated cluster returns groups that are disjoint, file each index
once and in order, and serve each key. -/
theorem groupByNodes_grouped {ext : Externals} {cluster : Configs.Cluster} {config : NodeConfig}
    {mapper : Virtual} (validated : cluster.validate ext.parseUri = .ok ())
    (built : Virtual.new config cluster = .ok mapper) (keys : List (BobKey keySize)) :
    ∃ groups, groupByNodes keys mapper = .ok groups ∧ Grouped mapper keys groups := by
  have wf := (Virtual.builtFrom_of_new built).wellFormed (Cluster.valid_of_validate validated)
  exact exists_grouped wf keys

/-- Three keys, of which two are the same. -/
theorem groupByNodes_grouped_repeated_key :
    ∃ groups, groupByNodes [(⟨#v[0]⟩ : BobKey 1), ⟨#v[1]⟩, ⟨#v[0]⟩] Virtual.smallMapper =
        .ok groups ∧
      Grouped Virtual.smallMapper [(⟨#v[0]⟩ : BobKey 1), ⟨#v[1]⟩, ⟨#v[0]⟩] groups :=
  groupByNodes_grouped Virtual.validate_small Virtual.new_small [⟨#v[0]⟩, ⟨#v[1]⟩, ⟨#v[0]⟩]

end Quorum

end Bob.Cluster

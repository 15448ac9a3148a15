/-
# The choice of support nodes

When target nodes fail, copies go to support nodes: nodes that are not targets of
the key, connected ones first, starting from an offset that a shared counter
moves. Whether a node is connected can change between any two questions, so the
answers come from a function of the number of the question. Whatever it answers,
the chosen nodes are distinct members of the cluster, none is a target, and there
are as many as asked for, or all that are not targets if those are fewer. Where
the answers do not change during the call, disconnected nodes only fill up what
the connected ones leave.
-/

import Bob.Common.Routing

namespace Bob

open Bob.Math

/-- The answers to `connection_available` during one call: the answer to its
`n`-th question, asked of a node. -/
abbrev Availability := ℕ → Node → Bool

/-- Where one pass over the nodes stopped, and how many available nodes it met. -/
structure SupportIndexResult where
  index : Option ℕ
  avail : ℕ
  deriving DecidableEq, Repr

namespace Virtual

variable {keySize : ℕ}

/-- The node is none of the target nodes. -/
def isFree (targetNodes : List Node) (node : Node) : Bool :=
  targetNodes.all fun n => n.index ≠ node.index

/-- One pass over the nodes, from position `i`. It stops at the available node
number `offset`, and returns the number of questions asked so far. -/
def tryFindSupportNodeOffsetAtOnePass (ask : Availability) (targetNodes : List Node) (offset : ℕ)
    (i avail asked : ℕ) : List Node → SupportIndexResult × ℕ
  | [] => (⟨none, avail⟩, asked)
  | node :: rest =>
    -- the connection is asked first, so every node costs a question
    if ask asked node && isFree targetNodes node then
      if avail = offset then (⟨some i, avail + 1⟩, asked + 1)
      else tryFindSupportNodeOffsetAtOnePass ask targetNodes offset (i + 1) (avail + 1) (asked + 1)
        rest
    else tryFindSupportNodeOffsetAtOnePass ask targetNodes offset (i + 1) avail (asked + 1) rest

/-- A pass that does not stop met at most `offset` available nodes. -/
theorem avail_le_of_index_none {ask : Availability} {targetNodes nodes : List Node}
    {offset i avail asked : ℕ} (start : avail ≤ offset)
    (passed :
      (tryFindSupportNodeOffsetAtOnePass ask targetNodes offset i avail asked nodes).1.index =
        none) :
    (tryFindSupportNodeOffsetAtOnePass ask targetNodes offset i avail asked nodes).1.avail ≤
      offset := by
  induction nodes generalizing i avail asked with
  | nil => exact start
  | cons node rest ih =>
    rw [tryFindSupportNodeOffsetAtOnePass] at passed ⊢
    split_ifs at passed ⊢ with free here
    · exact ih (by omega) passed
    · exact ih start passed

/-- The loop that retries with a smaller offset while a pass does not stop. -/
def retryOffset (ask : Availability) (nodes targetNodes : List Node) (currOffset asked : ℕ) :
    SupportIndexResult × ℕ :=
  let pass := tryFindSupportNodeOffsetAtOnePass ask targetNodes currOffset 0 0 asked nodes
  if _again : pass.1.index = none ∧ 0 < pass.1.avail then
    retryOffset ask nodes targetNodes
      (if currOffset > pass.1.avail then currOffset - pass.1.avail else 0) pass.2
  else pass
termination_by currOffset
decreasing_by
  -- a pass that met some nodes did not stop, so it met at most `currOffset` of them
  have met := avail_le_of_index_none (Nat.zero_le _) _again.1
  have some := _again.2
  simp only [pass] at met some
  split <;> omega

/-- The position to start from, with the number of questions asked. -/
def findSupportNodeOffset (ask : Availability) (nodes targetNodes : List Node) (offset : ℕ) :
    ℕ × ℕ :=
  if targetNodes.length ≥ nodes.length then (offset % nodes.length, 0)
  else
    let pass := tryFindSupportNodeOffsetAtOnePass ask targetNodes
      (offset % (nodes.length - targetNodes.length)) 0 0 0 nodes
    let res :=
      if pass.1.index = none ∧ 0 < pass.1.avail then
        retryOffset ask nodes targetNodes (offset % pass.1.avail) pass.2
      else pass
    match res.1.index with
    | some index => (index, res.2)
    | none => (offset % nodes.length, res.2)

/-- First pass: available nodes that are not targets, until there are `count`. -/
def pickAvailable (ask : Availability) (targetNodes : List Node) (count : ℕ)
    (supportNodes : List Node) (asked : ℕ) : List Node → List Node
  | [] => supportNodes
  | node :: rest =>
    if ask asked node && isFree targetNodes node then
      if (supportNodes ++ [node]).length ≥ count then supportNodes ++ [node]
      else pickAvailable ask targetNodes count (supportNodes ++ [node]) (asked + 1) rest
    else pickAvailable ask targetNodes count supportNodes (asked + 1) rest

/-- Second pass: fill up without asking whether a node is connected. -/
def pickAny (targetNodes : List Node) (count : ℕ) (supportNodes : List Node) :
    List Node → List Node
  | [] => supportNodes
  | node :: rest =>
    if isFree supportNodes node && isFree targetNodes node then
      if (supportNodes ++ [node]).length ≥ count then supportNodes ++ [node]
      else pickAny targetNodes count (supportNodes ++ [node]) rest
    else pickAny targetNodes count supportNodes rest

/-- The support nodes for a key. The offset is what `fetch_add` on the shared
counter returned. -/
def getSupportNodes (mapper : Virtual) (ask : Availability) (offset : ℕ) (key : BobKey keySize)
    (count : ℕ) : Except Panic (List Node) :=
  if count = 0 then .ok []
  else do
    let targetNodes ← mapper.getTargetNodesForKey key
    if targetNodes.length ≥ mapper.nodes.length then .ok []
    else
      let start := findSupportNodeOffset ask mapper.nodes targetNodes offset
      let ring := mapper.nodes.rotate start.1
      let supportNodes := pickAvailable ask targetNodes count [] start.2 ring
      -- the second pass is made only where there are free nodes left to find
      if supportNodes.length < count &&
          supportNodes.length + targetNodes.length < mapper.nodes.length then
        .ok (pickAny targetNodes count supportNodes ring)
      else .ok supportNodes

/-! ## What is chosen -/

/-- A list of support nodes that the two passes can have built. -/
structure Chosen (ring targetNodes : List Node) (count : ℕ) (supportNodes : List Node) : Prop where
  nodup : (supportNodes.map (·.index)).Nodup
  mem_ring : ∀ node ∈ supportNodes, node ∈ ring
  free : ∀ node ∈ supportNodes, isFree targetNodes node = true
  length_le : supportNodes.length ≤ count

variable {ring targetNodes supportNodes : List Node} {count : ℕ} {node : Node}

theorem isFree_iff : isFree targetNodes node = true ↔ node.index ∉ targetNodes.map (·.index) := by
  simp [isFree]

private theorem Chosen.push (chosen : Chosen ring targetNodes count supportNodes)
    (fresh : node.index ∉ supportNodes.map (·.index)) (listed : node ∈ ring)
    (free : isFree targetNodes node = true) (room : supportNodes.length < count) :
    Chosen ring targetNodes count (supportNodes ++ [node]) where
  nodup := by
    rw [List.map_append, List.map_singleton, List.nodup_append]
    refine ⟨chosen.nodup, List.nodup_singleton _, fun index hindex other hother => ?_⟩
    rw [List.mem_singleton.mp hother]
    exact fun same => fresh (same ▸ hindex)
  mem_ring := fun other hother => by
    rcases List.mem_append.mp hother with old | new
    · exact chosen.mem_ring other old
    · exact List.mem_singleton.mp new ▸ listed
  free := fun other hother => by
    rcases List.mem_append.mp hother with old | new
    · exact chosen.free other old
    · exact List.mem_singleton.mp new ▸ free
  length_le := by
    rw [List.length_append, List.length_singleton]
    exact room

private theorem chosen_pickAvailable (ask : Availability) (asked : ℕ) {rest : List Node}
    (chosen : Chosen ring targetNodes count supportNodes) (inside : ∀ node ∈ rest, node ∈ ring)
    (distinct : (supportNodes.map (·.index) ++ rest.map (·.index)).Nodup)
    (room : supportNodes.length < count) :
    Chosen ring targetNodes count
      (pickAvailable ask targetNodes count supportNodes asked rest) := by
  induction rest generalizing supportNodes asked with
  | nil => exact chosen
  | cons node rest ih =>
    have insideRest : ∀ other ∈ rest, other ∈ ring :=
      fun other hother => inside other (List.mem_cons_of_mem _ hother)
    -- the first pass does not look at what it has picked; the ring has no repetitions
    have fresh : node.index ∉ supportNodes.map (·.index) := fun old =>
      (List.nodup_append.mp distinct).2.2 _ old _ (List.mem_map_of_mem List.mem_cons_self) rfl
    rw [pickAvailable]
    split_ifs with picked full
    · exact chosen.push fresh (inside node List.mem_cons_self)
        (Bool.and_eq_true_iff.mp picked).2 room
    · apply ih (asked + 1) (chosen.push fresh (inside node List.mem_cons_self)
        (Bool.and_eq_true_iff.mp picked).2 room) insideRest
      · simpa using distinct
      · omega
    · refine ih (asked + 1) chosen insideRest (distinct.sublist ?_) room
      exact (List.sublist_cons_self _ _).append_left _

private theorem chosen_pickAny {rest : List Node}
    (chosen : Chosen ring targetNodes count supportNodes) (inside : ∀ node ∈ rest, node ∈ ring)
    (room : supportNodes.length < count) :
    Chosen ring targetNodes count (pickAny targetNodes count supportNodes rest) := by
  induction rest generalizing supportNodes with
  | nil => exact chosen
  | cons node rest ih =>
    have insideRest : ∀ other ∈ rest, other ∈ ring :=
      fun other hother => inside other (List.mem_cons_of_mem _ hother)
    rw [pickAny]
    split_ifs with picked full
    · obtain ⟨fresh, free⟩ := Bool.and_eq_true_iff.mp picked
      exact chosen.push (isFree_iff.mp fresh) (inside node List.mem_cons_self) free room
    · obtain ⟨fresh, free⟩ := Bool.and_eq_true_iff.mp picked
      apply ih (chosen.push (isFree_iff.mp fresh) (inside node List.mem_cons_self) free room)
        insideRest
      omega
    · exact ih chosen insideRest room

/-- Where something is asked for and there is a node to find, the choice is what the
two passes over a rotation of the nodes pick. -/
theorem getSupportNodes_eq {mapper : Virtual} (ask : Availability) (offset : ℕ)
    {key : BobKey keySize} (targets : mapper.getTargetNodesForKey key = .ok targetNodes)
    (wanted : count ≠ 0) (some : targetNodes.length < mapper.nodes.length) :
    ∃ ring asked, ring.Perm mapper.nodes ∧
      mapper.getSupportNodes ask offset key count = .ok
        (if (pickAvailable ask targetNodes count [] asked ring).length < count ∧
            (pickAvailable ask targetNodes count [] asked ring).length + targetNodes.length <
              mapper.nodes.length then
          pickAny targetNodes count (pickAvailable ask targetNodes count [] asked ring) ring
        else pickAvailable ask targetNodes count [] asked ring) := by
  let start := findSupportNodeOffset ask mapper.nodes targetNodes offset
  refine ⟨mapper.nodes.rotate start.1, start.2, List.rotate_perm _ _, ?_⟩
  rw [getSupportNodes, if_neg wanted, targets]
  simp only [bind, Except.bind, if_neg (not_le.mpr some), Bool.and_eq_true, decide_eq_true_eq]
  split_ifs <;> rfl

/-- In a well-formed mapper the choice succeeds. Its nodes are distinct members of
the cluster, none is a target of the key, and there are at most `count`. -/
theorem WellFormed.exists_supportNodes {mapper : Virtual} (wf : mapper.WellFormed)
    (ask : Availability) (offset : ℕ) (key : BobKey keySize) (count : ℕ)
    (targets : mapper.getTargetNodesForKey key = .ok targetNodes) :
    ∃ supportNodes, mapper.getSupportNodes ask offset key count = .ok supportNodes ∧
      Chosen mapper.nodes targetNodes count supportNodes := by
  have none : Chosen mapper.nodes targetNodes count [] :=
    ⟨List.nodup_nil, by simp, by simp, Nat.zero_le _⟩
  by_cases zero : count = 0
  · exact ⟨[], by rw [getSupportNodes, if_pos zero], none⟩
  by_cases full : targetNodes.length < mapper.nodes.length
  · obtain ⟨ring, asked, perm, eq⟩ := getSupportNodes_eq ask offset targets zero full
    have inside : ∀ node ∈ ring, node ∈ mapper.nodes := fun node hnode => perm.mem_iff.mp hnode
    have picked := chosen_pickAvailable ask asked none inside
      (by simpa using (perm.map (·.index)).nodup_iff.mpr wf.nodup_indexes)
      (by simpa using Nat.pos_of_ne_zero zero)
    refine ⟨_, eq, ?_⟩
    split_ifs with short
    · exact chosen_pickAny picked inside short.1
    · exact picked
  · refine ⟨[], ?_, none⟩
    rw [getSupportNodes, if_neg zero, targets]
    simp only [bind, Except.bind, if_pos (not_lt.mp full)]

/-! ## How many are chosen, and in which order -/

private theorem isPrefix_pickAny {rest : List Node} :
    supportNodes <+: pickAny targetNodes count supportNodes rest := by
  induction rest generalizing supportNodes with
  | nil => exact List.prefix_refl _
  | cons node rest ih =>
    rw [pickAny]
    split_ifs
    · exact List.prefix_append _ _
    · exact (List.prefix_append _ _).trans ih
    · exact ih

/-- The second pass stops early only with `count` nodes. -/
private theorem pickAny_complete {rest : List Node}
    (short : (pickAny targetNodes count supportNodes rest).length < count) :
    ∀ node ∈ rest, isFree targetNodes node = true →
      node.index ∈ (pickAny targetNodes count supportNodes rest).map (·.index) := by
  induction rest generalizing supportNodes with
  | nil => simp
  | cons head rest ih =>
    intro node hnode free
    rw [pickAny] at short ⊢
    split_ifs at short ⊢ with fresh full
    · omega
    · rcases List.mem_cons.mp hnode with rfl | later
      · exact List.mem_map_of_mem (isPrefix_pickAny.subset (by simp))
      · exact ih short node later free
    · rcases List.mem_cons.mp hnode with rfl | later
      -- a free node that is passed over has been picked before
      · have old : ¬ isFree supportNodes node = true := fun new => fresh (by simp [new, free])
        rw [isFree_iff, not_not] at old
        exact (isPrefix_pickAny.map _).subset old
      · exact ih short node later free

section Fixed

variable {ask : Availability} {up : Node → Bool} (fixed : ∀ n, ask n = up)
include fixed

/-- With fixed answers the first pass stops early only with `count` nodes, and
what it adds is available. -/
private theorem pickAvailable_complete {rest : List Node} {asked : ℕ} :
    supportNodes <+: pickAvailable ask targetNodes count supportNodes asked rest ∧
    (∀ node ∈ pickAvailable ask targetNodes count supportNodes asked rest,
      node ∈ supportNodes ∨ up node = true) ∧
    ((pickAvailable ask targetNodes count supportNodes asked rest).length < count →
      ∀ node ∈ rest, up node = true → isFree targetNodes node = true →
        node ∈ pickAvailable ask targetNodes count supportNodes asked rest) := by
  induction rest generalizing supportNodes asked with
  | nil => exact ⟨List.prefix_refl _, fun node old => Or.inl old, by simp⟩
  | cons head rest ih =>
    rw [pickAvailable, fixed]
    split_ifs with good full
    · refine ⟨List.prefix_append _ _, fun node hnode => ?_, fun short => by omega⟩
      rcases List.mem_append.mp hnode with old | new
      · exact Or.inl old
      · exact Or.inr (List.mem_singleton.mp new ▸ (Bool.and_eq_true_iff.mp good).1)
    · obtain ⟨kept, added, complete⟩ := @ih (supportNodes ++ [head]) (asked + 1)
      refine ⟨(List.prefix_append _ _).trans kept, fun node hnode => ?_, fun short node hnode => ?_⟩
      · rcases added node hnode with old | new
        · rcases List.mem_append.mp old with older | last
          · exact Or.inl older
          · exact Or.inr (List.mem_singleton.mp last ▸ (Bool.and_eq_true_iff.mp good).1)
        · exact Or.inr new
      · rcases List.mem_cons.mp hnode with rfl | later
        · exact fun _ _ => kept.subset (by simp)
        · exact complete short node later
    · obtain ⟨kept, added, complete⟩ := @ih supportNodes (asked + 1)
      refine ⟨kept, added, fun short node hnode here free => ?_⟩
      rcases List.mem_cons.mp hnode with rfl | later
      · exact absurd (by simp [here, free]) good
      · exact complete short node later here free

end Fixed

/-- Available nodes come first, and an unavailable one is there only if all available
nodes that are not targets are. -/
structure AvailableFirst (up : Node → Bool) (nodes targetNodes supportNodes : List Node) :
    Prop where
  ordered : supportNodes.Pairwise fun first second => up second = true → up first = true
  complete : ∀ node ∈ supportNodes, up node = false →
    ∀ other ∈ nodes, other ∉ targetNodes → up other = true → other ∈ supportNodes

/-- Available nodes, followed by others only if no free one is left, and then by
unavailable ones. -/
private theorem availableFirst_append {up : Node → Bool} {picked filled : List Node}
    (available : ∀ node ∈ picked, up node = true)
    (complete : filled ≠ [] → ∀ node ∈ ring, node ∉ targetNodes → up node = true → node ∈ picked)
    (rest : ∀ node ∈ filled, up node = false) :
    AvailableFirst up ring targetNodes (picked ++ filled) where
  ordered := by
    rw [List.pairwise_append]
    refine ⟨List.pairwise_of_forall_mem_list fun first hfirst _ _ _ => available first hfirst, ?_,
      fun first hfirst _ _ _ => available first hfirst⟩
    exact List.pairwise_of_forall_mem_list fun _ _ second hsecond here =>
      absurd here (by simp [rest second hsecond])
  complete := fun node hnode down other hother free here => by
    rcases List.mem_append.mp hnode with old | new
    · exact absurd (available node old) (by simp [down])
    · exact List.mem_append_left _
        (complete (List.ne_nil_of_mem new) other hother free here)

section Counting

variable {mapper : Virtual} {id : VDiskId} {vdisk : DataVDisk}

/-- Indexes are unique, so a node of the cluster is free exactly when it is no target. -/
theorem WellPlaced.isFree_iff_not_mem (placed : mapper.WellPlaced id vdisk)
    (wf : mapper.WellFormed) (listed : node ∈ mapper.nodes) :
    isFree vdisk.nodes node = true ↔ node ∉ vdisk.nodes := by
  rw [isFree_iff, not_iff_not]
  constructor
  · intro indexed
    obtain ⟨other, hother, same⟩ := List.mem_map.mp indexed
    have := List.inj_on_of_nodup_map wf.nodup_indexes (placed.nodes_sublist.subset hother) listed
      same
    exact this ▸ hother
  · exact List.mem_map_of_mem

/-- The nodes that are not targets are the others. -/
theorem WellPlaced.length_free (placed : mapper.WellPlaced id vdisk) (wf : mapper.WellFormed) :
    (mapper.nodes.filter (isFree vdisk.nodes)).length =
      mapper.nodes.length - vdisk.nodes.length := by
  let target (node : Node) : Bool := vdisk.replicas.any fun r => r.nodeName = node.name
  have targets : vdisk.nodes = mapper.nodes.filter target := placed.nodes_eq
  have free : mapper.nodes.filter (isFree vdisk.nodes) = mapper.nodes.filter (!target ·) := by
    apply List.filter_congr
    intro node hnode
    rw [Bool.eq_iff_iff, placed.isFree_iff_not_mem wf hnode, targets, List.mem_filter]
    simp [hnode]
  have split := List.length_eq_length_filter_add target (l := mapper.nodes)
  rw [free, targets]
  omega

/-- Chosen nodes are distinct and free, so there are at most as many as free nodes. -/
private theorem Chosen.length_le_free {nodes : List Node}
    (chosen : Chosen nodes targetNodes count supportNodes) :
    supportNodes.length ≤ (nodes.filter (isFree targetNodes)).length := by
  apply List.Subperm.length_le
  apply List.subperm_of_subset (List.Nodup.of_map _ chosen.nodup)
  exact fun node hnode => List.mem_filter.mpr ⟨chosen.mem_ring node hnode, chosen.free node hnode⟩

/-- A second pass that ends short of `count` has all free nodes. -/
private theorem length_free_le_pickAny {nodes : List Node} (perm : ring.Perm nodes)
    (nodup : (nodes.map (·.index)).Nodup)
    (short : (pickAny targetNodes count supportNodes ring).length < count) :
    (nodes.filter (isFree targetNodes)).length ≤
      (pickAny targetNodes count supportNodes ring).length := by
  have le : ((nodes.filter (isFree targetNodes)).map (·.index)).length ≤
      ((pickAny targetNodes count supportNodes ring).map (·.index)).length := ?_
  · rwa [List.length_map, List.length_map] at le
  apply List.Subperm.length_le
  apply List.subperm_of_subset (nodup.sublist (List.filter_sublist.map _))
  intro index hindex
  obtain ⟨node, hnode, rfl⟩ := List.mem_map.mp hindex
  obtain ⟨listed, free⟩ := List.mem_filter.mp hnode
  exact pickAny_complete short node (perm.mem_iff.mpr listed) free

end Counting

/-- What the two passes pick with fixed answers: the second one finds no available
node that the first has left. -/
private theorem availableFirst_picked {mapper : Virtual} {id : VDiskId} {vdisk : DataVDisk}
    (wf : mapper.WellFormed) (placed : mapper.WellPlaced id vdisk) {ask : Availability}
    {up : Node → Bool} {asked : ℕ} (fixed : ∀ n, ask n = up) (perm : ring.Perm mapper.nodes)
    (second : Prop) [Decidable second]
    (short : second → (pickAvailable ask vdisk.nodes count [] asked ring).length < count)
    (chosen : Chosen mapper.nodes vdisk.nodes count
      (if second then
        pickAny vdisk.nodes count (pickAvailable ask vdisk.nodes count [] asked ring) ring
      else pickAvailable ask vdisk.nodes count [] asked ring)) :
    AvailableFirst up mapper.nodes vdisk.nodes
      (if second then
        pickAny vdisk.nodes count (pickAvailable ask vdisk.nodes count [] asked ring) ring
      else pickAvailable ask vdisk.nodes count [] asked ring) := by
  obtain ⟨-, added, complete⟩ :=
    @pickAvailable_complete vdisk.nodes [] count ask up fixed ring asked
  have available : ∀ node ∈ pickAvailable ask vdisk.nodes count [] asked ring, up node = true :=
    fun node hnode => (added node hnode).resolve_left List.not_mem_nil
  split_ifs at chosen ⊢ with filled
  · have all : ∀ node ∈ mapper.nodes, node ∉ vdisk.nodes → up node = true →
        node ∈ pickAvailable ask vdisk.nodes count [] asked ring := fun node hnode free here =>
      complete (short filled) node (perm.mem_iff.mpr hnode) here
        ((placed.isFree_iff_not_mem wf hnode).mpr free)
    obtain ⟨extra, eq⟩ := @isPrefix_pickAny vdisk.nodes
      (pickAvailable ask vdisk.nodes count [] asked ring) count ring
    rw [← eq] at chosen ⊢
    refine availableFirst_append available (fun _ => all) fun node hnode => ?_
    -- an available node among the added ones would be there twice
    rw [Bool.eq_false_iff]
    intro here
    have inside := List.mem_append_right (pickAvailable ask vdisk.nodes count [] asked ring) hnode
    have listed := chosen.mem_ring node inside
    have free := (placed.isFree_iff_not_mem wf listed).mp (chosen.free node inside)
    exact (List.nodup_append.mp (List.Nodup.of_map _ chosen.nodup)).2.2 node
      (all node listed free here) node hnode rfl
  · rw [← List.append_nil (pickAvailable _ _ _ _ _ _)]
    exact availableFirst_append available (fun some => absurd rfl some)
      fun _ none => absurd none List.not_mem_nil

/-- The choice of support nodes for a key of a validated cluster. However the answers
to `connection_available` change during the call, it returns distinct nodes, no
target among them, as many as asked for or all that are not targets. If the answers
do not change, the available nodes come first. -/
theorem support_nodes_fill_up_to_count {ext : Configs.Externals} {cluster : Configs.Cluster}
    {config : Configs.NodeConfig} {mapper : Virtual}
    (validated : cluster.validate ext.parseUri = .ok ())
    (built : Virtual.new config cluster = .ok mapper) (ask : Availability) (offset : ℕ)
    (key : BobKey keySize) (count : ℕ) :
    ∃ targetNodes supportNodes, mapper.getTargetNodesForKey key = .ok targetNodes ∧
      mapper.getSupportNodes ask offset key count = .ok supportNodes ∧
      supportNodes.Nodup ∧
      (∀ node ∈ supportNodes, node ∈ mapper.nodes ∧ node ∉ targetNodes) ∧
      supportNodes.length = min count (mapper.nodes.length - targetNodes.length) ∧
      ∀ up : Node → Bool, (∀ n, ask n = up) →
        AvailableFirst up mapper.nodes targetNodes supportNodes := by
  have wf := (builtFrom_of_new built).wellFormed (Configs.Cluster.valid_of_validate validated)
  obtain ⟨id, vdisk, hid, found, placed⟩ := wf.exists_vdisk key
  have targets := getTargetNodesForKey_eq hid found
  obtain ⟨supportNodes, eq, chosen⟩ := wf.exists_supportNodes ask offset key count targets
  refine ⟨vdisk.nodes, supportNodes, targets, eq, List.Nodup.of_map _ chosen.nodup,
    fun node hnode => ⟨chosen.mem_ring node hnode, ?_⟩, ?_⟩
  · exact (placed.isFree_iff_not_mem wf (chosen.mem_ring node hnode)).mp (chosen.free node hnode)
  have few := chosen.length_le_free
  rw [placed.length_free wf] at few
  by_cases nothing : count = 0 ∨ mapper.nodes.length ≤ vdisk.nodes.length
  -- nothing is asked for, or every node is a target
  · have empty : supportNodes = [] := by
      have := chosen.length_le
      rw [← List.length_eq_zero_iff]
      omega
    subst empty
    exact ⟨by simp; omega, fun up _ => ⟨List.Pairwise.nil, by simp⟩⟩
  rw [not_or, not_le] at nothing
  obtain ⟨ring, asked, perm, eq'⟩ := getSupportNodes_eq ask offset targets nothing.1 nothing.2
  obtain rfl := Except.ok.inj (eq.symm.trans eq')
  refine ⟨le_antisymm (le_min chosen.length_le few) ?_, fun up fixed => ?_⟩
  · split_ifs with filled
    · by_contra less
      rw [not_le] at less
      have := length_free_le_pickAny perm wf.nodup_indexes (less.trans_le (min_le_left _ _))
      rw [placed.length_free wf] at this
      omega
    · omega
  · exact availableFirst_picked wf placed fixed perm _ (fun filled => filled.1) chosen

/-- Connections that come and go with every question. A key of the vdisk with both
replicas on the first node still gets the two other nodes. -/
theorem small_support_nodes_fill_up :
    smallCluster.validate lenientExternals.parseUri = .ok () ∧
    Virtual.new preparedSmallNode smallCluster = .ok smallMapper ∧
    ∃ targetNodes supportNodes,
      smallMapper.getTargetNodesForKey (⟨#v[1]⟩ : BobKey 1) = .ok targetNodes ∧
      smallMapper.getSupportNodes (fun n _ => n % 2 == 0) 5 (⟨#v[1]⟩ : BobKey 1) 3 =
        .ok supportNodes ∧
      supportNodes.length = min 3 (smallMapper.nodes.length - targetNodes.length) := by
  obtain ⟨targetNodes, supportNodes, targets, eq, -, -, filled, -⟩ :=
    support_nodes_fill_up_to_count validate_small new_small (fun n _ => n % 2 == 0) 5
      (⟨#v[1]⟩ : BobKey 1) 3
  exact ⟨validate_small, new_small, targetNodes, supportNodes, targets, eq, filled⟩

end Virtual

end Bob

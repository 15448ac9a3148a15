/-
# Support nodes are used uniformly

While the connections do not change, the search for the first support node walks to the
available node of a certain rank: the counter modulo the number of nodes that are not
targets, or modulo the number of available ones if that is too large. The chosen nodes
are those that follow on it around the circle of available nodes. So over a window of the
counter as long as the least common multiple of the two numbers, every available node is
used equally often.
-/

import Bob.Math.Window
import Bob.Common.SupportNodes

namespace Bob.Virtual

open Bob.Math

variable {keySize : ℕ} {up : Node → Bool} {nodes targetNodes : List Node}

/-- The available nodes that are not targets. -/
def candidates (up : Node → Bool) (targetNodes nodes : List Node) : List Node :=
  nodes.filter fun node => up node && isFree targetNodes node

theorem candidates_append {first second : List Node} :
    candidates up targetNodes (first ++ second) =
      candidates up targetNodes first ++ candidates up targetNodes second :=
  List.filter_append ..

theorem candidates_cons_of_mem {node : Node} {rest : List Node}
    (available : (up node && isFree targetNodes node) = true) :
    candidates up targetNodes (node :: rest) = node :: candidates up targetNodes rest :=
  List.filter_cons_of_pos available

theorem candidates_cons_of_not_mem {node : Node} {rest : List Node}
    (unavailable : ¬ (up node && isFree targetNodes node) = true) :
    candidates up targetNodes (node :: rest) = candidates up targetNodes rest :=
  List.filter_cons_of_neg unavailable

/-- Targets that are among the nodes are not candidates. -/
theorem length_candidates_le (targets : (targetNodes.map (·.index)).Nodup)
    (known : targetNodes.map (·.index) ⊆ nodes.map (·.index)) :
    (candidates up targetNodes nodes).length ≤ nodes.length - targetNodes.length := by
  have free : (candidates up targetNodes nodes).length ≤
      (nodes.filter (isFree targetNodes)).length := by
    rw [candidates, ← List.filter_filter]
    exact List.length_filter_le ..
  have taken : targetNodes.length ≤ (nodes.filter fun node => !isFree targetNodes node).length := by
    have inside : targetNodes.map (·.index) ⊆
        (nodes.filter fun node => !isFree targetNodes node).map (·.index) := by
      intro index member
      obtain ⟨node, listed, rfl⟩ := List.mem_map.mp (known member)
      have target : ¬ isFree targetNodes node = true := fun free => isFree_iff.mp free member
      exact List.mem_map_of_mem (List.mem_filter.mpr ⟨listed, by simpa using target⟩)
    simpa using (List.subperm_of_subset targets inside).length_le
  have split := List.length_eq_length_filter_add (isFree targetNodes) (l := nodes)
  omega

/-! ## The starting point -/

/-- The candidate of this rank is at this position. -/
def AtRank (up : Node → Bool) (targetNodes nodes : List Node) (rank position : ℕ) : Prop :=
  ∃ before node after, nodes = before ++ node :: after ∧
    (up node && isFree targetNodes node) = true ∧
    (candidates up targetNodes before).length = rank ∧ before.length = position

theorem AtRank.cons_of_mem {node : Node} {rank position : ℕ}
    (available : (up node && isFree targetNodes node) = true)
    (there : AtRank up targetNodes nodes rank position) :
    AtRank up targetNodes (node :: nodes) (rank + 1) (position + 1) := by
  obtain ⟨before, found, after, rfl, good, rfl, rfl⟩ := there
  exact ⟨node :: before, found, after, rfl, good,
    by rw [candidates_cons_of_mem available, List.length_cons], rfl⟩

theorem AtRank.cons_of_not_mem {node : Node} {rank position : ℕ}
    (unavailable : ¬ (up node && isFree targetNodes node) = true)
    (there : AtRank up targetNodes nodes rank position) :
    AtRank up targetNodes (node :: nodes) rank (position + 1) := by
  obtain ⟨before, found, after, rfl, good, rfl, rfl⟩ := there
  exact ⟨node :: before, found, after, rfl, good,
    by rw [candidates_cons_of_not_mem unavailable], rfl⟩

/-- A pass stops at the candidate whose rank is the offset. -/
theorem tryFind_of_lt {offset i avail asked : ℕ} (started : avail ≤ offset)
    (enough : offset < avail + (candidates up targetNodes nodes).length) :
    ∃ position, AtRank up targetNodes nodes (offset - avail) position ∧
      (tryFindSupportNodeOffsetAtOnePass (fun _ => up) targetNodes offset i avail asked
        nodes).1.index = some (i + position) := by
  induction nodes generalizing i avail asked with
  | nil =>
    rw [candidates, List.filter_nil, List.length_nil] at enough
    omega
  | cons node rest ih =>
    rw [tryFindSupportNodeOffsetAtOnePass]
    by_cases available : (up node && isFree targetNodes node) = true
    · rw [if_pos available]
      rw [candidates_cons_of_mem available, List.length_cons] at enough
      by_cases here : avail = offset
      · rw [if_pos here]
        exact ⟨0, ⟨[], node, rest, rfl, available, by simp [candidates, here], rfl⟩, rfl⟩
      · rw [if_neg here]
        obtain ⟨position, there, found⟩ :=
          @ih (i + 1) (avail + 1) (asked + 1) (by omega) (by omega)
        refine ⟨position + 1, ?_, by rw [found]; congr 1; omega⟩
        have shifted := there.cons_of_mem available
        rwa [show offset - (avail + 1) + 1 = offset - avail by omega] at shifted
    · rw [if_neg available]
      rw [candidates_cons_of_not_mem available] at enough
      obtain ⟨position, there, found⟩ := @ih (i + 1) avail (asked + 1) started enough
      exact ⟨position + 1, there.cons_of_not_mem available, by rw [found]; congr 1; omega⟩

/-- A pass with a larger offset counts the candidates. -/
theorem tryFind_of_le {offset i avail asked : ℕ}
    (few : avail + (candidates up targetNodes nodes).length ≤ offset) :
    (tryFindSupportNodeOffsetAtOnePass (fun _ => up) targetNodes offset i avail asked nodes).1 =
      ⟨none, avail + (candidates up targetNodes nodes).length⟩ := by
  induction nodes generalizing i avail asked with
  | nil => rfl
  | cons node rest ih =>
    rw [tryFindSupportNodeOffsetAtOnePass]
    by_cases available : (up node && isFree targetNodes node) = true
    · rw [candidates_cons_of_mem available, List.length_cons] at few ⊢
      rw [if_pos available, if_neg (by omega), ih (by omega)]
      congr 1
      omega
    · rw [candidates_cons_of_not_mem available] at few ⊢
      rw [if_neg available, ih few]

/-- The search ends at the candidate whose rank is the folded offset. -/
theorem findSupportNodeOffset_atRank (some : candidates up targetNodes nodes ≠ [])
    (free : 0 < nodes.length - targetNodes.length) (offset : ℕ) :
    AtRank up targetNodes nodes
      (foldMod (nodes.length - targetNodes.length) (candidates up targetNodes nodes).length offset)
      (findSupportNodeOffset (fun _ => up) nodes targetNodes offset).1 := by
  have positive : 0 < (candidates up targetNodes nodes).length := List.length_pos_iff.mpr some
  rw [findSupportNodeOffset, if_neg (by omega), foldMod]
  by_cases small : offset % (nodes.length - targetNodes.length) <
      (candidates up targetNodes nodes).length
  · obtain ⟨position, there, found⟩ := @tryFind_of_lt up nodes targetNodes _ 0 0 0
      (Nat.zero_le (offset % (nodes.length - targetNodes.length))) (by omega)
    simp only [found, small, if_true, reduceCtorEq, false_and, if_false, Nat.zero_add]
    exact there
  · have counted := @tryFind_of_le up nodes targetNodes
      (offset % (nodes.length - targetNodes.length)) 0 0 0 (by omega)
    -- the first pass only counts; the second stops, as the offset is now a rank
    obtain ⟨position, there, found⟩ := @tryFind_of_lt up nodes targetNodes _ 0 0
      (tryFindSupportNodeOffsetAtOnePass (fun _ => up) targetNodes
        (offset % (nodes.length - targetNodes.length)) 0 0 0 nodes).2
      (Nat.zero_le (offset % (candidates up targetNodes nodes).length))
      (by rw [Nat.zero_add]; exact Nat.mod_lt _ positive)
    simp only [counted, small, if_false, Nat.zero_add, positive, and_self, if_true]
    rw [retryOffset]
    simp only [found, reduceCtorEq, false_and, dite_false, Nat.zero_add]
    exact there

/-- Starting from a candidate, the candidates come in the order of their circle. -/
theorem AtRank.candidates_rotate {rank position : ℕ}
    (there : AtRank up targetNodes nodes rank position) :
    candidates up targetNodes (nodes.rotate position) =
      (candidates up targetNodes nodes).rotate rank := by
  obtain ⟨before, node, after, rfl, -, rfl, rfl⟩ := there
  rw [List.rotate_append_length_eq, candidates_append, candidates_append,
    List.rotate_append_length_eq]

theorem AtRank.getElem?_eq {rank position : ℕ}
    (there : AtRank up targetNodes nodes rank position) :
    nodes[position]? = (candidates up targetNodes nodes)[rank]? := by
  obtain ⟨before, node, after, rfl, available, rfl, rfl⟩ := there
  rw [candidates_append, candidates_cons_of_mem available]
  simp

/-! ## The chosen nodes -/

/-- The first pass takes candidates in the order of the ring. -/
theorem pickAvailable_eq {count asked : ℕ} {supportNodes ring : List Node}
    (few : supportNodes.length < count) :
    pickAvailable (fun _ => up) targetNodes count supportNodes asked ring =
      supportNodes ++ (candidates up targetNodes ring).take (count - supportNodes.length) := by
  induction ring generalizing supportNodes asked with
  | nil => simp [pickAvailable, candidates]
  | cons node rest ih =>
    rw [pickAvailable]
    by_cases available : (up node && isFree targetNodes node) = true
    · rw [if_pos available, candidates_cons_of_mem available]
      obtain ⟨left, remaining⟩ : ∃ left, count - supportNodes.length = left + 1 :=
        ⟨count - supportNodes.length - 1, by omega⟩
      rw [remaining, List.take_succ_cons]
      split_ifs with full
      · have last : left = 0 := by
          rw [List.length_append, List.length_singleton] at full
          omega
        rw [last, List.take_zero]
      · have more : (supportNodes ++ [node]).length < count := not_le.mp full
        rw [ih more, List.append_assoc, List.singleton_append]
        congr 3
        rw [List.length_append, List.length_singleton]
        omega
    · rw [if_neg available, candidates_cons_of_not_mem available, ih few]

/-- With enough candidates, a key gets those that follow on the one of the folded offset. -/
theorem getSupportNodes_eq_take {mapper : Virtual} {key : BobKey keySize} {count : ℕ}
    (targets : mapper.getTargetNodesForKey key = .ok targetNodes)
    (some : candidates up targetNodes mapper.nodes ≠ [])
    (free : 0 < mapper.nodes.length - targetNodes.length)
    (enough : count ≤ (candidates up targetNodes mapper.nodes).length) (offset : ℕ) :
    mapper.getSupportNodes (fun _ => up) offset key count = .ok
      (((candidates up targetNodes mapper.nodes).rotate
        (foldMod (mapper.nodes.length - targetNodes.length)
          (candidates up targetNodes mapper.nodes).length offset)).take count) := by
  rw [getSupportNodes]
  by_cases none : count = 0
  · rw [if_pos none, none, List.take_zero]
  have wanted : ([] : List Node).length < count := Nat.pos_of_ne_zero none
  rw [if_neg none, targets]
  simp only [bind, Except.bind, if_neg (show ¬ targetNodes.length ≥ mapper.nodes.length by omega)]
  rw [pickAvailable_eq wanted, List.nil_append, List.length_nil, Nat.sub_zero,
    (findSupportNodeOffset_atRank some free offset).candidates_rotate]
  simp [enough]

/-- A call chooses the node. -/
def chooses (mapper : Virtual) (up : Node → Bool) (key : BobKey keySize) (count : ℕ) (node : Node)
    (offset : ℕ) : Bool :=
  match mapper.getSupportNodes (fun _ => up) offset key count with
  | .ok supportNodes => decide (node ∈ supportNodes)
  | .error _ => false

/-- While the connections do not change, over any window of the counter as long as the least
common multiple of the numbers of free and of available nodes, the search returns every
available node equally often, and calls for `count` nodes choose every one equally often. -/
theorem support_nodes_are_used_uniformly (up : Node → Bool)
    (distinct : (nodes.map (·.index)).Nodup) (targets : (targetNodes.map (·.index)).Nodup)
    (known : targetNodes.map (·.index) ⊆ nodes.map (·.index))
    (some : candidates up targetNodes nodes ≠ []) (start : ℕ) :
    let a := (candidates up targetNodes nodes).length
    let window := Nat.lcm (nodes.length - targetNodes.length) a
    (∀ node ∈ candidates up targetNodes nodes, countFrom start window (fun offset =>
      nodes[(findSupportNodeOffset (fun _ => up) nodes targetNodes offset).1]? = .some node) =
        window / a) ∧
    ∀ (mapper : Virtual) (key : BobKey keySize), mapper.nodes = nodes →
      mapper.getTargetNodesForKey key = .ok targetNodes → ∀ count ≤ a,
      (∀ node ∈ candidates up targetNodes nodes, countFrom start window (fun offset =>
        mapper.chooses up key count node offset = true) = count * window / a) ∧
      ∀ node offset, mapper.chooses up key count node offset = true →
        node ∈ candidates up targetNodes nodes := by
  intro a window
  have le : a ≤ nodes.length - targetNodes.length := length_candidates_le targets known
  have positive : 0 < a := List.length_pos_iff.mpr some
  have nodup : (candidates up targetNodes nodes).Nodup := (List.Nodup.of_map _ distinct).filter _
  constructor
  · intro node member
    obtain ⟨rank, hrank, here⟩ := List.mem_iff_getElem.mp member
    rw [← countFrom_foldMod_eq le hrank start]
    refine countFrom_congr fun offset => ?_
    rw [(findSupportNodeOffset_atRank some (positive.trans_le le) offset).getElem?_eq, ← here,
      ← List.getElem?_eq_getElem hrank, List.getElem?_inj (foldMod_lt positive offset) nodup]
  · rintro mapper key rfl found count few
    have chooses_iff (node : Node) (offset : ℕ) : mapper.chooses up key count node offset = true ↔
        node ∈ ((candidates up targetNodes mapper.nodes).rotate
          (foldMod (mapper.nodes.length - targetNodes.length) a offset)).take count := by
      rw [chooses, getSupportNodes_eq_take found some (positive.trans_le le) few offset,
        decide_eq_true_iff]
    constructor
    · intro node member
      obtain ⟨rank, hrank, here⟩ := List.mem_iff_getElem.mp member
      rw [Nat.mul_div_assoc _ (Nat.dvd_lcm_right _ a), ← countFrom_consecutive le hrank few start]
      refine countFrom_congr fun offset => ?_
      rw [chooses_iff, mem_take_rotate_iff nodup (List.getElem?_eq_some_iff.mpr ⟨hrank, here⟩) few]
    · intro node offset chosen
      exact List.mem_rotate.mp (List.mem_of_mem_take ((chooses_iff node offset).mp chosen))

/-- With the second node of the small cluster disconnected, the third is found at every offset
for a key of the first node, and with both connected each is chosen at every second one. -/
theorem small_support_nodes_are_used_uniformly :
    let key : BobKey 1 := ⟨#v[1]⟩
    let third : Node := ⟨2, ⟨"gamma"⟩, "gamma:20000"⟩
    countFrom 7 2 (fun offset => smallMapper.nodes[(findSupportNodeOffset
        (fun _ node => node.index ≠ 1) smallMapper.nodes [⟨0, ⟨"alpha"⟩, "alpha:20000"⟩]
        offset).1]? = some third) = 2 ∧
      countFrom 7 2 (fun offset => smallMapper.chooses (fun _ => true) key 1 third offset = true) =
        1 := by
  intro key third
  have first := @support_nodes_are_used_uniformly 1 smallMapper.nodes
    [⟨0, ⟨"alpha"⟩, "alpha:20000"⟩] (fun node => node.index ≠ 1) (by decide) (by decide) (by decide)
    (by decide) 7
  have second := @support_nodes_are_used_uniformly 1 smallMapper.nodes
    [⟨0, ⟨"alpha"⟩, "alpha:20000"⟩] (fun _ => true) (by decide) (by decide) (by decide)
    (by decide) 7
  exact ⟨first.1 third (by decide), (second.2 smallMapper key rfl rfl 1 (by decide)).1 third
    (by decide)⟩

end Bob.Virtual

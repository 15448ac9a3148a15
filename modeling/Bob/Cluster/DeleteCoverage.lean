/-
# What a delete covers

A delete calls this node on each of its paths, all other target nodes, and the alien
stores of all nodes. If each call that returns leads to a fact about the state, and
later calls do not undo it, then a delete that returns has led to all these facts.
-/

import Bob.Cluster.Delete

namespace Bob.Cluster.Quorum

open Bob.Math Bob.Configs

variable {keySize : ℕ} {q : Quorum} {key : BobKey keySize} {bobMeta : BobMeta}

section Coverage

variable {σ : Type} {I : σ → Prop} {R : σ → σ → Prop} [IsPreorder σ R]
  {calls : DeleteCalls (StateT σ (Except Panic)) keySize} {chances : DeleteChances keySize}

/-- What each call of a delete leads to: on a disk of this node, on another target node,
in the alien store here for a target node, and in the alien store of another node. -/
structure Covers (I : σ → Prop) (R : σ → σ → Prop)
    (calls : DeleteCalls (StateT σ (Except Panic)) keySize) (key : BobKey keySize)
    (bobMeta : BobMeta) (nodes : List Node) (vdiskId : VDiskId) (onPath : DiskPath → σ → Prop)
    (onNode : Node → σ → Prop) (inAlien : Node → σ → Prop) (onAliens : Node → σ → Prop) :
    Prop where
  path : ∀ path, Leads I R (onPath path)
    (calls.deleteLocal key bobMeta (.newLocal vdiskId path) true)
  target : ∀ node ∈ nodes, Leads I R (onNode node) (calls.call node key bobMeta .newLocal)
  alien : ∀ node forceDelete, Leads I R (inAlien node) (calls.deleteLocal key bobMeta
    ((Operation.newAlien vdiskId).setRemoteNodeName node.name) forceDelete)
  aliens : ∀ node ∈ nodes, ∀ forced,
    Leads I R (onAliens node) (calls.call node key bobMeta (.newAlien forced))
  stable_path : ∀ path, Stable R (onPath path)
  stable_target : ∀ node, Stable R (onNode node)
  stable_alien : ∀ node, Stable R (inAlien node)
  stable_aliens : ∀ node, Stable R (onAliens node)

theorem leads_deleteOnRemoteNodes {requests : List (Node × BobDeleteOptions)}
    {order : AnyOrder (DeleteTask keySize)} {fact : Node → σ → Prop}
    (each : ∀ request ∈ requests,
      Leads I R (fact request.1) (calls.call request.1 key bobMeta request.2))
    (stable : ∀ request ∈ requests, Stable R (fact request.1)) :
    Leads I R (fun s => ∀ request ∈ requests, fact request.1 s)
      (deleteOnRemoteNodes chances calls key bobMeta order requests) := by
  have called : Leads I R (fun s => ∀ request ∈ requests, fact request.1 s)
      (callAll chances.serveOrder order requests fun request =>
        callNodeDelete calls key bobMeta request.2 request.1) := by
    unfold callAll
    split_ifs with empty
    · rw [List.isEmpty_iff.mp empty]
      exact (Leads.pure _).weaken fun _ _ _ absent => absurd absent List.not_mem_nil
    · have served : Leads I R (fun s => ∀ request ∈ chances.serveOrder.arrange requests,
          fact request.1 s) ((chances.serveOrder.arrange requests).mapM fun request =>
            callNodeDelete calls key bobMeta request.2 request.1) := by
        refine Leads.mapM (fun request member => ?_) fun request member =>
          stable request (AnyOrder.mem_arrange.mp member)
        have member := AnyOrder.mem_arrange.mp member
        exact (each request member).bind_left
          (fun answer => by cases callNode request.1 answer <;> exact .pure _)
          (stable request member)
      refine (served.bind_left (fun handles => .pure _) ?_).weaken fun s all request member =>
        all request (AnyOrder.mem_arrange.mpr member)
      exact Stable.forall_mem fun request member => stable request (AnyOrder.mem_arrange.mp member)
  refine called.bind_left (fun answer => ?_) (Stable.forall_mem stable)
  dsimp only
  split_ifs <;> exact .pure _

theorem leads_deleteOnRemoteNodesWithOptions {targetNodes : List Node}
    {options : BobDeleteOptions} {order : AnyOrder (DeleteTask keySize)} {fact : Node → σ → Prop}
    (each : ∀ node ∈ targetNodes, Leads I R (fact node) (calls.call node key bobMeta options))
    (stable : ∀ node ∈ targetNodes, Stable R (fact node)) :
    Leads I R (fun s => ∀ node ∈ targetNodes, fact node s)
      (deleteOnRemoteNodesWithOptions chances calls key bobMeta order targetNodes options) := by
  unfold deleteOnRemoteNodesWithOptions
  split_ifs with empty
  · rw [List.isEmpty_iff.mp empty]
    exact (Leads.pure _).weaken fun _ _ _ absent => absurd absent List.not_mem_nil
  · have sent : Leads I R
        (fun s => ∀ request ∈ targetNodes.map fun n => (n, options), fact request.1 s)
        (deleteOnRemoteNodes chances calls key bobMeta order
          (targetNodes.map fun n => (n, options))) := by
      refine leads_deleteOnRemoteNodes ?_ ?_
      · intro request member
        obtain ⟨node, hnode, rfl⟩ := List.mem_map.mp member
        exact each node hnode
      · intro request member
        obtain ⟨node, hnode, rfl⟩ := List.mem_map.mp member
        exact stable node hnode
    refine (sent.weaken fun s all node member => ?_).bind_left
      (fun answer => by cases answer <;> exact .pure _) (Stable.forall_mem stable)
    exact all (node, options) (List.mem_map_of_mem member)

variable {nodes : List Node} {vdiskId id : VDiskId} {vdisk : DataVDisk}
  {onPath : DiskPath → σ → Prop} {onNode inAlien onAliens : Node → σ → Prop}

private theorem leads_deleteOnLocalAliens
    (covers : Covers I R calls key bobMeta nodes vdiskId onPath onNode inAlien onAliens)
    {targetNodes : List Node} (forceNodes : List NodeName) :
    Leads I R (fun s => ∀ node ∈ targetNodes, inAlien node s)
      (deleteOnLocalAliens calls key bobMeta targetNodes forceNodes vdiskId) := by
  refine Leads.bind_left (Leads.foldlM _ (fun failed node _ => ?_) fun node _ =>
    covers.stable_alien node) (fun failed => ?_)
    (Stable.forall_mem fun node _ => covers.stable_alien node)
  · exact (covers.alien node _).bind_left (fun answer => .pure _) (covers.stable_alien node)
  · split_ifs <;> exact .pure _

section Delete

variable
  (covers : Covers I R calls key bobMeta q.mapper.nodes vdisk.id onPath onNode inAlien onAliens)
  (wf : q.mapper.WellFormed) (hid : q.mapper.vdiskIdFromKey key = .ok id)
  (hvdisk : q.mapper.vdisks.lookup id = some vdisk)
include covers wf hid hvdisk

private theorem leads_deleteAtRemoteNodes :
    Leads I R (fun s => ∀ node ∈ vdisk.nodes, node.name ≠ q.mapper.localNodeName → onNode node s)
      (deleteAtRemoteNodes q chances calls key bobMeta) := by
  have inside := (wf.placed id vdisk hvdisk).nodes_sublist.subset
  unfold deleteAtRemoteNodes
  rw [liftM_bind_eq (Virtual.getTargetNodesForKey_eq hid hvdisk)]
  have sent := @leads_deleteOnRemoteNodesWithOptions _ key bobMeta _ I R _ calls chances
    (vdisk.nodes.filter fun n => n.name ≠ q.mapper.localNodeName) .newLocal chances.targetOrder
    onNode (fun node member => covers.target node (inside (List.mem_filter.mp member).1))
    fun node _ => covers.stable_target node
  refine (sent.bind_left (fun errors => .pure _)
    (Stable.forall_mem fun node _ => covers.stable_target node)).weaken ?_
  intro s all node member remote
  exact all node (List.mem_filter.mpr ⟨member, decide_eq_true remote⟩)

private theorem leads_deleteOnTargets :
    Leads I R (fun s => (∀ path ∈ q.mapper.localPaths vdisk, onPath path s) ∧
        ∀ node ∈ vdisk.nodes, node.name ≠ q.mapper.localNodeName → onNode node s)
      (deleteOnTargets q chances calls key bobMeta) := by
  have placed := wf.placed id vdisk hvdisk
  unfold deleteOnTargets
  rw [liftM_bind_eq (Virtual.getOperation_eq hid hvdisk)]
  dsimp only
  rw [Virtual.getD_localPaths]
  refine Leads.bind (Leads.foldlM _ (fun failed path _ => ?_) fun path _ => covers.stable_path path)
    (fun failed => ?_) (Stable.forall_mem fun path _ => covers.stable_path path)
  · refine Leads.bind_left ?_ (fun answer => .pure _) (covers.stable_path path)
    exact (covers.path path).bind_left (fun answer => .pure _) (covers.stable_path path)
  · refine (leads_deleteAtRemoteNodes covers wf hid hvdisk).bind_left (fun answer => .pure _) ?_
    intro s s' moved all node member remote
    exact covers.stable_target node s s' moved (all node member remote)

/-- The support nodes that are chosen are asked to clean their alien stores. -/
private theorem deleteOnSupport_spec {failedNodes failed : List NodeName} {s s' : σ}
    {supNodes : List Node} (inv : I s)
    (ran : deleteOnSupport q chances calls key bobMeta failedNodes s =
      .ok ((supNodes, failed), s')) :
    I s' ∧ R s s' ∧ ∀ node ∈ supNodes, node ∈ q.mapper.nodes ∧ onAliens node s' := by
  unfold deleteOnSupport at ran
  split_ifs at ran with some
  · obtain ⟨chosen, hsup, isChosen⟩ := wf.exists_supportNodes chances.available
      chances.supportOffset key failedNodes.length (Virtual.getTargetNodesForKey_eq hid hvdisk)
    rw [liftM_bind_eq hsup] at ran
    obtain ⟨answer, mid, sent, returned⟩ := bind_apply_eq_ok_iff.mp ran
    have leads := @leads_deleteOnRemoteNodes _ key bobMeta _ I R _ calls chances
      ((chosen.zip (drainCollect chances.drainOrder failedNodes chosen.length).1).map fun pair =>
        (pair.1, BobDeleteOptions.newAlien [pair.2])) chances.supportOrder onAliens
      (fun request member => by
        obtain ⟨pair, hpair, rfl⟩ := List.mem_map.mp member
        exact covers.aliens _ (isChosen.mem_ring _ (List.of_mem_zip hpair).1) _)
      fun request _ => covers.stable_aliens _
    obtain ⟨inv', moved, asked⟩ := leads s answer mid inv sent
    -- there are as many names as support nodes, so each of them is asked
    have served : ∀ node ∈ chosen, node ∈ q.mapper.nodes ∧ onAliens node mid := by
      intro node member
      refine ⟨isChosen.mem_ring node member, ?_⟩
      have enough : chosen.length ≤
          (drainCollect chances.drainOrder failedNodes chosen.length).1.length := by
        rw [length_drainCollect, min_eq_left isChosen.length_le]
      rw [← List.map_fst_zip enough] at member
      obtain ⟨pair, hpair, rfl⟩ := List.mem_map.mp member
      exact asked _ (List.mem_map_of_mem hpair)
    cases answer with
    | ok _ =>
      cases returned
      exact ⟨inv', moved, served⟩
    | error errors =>
      cases returned
      exact ⟨inv', moved, served⟩
  · cases ran
    exact ⟨inv, refl_of R s, fun node absent => absurd absent List.not_mem_nil⟩

/-- Every other node is asked to clean its alien store, as a support node or with all
others. The alien store of this node is cleaned at the end. -/
private theorem leads_deleteAliens (failedNodes : List NodeName) :
    Leads I R (fun s =>
        (∀ node ∈ q.mapper.nodes, node.name ≠ q.mapper.localNodeName → onAliens node s) ∧
        ∀ node ∈ vdisk.nodes, inAlien node s)
      (deleteAliens q chances calls key bobMeta failedNodes) := by
  intro s run s' inv ran
  obtain ⟨⟨supNodes, failed⟩, mid, support, ran⟩ := bind_apply_eq_ok_iff.mp ran
  obtain ⟨inv, moved, supported⟩ := deleteOnSupport_spec covers wf hid hvdisk inv support
  have placed := wf.placed id vdisk hvdisk
  let others := q.otherNodes supNodes
  have asked := @leads_deleteOnRemoteNodes _ key bobMeta _ I R _ calls chances
    (others.map fun n => (n, BobDeleteOptions.newAlien [])) chances.otherOrder onAliens
    (fun request member => by
      obtain ⟨node, hnode, rfl⟩ := List.mem_map.mp member
      exact covers.aliens node (List.mem_filter.mp hnode).1 [])
    fun request _ => covers.stable_aliens _
  obtain ⟨_, mid₂, sent, ran⟩ := bind_apply_eq_ok_iff.mp ran
  obtain ⟨inv, moved₂, asked⟩ := asked mid _ mid₂ inv sent
  rw [liftM_bind_eq (Virtual.getTargetNodesForKey_eq hid hvdisk), liftM_bind_eq hid,
    ← placed.id_eq] at ran
  obtain ⟨answer, last, cleaned, returned⟩ := bind_apply_eq_ok_iff.mp ran
  obtain ⟨inv, moved₃, cleaned⟩ :=
    leads_deleteOnLocalAliens covers failed mid₂ answer last inv cleaned
  have final : s' = last := by
    cases answer <;> cases returned <;> rfl
  subst final
  refine ⟨inv, trans_of R moved (trans_of R moved₂ moved₃), fun node member remote => ?_, cleaned⟩
  by_cases named : node.name ∈ supNodes.map (·.name)
  · obtain ⟨sup, hsup, same⟩ := List.mem_map.mp named
    obtain ⟨listed, here⟩ := supported sup hsup
    obtain rfl := List.inj_on_of_nodup_map wf.nodup_names listed member same
    exact covers.stable_aliens sup _ _ (trans_of R moved₂ moved₃) here
  · have other : node ∈ others := List.mem_filter.mpr ⟨member, by simpa [remote] using named⟩
    exact covers.stable_aliens node _ _ moved₃ (asked _ (List.mem_map_of_mem other))

/-- A delete covers the disks of its node, all other target nodes, and the alien stores of
all nodes. -/
theorem leads_deleteOnNodes :
    Leads I R (fun s =>
        ((∀ path ∈ q.mapper.localPaths vdisk, onPath path s) ∧
          ∀ node ∈ vdisk.nodes, node.name ≠ q.mapper.localNodeName → onNode node s) ∧
        (∀ node ∈ q.mapper.nodes, node.name ≠ q.mapper.localNodeName → onAliens node s) ∧
        ∀ node ∈ vdisk.nodes, inAlien node s)
      (deleteOnNodes q chances calls key bobMeta) := by
  refine (leads_deleteOnTargets covers wf hid hvdisk).bind
    (fun failed => leads_deleteAliens covers wf hid hvdisk failed) ?_
  rintro s s' moved ⟨paths, targets⟩
  exact ⟨fun path member => covers.stable_path path s s' moved (paths path member),
    fun node member remote => covers.stable_target node s s' moved (targets node member remote)⟩

end Delete

end Coverage

end Bob.Cluster.Quorum

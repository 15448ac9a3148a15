/-
# Where a put can panic

The put path indexes, drains, asserts and subtracts. The assertion that no call is
left, the range of `drain` and the first name of an alien request are panics of
`putAtLeast`, and accepted configurations never reach them. One more operation stands
in a log line: the number of replicas that remain for other nodes is the quorum less
the local paths. With debug logging and overflow checks it panics when this node has
more replicas of the vdisk than the quorum asks for.
-/

import Bob.Cluster.Put

namespace Bob.Cluster

open Bob.Math Bob.Configs

variable {keySize : ℕ}

namespace Quorum

/-- The difference that the log line shows, with overflow checks. -/
def remoteReplicas (atLeast pathsLen : ℕ) : Except Panic ℕ :=
  if pathsLen ≤ atLeast then .ok (atLeast - pathsLen)
  else .error ⟨"attempt to subtract with overflow"⟩

/-- The put with its first log line, which is written once the paths are known and before
any call is made. -/
def putAtLeastLogged (q : Quorum) (world : PutWorld keySize) (key : BobKey keySize)
    (data : BobData) : Except Panic (PutOutcome keySize) := do
  let (_, diskPaths) ← q.mapper.getOperation key
  let _ ← q.mapper.getReplicasCountByNode key
  match diskPaths with
  | some paths =>
    let _ ← remoteReplicas q.quorum paths.length
    q.putAtLeast world key data
  | none => q.putAtLeast world key data

variable {q : Quorum} {world : PutWorld keySize} {key : BobKey keySize} {data : BobData}

/-- Each target node is handed over at most once, so there are not more names than nodes. -/
theorem PutOutcome.Sound.length_handed_le {outcome : PutOutcome keySize} {id vdiskId : VDiskId}
    {vdisk : DataVDisk} {counts : Dict NodeName ℕ} {paths : List DiskPath}
    (sound : outcome.Sound q world key data vdisk.nodes counts vdiskId paths)
    (placed : q.mapper.WellPlaced id vdisk) : outcome.handed.length ≤ q.mapper.nodes.length := by
  have distinct : outcome.handed.Nodup := by
    rw [List.nodup_iff_count_le_one]
    intro name
    by_cases member : name ∈ outcome.handed
    · obtain ⟨node, listed, rfl⟩ := List.mem_map.mp (sound.handed_mem name member)
      rw [sound.count_handed node listed]
      split_ifs
      · exact Nat.zero_le 1
      · exact le_rfl
    · rw [List.count_eq_zero.mpr member]
      exact Nat.zero_le 1
  calc outcome.handed.length
    _ ≤ (vdisk.nodes.map (·.name)).length :=
      (List.subperm_of_subset distinct sound.handed_mem).length_le
    _ = vdisk.nodes.length := List.length_map _
    _ ≤ q.mapper.nodes.length := placed.nodes_sublist.length_le

/-- With its log line, a put panics when the vdisk has more local paths than the quorum. -/
theorem putAtLeastLogged_eq {id : VDiskId} {vdisk : DataVDisk}
    (hid : q.mapper.vdiskIdFromKey key = .ok id)
    (hvdisk : q.mapper.vdisks.lookup id = some vdisk) :
    q.putAtLeastLogged world key data = if (q.mapper.localPaths vdisk).length ≤ q.quorum then
      q.putAtLeast world key data else .error ⟨"attempt to subtract with overflow"⟩ := by
  rw [putAtLeastLogged, Virtual.getOperation_eq hid hvdisk,
    Virtual.getReplicasCountByNode_eq hid hvdisk]
  simp only [bind, Except.bind]
  by_cases none : (q.mapper.localPaths vdisk).isEmpty = true
  · rw [List.isEmpty_iff.mp none, List.length_nil, if_pos (Nat.zero_le _)]
    rfl
  · simp only [none, Bool.false_eq_true, if_false, remoteReplicas]
    split_ifs <;> rfl

/-- For accepted configurations, whatever the calls answer and in whatever order they finish:
the put runs to its end without a panic, and it asks for at most as many support nodes as there
are nodes. With the log line the same holds if and only if the vdisk of the key has at most as
many local paths as the quorum. -/
theorem put_panics_only_in_log_line {ext : Externals} {cluster : Configs.Cluster}
    {node prepared : NodeConfig} {mapper : Virtual}
    (validated : cluster.validate ext.parseUri = .ok ())
    (checked : cluster.check ext node = .ok prepared)
    (built : Virtual.new prepared cluster = .ok mapper)
    (world : PutWorld keySize) (key : BobKey keySize) (data : BobData) :
    (∃ outcome, putAtLeast ⟨mapper, node.quorum⟩ world key data = .ok outcome ∧
      outcome.handed.length ≤ mapper.nodes.length) ∧
    ∃ vdiskId paths, mapper.getOperation key = .ok (vdiskId, paths) ∧
      ((∃ outcome, putAtLeastLogged ⟨mapper, node.quorum⟩ world key data = .ok outcome ∧
        outcome.handed.length ≤ mapper.nodes.length) ↔ (paths.getD []).length ≤ node.quorum) := by
  obtain ⟨wf, id, vdisk, hid, hvdisk, enough⟩ :=
    exists_vdisk_of_accepted validated checked built key
  obtain ⟨outcome, ran, sound⟩ :=
    exists_sound_put (q := ⟨mapper, node.quorum⟩) world data wf hid hvdisk enough
  have few := sound.length_handed_le (wf.placed id vdisk hvdisk)
  refine ⟨⟨outcome, ran, few⟩, _, _, Virtual.getOperation_eq hid hvdisk, ?_⟩
  rw [Virtual.getD_localPaths, putAtLeastLogged_eq hid hvdisk]
  split_ifs with fits
  · exact iff_of_true ⟨outcome, ran, few⟩ fits
  · exact iff_of_false (fun ⟨_, logged, _⟩ => by cases logged) fits

/-- A key of the vdisk that has both replicas on the first node of the small cluster. -/
def localKey : BobKey 8 := ⟨#v[1, 0, 0, 0, 0, 0, 0, 0]⟩

/-- With a quorum of two, the vdisk with both replicas on this node fits. -/
theorem small_put_does_not_panic : ∃ outcome,
    putAtLeastLogged ⟨Virtual.smallMapper, 2⟩ lossyWorld localKey ⟨[1], ⟨1⟩⟩ = .ok outcome ∧
      outcome.handed.length ≤ Virtual.smallMapper.nodes.length := by
  obtain ⟨-, vdiskId, paths, operation, defined⟩ := put_panics_only_in_log_line
    Virtual.validate_small Virtual.check_small Virtual.new_small lossyWorld localKey ⟨[1], ⟨1⟩⟩
  cases operation
  exact defined.mpr le_rfl

/-- The node file of the small cluster with a quorum of one. -/
def singleQuorumNode : NodeConfig := { Virtual.smallNode with quorum := 1 }

/-- With a quorum of one, a key of the vdisk with both replicas on this node makes the put
panic, whatever the calls would answer. -/
theorem local_replicas_exceed_quorum : ∃ prepared,
    Virtual.smallCluster.validate Virtual.lenientExternals.parseUri = .ok () ∧
    singleQuorumNode.validate Virtual.lenientExternals = .ok () ∧
    Virtual.smallCluster.check Virtual.lenientExternals singleQuorumNode = .ok prepared ∧
    Virtual.new prepared Virtual.smallCluster = .ok Virtual.smallMapper ∧
    ∀ world data, putAtLeastLogged ⟨Virtual.smallMapper, singleQuorumNode.quorum⟩ world
      localKey data = .error ⟨"attempt to subtract with overflow"⟩ := by
  refine ⟨{ Virtual.preparedSmallNode with quorum := 1 }, by decide, by decide, by decide, rfl, ?_⟩
  intro world data
  rfl

end Quorum

end Bob.Cluster

/-
# What peers may answer

A peer answers a call with a status or, to an existence check, with a vector of flags. The
message of a status is read back as an error, and a key in it is cut into slices of two
bytes. The flags are joined to those of the batch, after an assertion on their number.

Both may abort the node that called. A status is read just when no key is in it that cannot
be sliced, or that has digits past the end of a key; flags are joined just when there are as
many as keys were asked for.
-/

import Bob.Cluster.Exist
import Bob.Common.Status

namespace Bob

open Bob.Math

/-! ## Statuses -/

/-- The characters of one slice. -/
def TwoBytes (slice : List Char) : Prop := (slice.map Char.utf8Size).sum = 2

/-- The number in a slice, if there is one. -/
def readSlice : List Char → Option UInt8
  | [c, d] => fromStrRadix c d
  | _ => none

/-- The text is cut into slices of two bytes, and those past the end of a key are no
numbers. -/
def Readable (keySize : ℕ) (text : List Char) : Prop :=
  ∃ slices : List (List Char), slices.flatten = text ∧ (∀ slice ∈ slices, TwoBytes slice) ∧
    ∀ slice ∈ slices.drop keySize, readSlice slice = none

/-- The key in the message, if the message has one, is readable. -/
def Status.Readable (keySize : ℕ) (status : Status) : Prop :=
  ∀ word more, words isWhitespace status.message.toList = "KeyNotFound".toList :: word :: more →
    Bob.Readable keySize word

theorem twoBytes_iff {slice : List Char} :
    TwoBytes slice ↔ (∃ c, slice = [c] ∧ c.utf8Size = 2) ∨
      ∃ c d, slice = [c, d] ∧ c.utf8Size = 1 ∧ d.utf8Size = 1 := by
  unfold TwoBytes
  constructor
  · intro two
    match slice with
    | [] => cases two
    | [c] => exact .inl ⟨c, rfl, by simpa using two⟩
    | [c, d] =>
      have first := c.utf8Size_pos
      have second := d.utf8Size_pos
      have total : c.utf8Size + d.utf8Size = 2 := by simpa using two
      exact .inr ⟨c, d, rfl, by omega, by omega⟩
    | c :: d :: e :: rest =>
      have first := c.utf8Size_pos
      have second := d.utf8Size_pos
      have third := e.utf8Size_pos
      simp only [List.map_cons, List.sum_cons] at two
      omega
  · rintro (⟨c, rfl, size⟩ | ⟨c, d, rfl, first, second⟩)
    · simpa using size
    · simp [first, second]

theorem bytesOfSlices_of_two {c : Char} (size : c.utf8Size = 2) (rest : List Char) :
    bytesOfSlices (c :: rest) = (bytesOfSlices rest).map (none :: ·) := by
  cases rest with
  | nil => exact if_pos size
  | cons d rest =>
    rw [bytesOfSlices, if_pos size]
    cases bytesOfSlices (d :: rest) <;> rfl

theorem bytesOfSlices_of_one {c d : Char} (first : c.utf8Size = 1) (second : d.utf8Size = 1)
    (rest : List Char) :
    bytesOfSlices (c :: d :: rest) = (bytesOfSlices rest).map (fromStrRadix c d :: ·) := by
  rw [bytesOfSlices, if_neg (by omega), if_pos ⟨first, second⟩]
  cases bytesOfSlices rest <;> rfl

/-- Slices are read one by one. -/
theorem bytesOfSlices_flatten {slices : List (List Char)} (two : ∀ slice ∈ slices, TwoBytes slice) :
    bytesOfSlices slices.flatten = .ok (slices.map readSlice) := by
  induction slices with
  | nil => rfl
  | cons slice slices ih =>
    have rest := ih fun other member => two other (List.mem_cons_of_mem _ member)
    rcases twoBytes_iff.mp (two slice List.mem_cons_self) with
      ⟨c, rfl, size⟩ | ⟨c, d, rfl, first, second⟩
    · rw [List.flatten_cons, List.singleton_append, bytesOfSlices_of_two size, rest]
      rfl
    · rw [List.flatten_cons, List.cons_append, List.singleton_append,
        bytesOfSlices_of_one first second, rest]
      rfl

/-- A text that is read was cut into slices. -/
theorem exists_slices {text : List Char} {bytes : List (Option UInt8)}
    (read : bytesOfSlices text = .ok bytes) :
    ∃ slices : List (List Char), slices.flatten = text ∧ ∀ slice ∈ slices, TwoBytes slice := by
  induction text using bytesOfSlices.induct generalizing bytes with
  | case1 => exact ⟨[], rfl, nofun⟩
  | case2 c size =>
    exact ⟨[[c]], rfl, fun slice member => by
      rw [List.mem_singleton.mp member, twoBytes_iff]
      exact .inl ⟨c, rfl, size⟩⟩
  | case3 c size =>
    rw [bytesOfSlices, if_neg size] at read
    cases read
  | case4 c d rest size ih =>
    rw [bytesOfSlices, if_pos size] at read
    obtain ⟨more, hmore, -⟩ := bind_eq_ok_iff.mp read
    obtain ⟨slices, joined, two⟩ := ih hmore
    refine ⟨[c] :: slices, by rw [List.flatten_cons, joined]; rfl,
      List.forall_mem_cons.mpr ⟨?_, two⟩⟩
    exact twoBytes_iff.mpr (.inl ⟨c, rfl, size⟩)
  | case5 c d rest size both ih =>
    rw [bytesOfSlices, if_neg size, if_pos both] at read
    obtain ⟨more, hmore, -⟩ := bind_eq_ok_iff.mp read
    obtain ⟨slices, joined, two⟩ := ih hmore
    refine ⟨[c, d] :: slices, by rw [List.flatten_cons, joined]; rfl,
      List.forall_mem_cons.mpr ⟨?_, two⟩⟩
    exact twoBytes_iff.mpr (.inr ⟨c, d, rfl, both⟩)
  | case6 c d rest size both =>
    rw [bytesOfSlices, if_neg size, if_neg both] at read
    cases read

theorem exists_fromStr_iff {keySize : ℕ} {text : List Char} :
    (∃ key : BobKey keySize, BobKey.fromStr text = .ok key) ↔ Readable keySize text := by
  constructor
  · rintro ⟨key, read⟩
    obtain ⟨bytes, sliced, inside⟩ := bind_eq_ok_iff.mp read
    obtain ⟨slices, joined, two⟩ := exists_slices sliced
    refine ⟨slices, joined, two, fun slice member => ?_⟩
    rw [← joined, bytesOfSlices_flatten two] at sliced
    cases sliced
    split_ifs at inside with past
    rw [← List.map_drop, List.any_map, List.any_eq_true] at past
    exact Option.not_isSome_iff_eq_none.mp fun number => past ⟨slice, member, number⟩
  · rintro ⟨slices, rfl, two, past⟩
    have inside : ¬ ((slices.map readSlice).drop keySize).any (·.isSome) = true := by
      rw [← List.map_drop, List.any_map, List.any_eq_true]
      rintro ⟨slice, member, number⟩
      rw [Function.comp_apply, past slice member] at number
      cases number
    rw [BobKey.fromStr, bytesOfSlices_flatten two]
    dsimp only [bind, Except.bind]
    rw [if_neg inside]
    exact ⟨_, rfl⟩

namespace Error

variable {keySize : ℕ} {status : Status}

/-- Only a key can make the reading of a status panic. -/
theorem exists_ofName {name : String} (other : name ≠ "KeyNotFound") (rest : List (List Char)) :
    ∃ err : Error keySize, ofName status name rest = .ok err := by
  unfold ofName
  split
  case h_1 => exact absurd rfl other
  case h_4 => split <;> exact ⟨_, rfl⟩
  all_goals exact ⟨_, rfl⟩

theorem exists_ofStatus_iff :
    (∃ err : Error keySize, ofStatus status = .ok err) ↔ status.Readable keySize := by
  rw [ofStatus, Status.Readable]
  cases words isWhitespace status.message.toList with
  | nil => exact iff_of_true ⟨_, rfl⟩ fun word more same =>
      absurd same.symm (List.cons_ne_nil _ _)
  | cons name rest =>
    by_cases key : name = "KeyNotFound".toList
    · subst key
      dsimp only
      rw [String.ofList_toList]
      cases rest with
      | nil => exact iff_of_true ⟨_, rfl⟩ fun word more same =>
          absurd (List.cons.inj same).2.symm (List.cons_ne_nil _ _)
      | cons word more =>
        refine (exists_bind_eq_ok_iff fun key => ⟨_, rfl⟩).trans ?_
        rw [exists_fromStr_iff]
        constructor
        · intro readable other others same
          cases same
          exact readable
        · intro readable
          exact readable word more rfl
    · have other : String.ofList name ≠ "KeyNotFound" := fun same =>
        key (by rw [← same, String.toList_ofList])
      exact iff_of_true (exists_ofName other rest) fun word more same =>
        absurd (List.cons.inj same).1 key

end Error

end Bob

namespace Bob.Cluster

open Bob.Math

variable {keySize : ℕ}

/-! ## Flags -/

/-- What comes back from a call to check existence. -/
inductive PeerAnswer (keySize : ℕ)
  /-- There is no connection, and the call fails with this error. -/
  | unconnected (err : Error keySize)
  | status (status : Status)
  | exist (flags : List Bool)

/-- The client turns a status into an error. -/
def PeerAnswer.receive :
    PeerAnswer keySize → Except Panic (Except (Error keySize) (List Bool))
  | unconnected err => .ok (.error err)
  | status received => do
    let err ← Error.ofStatus received
    return .error err
  | exist flags => .ok (.ok flags)

/-- What is received from a node that is asked for keys. -/
abbrev Asking (keySize : ℕ) :=
  NodeName → List (BobKey keySize) → Except Panic (Except (Error keySize) (List Bool))

/-- The calls of `existOnRemoteNodes`, whatever is received. -/
def existOnPeers (ask : Asking keySize) (order : AnyOrder (ExistTask keySize))
    (keysByNode : Dict NodeName (Node × List (BobKey keySize))) :
    Except Panic (List (ExistTask keySize)) := do
  let calls ← keysByNode.values.mapM fun (node, _) =>
    match keysByNode.lookup node.name with
    | some (_, keys) => do
      let answer ← ask node.name keys
      return callNode node answer
    | none => .error ⟨"map is based on nodes from values"⟩
  return order.arrange calls

namespace Quorum

/-- The round of `collectRemoteExists`, whatever is received. -/
def collectPeerExists (ask : Asking keySize) (order : AnyOrder (ExistTask keySize))
    (result : List Bool) (keys : List (BobKey keySize)) (indexesByNode : NodeMaps) :
    Except Panic (List Bool) := do
  if indexesByNode.entries.isEmpty then
    return result
  let indexesByNode ← pruneMaps result indexesByNode
  let keysByNode ← collectKeys keys indexesByNode
  if keysByNode.entries.isEmpty then
    return result
  let remoteResults ← existOnPeers ask order keysByNode
  remoteResults.foldlM (updateFrom keysByNode indexesByNode) result

/-- Nodes that answer each key are peers of this kind. -/
theorem collectRemoteExists_eq_collectPeerExists (world : ExistWorld keySize)
    (order : AnyOrder (ExistTask keySize)) (result : List Bool) (keys : List (BobKey keySize))
    (maps : NodeMaps) :
    collectRemoteExists world order result keys maps =
      collectPeerExists (fun name keys => .ok ((world.normal name).batch keys)) order result keys
        maps := by
  have calls (keysByNode : Dict NodeName (Node × List (BobKey keySize))) :
      existOnRemoteNodes world order keysByNode =
        existOnPeers (fun name keys => .ok ((world.normal name).batch keys)) order keysByNode :=
    rfl
  simp only [collectRemoteExists, collectPeerExists, calls]

end Quorum

/-! ## What is promised -/

/-- The keys a node is asked for: those filed under it that are not found yet. -/
def Asked (result : List Bool) (keys : List (BobKey keySize)) (maps : NodeMaps) (name : NodeName)
    (nodeKeys : List (BobKey keySize)) : Prop :=
  ∃ node map, maps.lookup name = some (node, map) ∧
    (map.indexes.filter fun i => result[i]? = some false) ≠ [] ∧
    nodeKeys = (map.indexes.filter fun i => result[i]? = some false).filterMap (keys[·]?)

namespace PeerAnswer

/-- An answer with the wrong number of flags counts as no answer. -/
def heeded (count : ℕ) : PeerAnswer keySize → PeerAnswer keySize
  | exist flags =>
    if flags.length = count then exist flags else unconnected (.failed "wrong number of flags")
  | answer => answer

/-- The answer to a question for so many keys. -/
def Sound (count : ℕ) : PeerAnswer keySize → Prop
  | unconnected _ => True
  | status received => received.Readable keySize
  | exist flags => flags.length = count

end PeerAnswer

/-- What peers answer. -/
abbrev Peers (keySize : ℕ) := NodeName → List (BobKey keySize) → PeerAnswer keySize

/-- Each answer is received as it is. -/
def Peers.ask (peers : Peers keySize) : Asking keySize := fun name keys => (peers name keys).receive

/-- The peers, without answers that have the wrong number of flags. -/
def Peers.heeded (peers : Peers keySize) : Peers keySize := fun name keys =>
  (peers name keys).heeded keys.length

/-- A status gives an error, and a round returns what it returns without the answers that have
the wrong number of flags. -/
structure PeersHandled (status : Status) (peers : Peers keySize)
    (order : AnyOrder (ExistTask keySize)) (result : List Bool) (keys : List (BobKey keySize))
    (maps : NodeMaps) : Prop where
  converted : ∃ err : Error keySize, Error.ofStatus status = .ok err
  folded : ∃ after, Quorum.collectPeerExists peers.ask order result keys maps = .ok after ∧
    Quorum.collectPeerExists peers.heeded.ask order result keys maps = .ok after

/-! ## Rounds -/

/-- Answers that are sound are heeded as they are. -/
theorem PeerAnswer.heeded_of_sound {answer : PeerAnswer keySize} {count : ℕ}
    (sound : answer.Sound count) : answer.heeded count = answer := by
  cases answer with
  | unconnected err => rfl
  | status received => rfl
  | exist flags => exact if_pos sound

theorem IndexMap.eq_filterMap_of_collect {α : Type} {map : IndexMap} {data collected : List α}
    (done : map.collect data = .ok collected) : collected = map.indexes.filterMap (data[·]?) := by
  have pointwise := mapM_eq_ok_iff.mp done
  clear done
  generalize map.indexes = indexes at pointwise ⊢
  induction pointwise with
  | nil => rfl
  | @cons i item _ _ found _ ih =>
    cases hi : data[i]? with
    | none =>
      rw [hi] at found
      cases found
    | some value =>
      rw [hi] at found
      cases found
      rw [List.filterMap_cons, hi, ← ih]

namespace Quorum

variable {keys : List (BobKey keySize)} {maps pruned : NodeMaps} {result : List Bool}
  {keysByNode : Dict NodeName (Node × List (BobKey keySize))}
  {order : AnyOrder (ExistTask keySize)} {ask : Asking keySize} {after : List Bool}

/-- The flag at a position of the batch. -/
def flagAt (result : List Bool) (i : ℕ) : Bool := result[i]?.getD false

theorem flags_flagAt (result : List Bool) : flags result.length (flagAt result) = result := by
  apply List.ext_getElem?
  intro i
  by_cases below : i < result.length
  · rw [getElem?_flags below, flagAt, List.getElem?_eq_getElem below, Option.getD_some]
  · rw [List.getElem?_eq_none (by rw [length_flags]; omega),
      List.getElem?_eq_none (Nat.not_lt.mp below)]

/-- The sub-batches of a round are what the nodes are asked for. -/
theorem asked_iff (prepared : Prepared maps keys (flagAt result) pruned keysByNode)
    (len : result.length = keys.length) {name : NodeName} {nodeKeys : List (BobKey keySize)} :
    Asked result keys maps name nodeKeys ↔
      ∃ node, keysByNode.lookup name = some (node, nodeKeys) := by
  have missing {node : Node} {map : IndexMap} (stored : maps.lookup name = some (node, map)) :
      (map.indexes.filter fun i => !flagAt result i) =
        map.indexes.filter fun i => result[i]? = some false := by
    refine List.filter_congr fun i member => ?_
    have below : i < result.length := len ▸ (prepared.filed _ _ _ stored).2 i member
    rw [flagAt, List.getElem?_eq_getElem below]
    cases result[i] <;> rfl
  constructor
  · rintro ⟨node, map, stored, some, rfl⟩
    have kept : pruned.lookup name =
        .some (node, ⟨map.indexes.filter fun i => !flagAt result i⟩) := by
      rw [prepared.lookup_pruned, stored]
      rfl
    have within := (prepared.filed_pruned _ _ _ kept).2
    obtain ⟨collected, done, -⟩ := IndexMap.exists_collect within
    refine ⟨node, (prepared.lookup_keys _ _ _).mpr ⟨_, kept, ?_, ?_⟩⟩
    · rw [IndexMap.isEmpty, List.isEmpty_eq_false_iff, missing stored]
      exact some
    · rw [done, IndexMap.eq_filterMap_of_collect done, missing stored]
  · rintro ⟨node, found⟩
    obtain ⟨map, kept, some, done⟩ := (prepared.lookup_keys _ _ _).mp found
    obtain ⟨original, hstored, rfl⟩ := prepared.exists_original kept
    refine ⟨node, original, hstored, ?_, ?_⟩
    · rw [← missing hstored]
      exact List.isEmpty_eq_false_iff.mp some
    · rw [IndexMap.eq_filterMap_of_collect done, missing hstored]

/-- A round asks the nodes and joins what is received, also if there is no one to ask. -/
theorem collectPeerExists_eq (hpruned : pruneMaps result maps = .ok pruned)
    (hkeys : collectKeys keys pruned = .ok keysByNode)
    (prepared : Prepared maps keys (flagAt result) pruned keysByNode) :
    collectPeerExists ask order result keys maps =
      existOnPeers ask order keysByNode >>= fun received =>
        received.foldlM (updateFrom keysByNode pruned) result := by
  have idle (none : keysByNode.entries = []) : (existOnPeers ask order keysByNode >>=
      fun received => received.foldlM (updateFrom keysByNode pruned) result) = .ok result := by
    have nobody : order.arrange [] = [] := List.perm_nil.mp (order.perm [])
    rw [existOnPeers, Dict.values, none]
    change List.foldlM _ _ (order.arrange []) = _
    rw [nobody]
    rfl
  unfold collectPeerExists
  split_ifs with empty
  · refine (idle (List.eq_nil_iff_forall_not_mem.mpr fun entry member => ?_)).symm
    obtain ⟨map, kept, -⟩ := (prepared.lookup_keys _ _ _).mp (Dict.mem_entries_iff.mp member)
    obtain ⟨original, hstored, -⟩ := prepared.exists_original kept
    have filed := Dict.mem_entries_iff.mpr hstored
    rw [List.isEmpty_iff.mp empty] at filed
    cases filed
  · rw [hpruned]
    simp only [bind, Except.bind, hkeys]
    split_ifs with none
    · exact (idle (List.isEmpty_iff.mp none)).symm
    · rfl

/-- A node is asked for the sub-batch that is stored with it. -/
theorem call_eq_ok_iff (prepared : Prepared maps keys (flagAt result) pruned keysByNode)
    {value : Node × List (BobKey keySize)} (hvalue : value ∈ keysByNode.values)
    {task : ExistTask keySize} :
    (match keysByNode.lookup value.1.name with
      | some (_, keys) => do
        let answer ← ask value.1.name keys
        return callNode value.1 answer
      | none => .error (⟨"map is based on nodes from values"⟩ : Panic)) = .ok task ↔
      ∃ answer, ask value.1.name value.2 = .ok answer ∧ callNode value.1 answer = task := by
  rw [(prepared.value_spec hvalue).1]
  refine bind_eq_ok_iff.trans (exists_congr fun answer => and_congr_right fun _ => ?_)
  exact ⟨Except.ok.inj, congrArg Except.ok⟩

/-- The flags of a node are joined just when there is one for each key of its sub-batch. -/
theorem updateFrom_spec (prepared : Prepared maps keys (flagAt result) pruned keysByNode)
    {value : Node × List (BobKey keySize)} (hvalue : value ∈ keysByNode.values)
    (answered : List Bool) :
    (answered.length = value.2.length → ∀ flag, ∃ flag',
      updateFrom keysByNode pruned (flags keys.length flag) (.ok ⟨value.1.name, answered⟩) =
        .ok (flags keys.length flag')) ∧
    ∀ before after,
      updateFrom keysByNode pruned before (.ok ⟨value.1.name, answered⟩) = .ok after →
        answered.length = value.2.length := by
  obtain ⟨stored, map, hmap, within, same⟩ := prepared.value_spec hvalue
  have len : value.2.length = map.indexes.length := by
    have lengths := congrArg List.length (same fun _ => true)
    rwa [List.length_map, List.length_map] at lengths
  simp only [updateFrom, stored, hmap, len]
  constructor
  · intro fits flag
    exact ⟨_, IndexMap.updateExistence_flags within fits.symm⟩
  · intro before after done
    rw [IndexMap.updateExistence] at done
    split_ifs at done with differs
    exact (not_not.mp differs).symm

/-- What is received from a node: a failure, or one flag for each key. -/
def Fits (ask : Asking keySize) (name : NodeName) (nodeKeys : List (BobKey keySize)) : Prop :=
  ∃ received, ask name nodeKeys = .ok received ∧
    ∀ answered, received = .ok answered → answered.length = nodeKeys.length

/-- In a round that returns, everything received fits. -/
theorem fits_of_joined (prepared : Prepared maps keys (flagAt result) pruned keysByNode)
    (done : (existOnPeers ask order keysByNode >>= fun received =>
      received.foldlM (updateFrom keysByNode pruned) result) = .ok after)
    {value : Node × List (BobKey keySize)} (hvalue : value ∈ keysByNode.values) :
    Fits ask value.1.name value.2 := by
  obtain ⟨tasks, hasked, joined⟩ := bind_eq_ok_iff.mp done
  obtain ⟨calls, hcalls, arranged⟩ := bind_eq_ok_iff.mp hasked
  cases arranged
  obtain ⟨task, htask, called⟩ := exists_mem_of_forall₂ (mapM_eq_ok_iff.mp hcalls).flip hvalue
  obtain ⟨received, hreceived, rfl⟩ := (call_eq_ok_iff prepared hvalue).mp called
  refine ⟨received, hreceived, ?_⟩
  rintro answered rfl
  obtain ⟨before, next, turn⟩ := exists_turn_eq_ok joined (AnyOrder.mem_arrange.mpr htask)
  exact (updateFrom_spec prepared hvalue answered).2 before next turn

/-- If everything received fits, the round returns. -/
theorem exists_joined (prepared : Prepared maps keys (flagAt result) pruned keysByNode)
    (len : result.length = keys.length)
    (fits : ∀ value ∈ keysByNode.values, Fits ask value.1.name value.2) :
    ∃ after, (existOnPeers ask order keysByNode >>= fun received =>
      received.foldlM (updateFrom keysByNode pruned) result) = .ok after := by
  obtain ⟨calls, hcalls⟩ := exists_mapM_eq_ok fun value hvalue =>
    let ⟨received, hreceived, _⟩ := fits value hvalue
    ⟨_, (@call_eq_ok_iff _ _ _ _ _ _ ask prepared value hvalue _).mpr ⟨received, hreceived, rfl⟩⟩
  have asked : existOnPeers ask order keysByNode = .ok (order.arrange calls) :=
    bind_eq_ok_iff.mpr ⟨calls, hcalls, rfl⟩
  rw [asked]
  -- the flags stay those of the batch, so their number is never lost
  refine exists_foldlM_eq_ok (I := fun acc => ∃ flag, acc = flags keys.length flag) ?_
    ⟨flagAt result, by rw [← len, flags_flagAt]⟩
  rintro task member _ ⟨flag, rfl⟩
  obtain ⟨value, hvalue, called⟩ :=
    exists_mem_of_forall₂ (mapM_eq_ok_iff.mp hcalls) (AnyOrder.mem_arrange.mp member)
  obtain ⟨received, hreceived, rfl⟩ := (call_eq_ok_iff prepared hvalue).mp called
  obtain ⟨other, again, right⟩ := fits value hvalue
  cases Except.ok.inj (hreceived.symm.trans again)
  cases received with
  | error err => exact ⟨_, rfl, flag, rfl⟩
  | ok answered =>
    obtain ⟨flag', joined⟩ := (updateFrom_spec prepared hvalue answered).1 (right _ rfl) flag
    exact ⟨_, joined, flag', rfl⟩

/-- A round returns just when what is received from each node that is asked fits. -/
theorem exists_collectPeerExists_iff (filed : Filed maps keys.length)
    (len : result.length = keys.length) :
    (∃ after, collectPeerExists ask order result keys maps = .ok after) ↔
      ∀ name nodeKeys, Asked result keys maps name nodeKeys → Fits ask name nodeKeys := by
  obtain ⟨pruned, keysByNode, hpruned, hkeys, prepared⟩ := exists_prepared filed (flagAt result)
  rw [← len, flags_flagAt] at hpruned
  rw [collectPeerExists_eq hpruned hkeys prepared]
  constructor
  · rintro ⟨after, done⟩ name nodeKeys asked
    obtain ⟨node, found⟩ := (asked_iff prepared len).mp asked
    have hvalue : (node, nodeKeys) ∈ keysByNode.values :=
      List.mem_map.mpr ⟨_, Dict.mem_entries_iff.mpr found, rfl⟩
    obtain ⟨map, kept, -, -⟩ := (prepared.lookup_keys _ _ _).mp found
    have named : node.name = name := (prepared.filed_pruned _ _ _ kept).1
    subst named
    exact fits_of_joined prepared done hvalue
  · intro fits
    refine exists_joined prepared len fun value hvalue => fits _ _ ?_
    exact (asked_iff prepared len).mpr ⟨value.1, (prepared.value_spec hvalue).1⟩

/-- Only what is received from the nodes that are asked matters. -/
theorem collectPeerExists_congr {ask' : Asking keySize} (filed : Filed maps keys.length)
    (len : result.length = keys.length)
    (agree : ∀ name nodeKeys, Asked result keys maps name nodeKeys →
      ask name nodeKeys = ask' name nodeKeys) :
    collectPeerExists ask order result keys maps =
      collectPeerExists ask' order result keys maps := by
  obtain ⟨pruned, keysByNode, hpruned, hkeys, prepared⟩ := exists_prepared filed (flagAt result)
  rw [← len, flags_flagAt] at hpruned
  rw [collectPeerExists_eq hpruned hkeys prepared, collectPeerExists_eq hpruned hkeys prepared,
    existOnPeers, existOnPeers]
  congr 2
  refine mapM_congr fun value hvalue => ?_
  have stored := (prepared.value_spec hvalue).1
  obtain ⟨node, nodeKeys⟩ := value
  dsimp only at stored ⊢
  rw [stored]
  dsimp only
  rw [agree _ _ ((asked_iff prepared len).mpr ⟨_, stored⟩)]

end Quorum

theorem PeerAnswer.sound_iff {answer : PeerAnswer keySize} {count : ℕ} :
    answer.Sound count ↔ ∃ received, answer.receive = .ok received ∧
      ∀ answered, received = .ok answered → answered.length = count := by
  cases answer with
  | unconnected err => exact iff_of_true trivial ⟨_, rfl, nofun⟩
  | exist flags =>
    constructor
    · intro fits
      exact ⟨_, rfl, fun answered same => Except.ok.inj same ▸ fits⟩
    · rintro ⟨received, same, fits⟩
      cases same
      exact fits flags rfl
  | status received =>
    refine Error.exists_ofStatus_iff.symm.trans ?_
    constructor
    · rintro ⟨err, converted⟩
      exact ⟨.error err, bind_eq_ok_iff.mpr ⟨err, converted, rfl⟩, nofun⟩
    · rintro ⟨_, done, -⟩
      obtain ⟨err, converted, -⟩ := bind_eq_ok_iff.mp done
      exact ⟨err, converted⟩

/-- Peers are handled just when the key in a status is readable, and each node that is asked
answers with a status of this kind or with one flag for each key. -/
theorem peersHandled_iff (status : Status) (peers : Peers keySize)
    (order : AnyOrder (ExistTask keySize)) (result : List Bool) (keys : List (BobKey keySize))
    (maps : NodeMaps) (filed : Quorum.Filed maps keys.length)
    (len : result.length = keys.length) :
    PeersHandled status peers order result keys maps ↔
      status.Readable keySize ∧ ∀ name nodeKeys, Asked result keys maps name nodeKeys →
        (peers name nodeKeys).Sound nodeKeys.length := by
  constructor
  · rintro ⟨converted, after, done, -⟩
    refine ⟨Error.exists_ofStatus_iff.mp converted, fun name nodeKeys asked => ?_⟩
    exact PeerAnswer.sound_iff.mpr
      ((Quorum.exists_collectPeerExists_iff filed len).mp ⟨after, done⟩ name nodeKeys asked)
  · rintro ⟨readable, sound⟩
    refine ⟨Error.exists_ofStatus_iff.mpr readable, ?_⟩
    obtain ⟨after, done⟩ := (@Quorum.exists_collectPeerExists_iff _ _ _ _ order peers.ask filed
      len).mpr fun name nodeKeys asked => PeerAnswer.sound_iff.mp (sound name nodeKeys asked)
    refine ⟨after, done, (Quorum.collectPeerExists_congr filed len ?_).trans done⟩
    intro name nodeKeys asked
    rw [Peers.ask, Peers.ask, Peers.heeded, PeerAnswer.heeded_of_sound (sound _ _ asked)]

/-! ### One peer and one key -/

def onePeer : Node := ⟨0, ⟨"peer"⟩, "127.0.0.1:20000"⟩

/-- The only key of a batch is filed under the peer. -/
def onePeerMaps : NodeMaps := NodeMaps.pushTo ∅ onePeer 0

private theorem lookup_onePeerMaps {name : NodeName} {node : Node} {map : IndexMap}
    (found : onePeerMaps.lookup name = some (node, map)) : node.name = name ∧ map = ⟨[0]⟩ := by
  have stored : onePeerMaps.lookup onePeer.name = some (onePeer, ⟨[0]⟩) := by decide +kernel
  by_cases same : name = onePeer.name
  · subst same
    cases found.symm.trans stored
    exact ⟨rfl, rfl⟩
  · rw [onePeerMaps, NodeMaps.pushTo, AList.lookup_insert_ne same] at found
    cases found

private theorem filed_onePeerMaps : Quorum.Filed onePeerMaps 1 := by
  intro name node map found
  obtain ⟨named, rfl⟩ := lookup_onePeerMaps found
  exact ⟨named, fun i member => by rw [List.mem_singleton.mp member]; exact Nat.one_pos⟩

private theorem readable_keyNotFound_0A :
    (⟨.notFound, "KeyNotFound 0A"⟩ : Status).Readable 1 := by
  intro word more same
  have cut : words isWhitespace "KeyNotFound 0A".toList =
      ["KeyNotFound".toList, ['0', 'A']] := by decide +kernel
  cases cut.symm.trans same
  exact ⟨[['0', 'A']], rfl, by simp [TwoBytes]; decide, nofun⟩

/-- A status with a readable key, and an answer with one flag, are handled. -/
theorem peersHandled_of_one_flag :
    PeersHandled ⟨.notFound, "KeyNotFound 0A"⟩ (fun _ _ => .exist [true]) .launched [false]
      [(⟨#v[7]⟩ : BobKey 1)] onePeerMaps := by
  refine (peersHandled_iff _ _ .launched [false] [⟨#v[7]⟩] onePeerMaps filed_onePeerMaps rfl).mpr
    ⟨readable_keyNotFound_0A, ?_⟩
  rintro name nodeKeys ⟨node, map, found, -, rfl⟩
  obtain ⟨-, rfl⟩ := lookup_onePeerMaps found
  rfl

/-- A key of one digit, and an answer without flags, abort the node. -/
theorem not_peersHandled_of_short_answers :
    (Error.ofStatus ⟨.notFound, "KeyNotFound A"⟩ : Except Panic (Error 1)) =
      .error ⟨"byte index is out of bounds or not a char boundary"⟩ ∧
    Quorum.collectPeerExists (Peers.ask fun _ _ => .exist []) .launched [false]
      [(⟨#v[7]⟩ : BobKey 1)] onePeerMaps =
      .error ⟨"assertion failed: self.indexes.len() == mapped.len()"⟩ ∧
    ¬ PeersHandled ⟨.notFound, "KeyNotFound A"⟩ (fun _ _ => .exist []) .launched [false]
      [(⟨#v[7]⟩ : BobKey 1)] onePeerMaps := by
  have converted : (Error.ofStatus ⟨.notFound, "KeyNotFound A"⟩ : Except Panic (Error 1)) =
      .error ⟨"byte index is out of bounds or not a char boundary"⟩ := by decide +kernel
  refine ⟨converted, by decide +kernel, fun handled => ?_⟩
  obtain ⟨err, returned⟩ := handled.converted
  rw [converted] at returned
  cases returned

end Bob.Cluster

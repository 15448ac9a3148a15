/-
# A group is a last-writer-wins register

Seen from outside, a group remembers for each key the write with the greatest
timestamp: it has the value if that write is a put, and nothing if it is a delete.
The order in which the writes came, the partitions they went to and the order in
which a read visits the partitions do not show.
-/

import Bob.Backend.History

namespace Bob.Backend

open Bob.Math Bob.Configs

variable {keySize : ℕ} {engine : StorageEngine keySize}

/-! ## The register -/

section Register

/-- The records of the writes to a key. -/
def recordsOf (ops : List (GroupOp keySize)) (key : BobKey keySize) : List Record :=
  (ops.filter fun op => op.key = key).map (·.record)

/-- The record of the last write to a key, by timestamp. -/
def lastWrite (ops : List (GroupOp keySize)) (key : BobKey keySize) : Option Record :=
  (recordsOf ops key).argmax Record.timestamp

/-- What the register of a key contains. -/
def register (ops : List (GroupOp keySize)) (key : BobKey keySize) : Option BobData :=
  (lastWrite ops key).bind Record.value?

/-- No two writes to a key have the same timestamp. -/
def DistinctTimestamps (ops : List (GroupOp keySize)) : Prop :=
  (ops.map fun op => (op.key, op.timestamp)).Nodup

variable {ops : List (GroupOp keySize)} {key : BobKey keySize}

theorem mem_recordsOf_iff {r : Record} :
    r ∈ recordsOf ops key ↔ ∃ op ∈ ops, op.key = key ∧ op.record = r := by
  simp [recordsOf, and_assoc]

/-- With distinct timestamps, a record that none is newer than is the last one. -/
theorem lastWrite_eq_some (distinct : DistinctTimestamps ops) {r : Record}
    (member : r ∈ recordsOf ops key)
    (newest : ∀ other ∈ recordsOf ops key, other.timestamp ≤ r.timestamp) :
    lastWrite ops key = some r := by
  cases found : lastWrite ops key with
  | none =>
    rw [List.argmax_eq_none.mp found] at member
    cases member
  | some last =>
    -- Both are newest, so their writes have one key and one timestamp.
    have same : last.timestamp = r.timestamp :=
      le_antisymm (newest last (List.argmax_mem found)) (List.le_of_mem_argmax member found)
    obtain ⟨op, hop, hkey, rfl⟩ := mem_recordsOf_iff.mp member
    obtain ⟨op', hop', hkey', rfl⟩ := mem_recordsOf_iff.mp (List.argmax_mem found)
    have equal : op' = op := by
      apply List.inj_on_of_nodup_map distinct hop' hop
      exact Prod.ext (hkey'.trans hkey.symm) same
    rw [equal]

end Register

/-! ## The group refines the register -/

namespace Group

variable {lawful : engine.Lawful} {g : Group engine} {periods : List Duration}
  {ops : List (GroupOp keySize)} {key : BobKey keySize}

theorem newestIn_eq_none {holder : Holder engine}
    (missing : newestIn lawful key holder = none) (r : Record) : ¬ holder.Has lawful key r := by
  rintro ⟨storage, hstorage, holds⟩
  rw [newestIn, hstorage, Option.bind_some] at missing
  exact lawful.newest_none missing r holds

theorem newestIn_eq_some {holder : Holder engine} {r : Record}
    (found : newestIn lawful key holder = some r) :
    holder.Has lawful key r ∧
      ∀ other, holder.Has lawful key other → other.timestamp ≤ r.timestamp := by
  obtain ⟨storage, hstorage, hnewest⟩ := Option.bind_eq_some_iff.mp found
  obtain ⟨holds, newest⟩ := lawful.newest_some hnewest
  refine ⟨⟨storage, hstorage, holds⟩, ?_⟩
  rintro other ⟨storage', hstorage', holds'⟩
  cases hstorage.symm.trans hstorage'
  exact newest other holds'

/-- The filters let every partition with the key pass. -/
theorem mem_possibleRev_of_has {holder : Holder engine} {r : Record} (member : holder ∈ g.holders)
    (has : holder.Has lawful key r) : holder ∈ possibleRev (g.mayContain key) g.holders 0 := by
  obtain ⟨storage, hstorage, holds⟩ := has
  obtain ⟨i, hi⟩ := List.getElem?_of_mem member
  refine mem_possibleRev.mpr ⟨i, hi, lawful.mayContain_of_holds ?_ holds⟩
  rw [List.getElem?_map, hi, Option.map_some, hstorage]

/-- A record of the history is in a partition that a read can visit, and the newest
record there is of the history and not older. -/
theorem Represents.exists_source (represents : g.Represents lawful periods ops) {r : Record}
    (member : r ∈ recordsOf ops key) :
    ∃ holder ∈ possibleRev (g.mayContain key) g.holders 0, ∃ newest,
      newestIn lawful key holder = some newest ∧ r.timestamp ≤ newest.timestamp ∧
      NearStart periods holder.startTimestamp r.timestamp := by
  obtain ⟨op, hop, rfl, rfl⟩ := mem_recordsOf_iff.mp member
  obtain ⟨holder, hholder, has, near⟩ := represents.held op hop
  refine ⟨holder, mem_possibleRev_of_has hholder has, ?_⟩
  cases found : newestIn lawful op.key holder with
  | none => exact absurd has (newestIn_eq_none found _)
  | some newest => exact ⟨newest, rfl, (newestIn_eq_some found).2 _ has, near⟩

/-- What a partition has is of the history. -/
theorem Represents.mem_recordsOf (represents : g.Represents lawful periods ops)
    {holder : Holder engine} (visited : holder ∈ possibleRev (g.mayContain key) g.holders 0)
    {r : Record} (found : newestIn lawful key holder = some r) : r ∈ recordsOf ops key := by
  exact mem_recordsOf_iff.mpr (represents.sound holder (mem_holders_of_possible visited) key r
    (newestIn_eq_some found).1)

/-- Without a step, a read settles on the last write. -/
theorem Represents.best_eq (represents : g.Represents lawful periods ops)
    (noStep : g.safeTimestampStep = none) (distinct : DistinctTimestamps ops) :
    g.best lawful key = lastWrite ops key := by
  have asksAll : g.asks = fun _ _ => true := by
    funext holder max
    simp only [asks, shouldCheckHolder, noStep]
  cases found : g.best lawful key with
  | none =>
    have missing := searchNewest_eq_none_iff.mp found
    refine (List.argmax_eq_none.mpr (List.eq_nil_iff_forall_not_mem.mpr fun r member => ?_)).symm
    obtain ⟨holder, visited, newest, hnewest, -⟩ := represents.exists_source member
    rw [missing holder visited] at hnewest
    cases hnewest
  | some r =>
    unfold best at found
    rw [asksAll] at found
    obtain ⟨⟨holder, visited, looked⟩, newest⟩ := isNewest_of_searchNewest found
    refine (lastWrite_eq_some distinct (represents.mem_recordsOf visited looked) ?_).symm
    -- Every record of the history is seen, or something newer in its partition is.
    intro other member
    obtain ⟨source, hsource, top, htop, le, -⟩ := represents.exists_source member
    exact le.trans (newest source hsource top htop)

end Group

/-- Whatever the order of its writes and however often it was restarted, a group that
reads without a step answers as the last-writer-wins register of its writes. -/
theorem History.group_is_last_writer_wins (lawful : engine.Lawful) {periods : List Duration}
    {ops : List (GroupOp keySize)} {g : Group engine} (history : History periods ops g)
    (noStep : g.safeTimestampStep = none) (distinct : DistinctTimestamps ops) :
    (∀ key, g.get key = (match register ops key with
      | some data => .ok data
      | none => .error (.keyNotFound key), g)) ∧
    ∀ keys, g.exist keys = .ok (keys.map fun key => (register ops key).isSome) := by
  have represents := history.represents lawful
  constructor
  · intro key
    obtain ⟨hasError, result, clean⟩ := @Group.get_spec _ _ lawful g key represents.unlocked
    rw [result, represents.best_eq noStep distinct, clean represents.running]
    rfl
  · intro keys
    rw [Group.exist_eq_best lawful represents.unlocked]
    refine congrArg Except.ok (List.map_congr_left fun key _ => ?_)
    rw [represents.best_eq noStep distinct]
    rfl

/-- A new group with partitions of a day. -/
def dayGroup : Group (logEngine 8) :=
  .new ⟨.ofDays 1, none, none, fun _ => true⟩ ⟨0⟩ ⟨"alpha"⟩ ⟨"disk1"⟩

def sampleKey : BobKey 8 := ⟨Vector.replicate 8 1⟩

def sampleData (byte : UInt8) (timestamp : UInt64) : BobData := ⟨[byte], ⟨timestamp⟩⟩

/-- A put of the third day, then a put of the first and a delete of the second. -/
def lateWrites : List (GroupOp 8) :=
  [.put sampleKey (sampleData 2 200000), .put sampleKey (sampleData 1 100),
    .delete sampleKey ⟨150000⟩]

/-- The writes that come late do not win. -/
theorem first_write_is_last : ∃ g : Group (logEngine 8),
    History [.ofDays 1] lateWrites g ∧ g.safeTimestampStep = none ∧
      DistinctTimestamps lateWrites ∧
      (g.get sampleKey).1 = .ok (sampleData 2 200000) ∧
      g.exist [sampleKey, ⟨Vector.replicate 8 2⟩] = .ok [true, false] := by
  obtain ⟨g, performed, noStep⟩ : ∃ g,
      lateWrites.foldlM (fun g op => GroupOp.perform op .default g) dayGroup = some g ∧
        g.safeTimestampStep = none := by
    apply Option.map_eq_some_iff.mp
    rfl
  have history : History [.ofDays 1] lateWrites g := (History.new ..).writes performed
  have distinct : DistinctTimestamps lateWrites := by
    unfold DistinctTimestamps
    decide
  obtain ⟨gets, exist⟩ := history.group_is_last_writer_wins (logEngine.lawful 8) noStep distinct
  exact ⟨g, history, noStep, distinct, congrArg Prod.fst (gets sampleKey), exist _⟩

end Bob.Backend

/-
# Groups of partitions

The records of a vdisk on a disk, or those of another node in the alien store,
form a group. Its partitions cover intervals of time, and each has a storage of
its own. A write goes to the partition that covers its timestamp, which may have
to be created. A delete marks the key in that partition and in all older ones
that have it. A read asks the partitions from the last to the first and keeps
what is newest.

Calls to the storage can fail. A failed write or read may reopen the storage of
its partition, so a read can change the group too.
-/

import Bob.Backend.Storage
import Bob.Backend.Partition

namespace Bob.Backend

open Bob.Configs Bob.Math

variable {keySize : ℕ} {engine : StorageEngine keySize}

/-- Settings of the backend that groups and disk controllers read. -/
structure Settings where
  timestampPeriod : Duration
  skipHoldersByTimestampStepWhenReading : Option Duration
  alienDisk : Option DiskName
  /-- The timestamps that the calendar of the `chrono` package covers. -/
  representable : ℕ → Bool

def Settings.timestampPeriodAsSecs (settings : Settings) : ℕ := settings.timestampPeriod.asSecs

/-! ## Partitions -/

/-- A partition: the interval it covers, and its storage unless that is starting. -/
structure Holder (engine : StorageEngine keySize) where
  startTimestamp : ℕ
  endTimestamp : ℕ
  storage : Option engine.Storage

namespace Holder

def getsIntoInterval (holder : Holder engine) (timestamp : ℕ) : Bool :=
  holder.startTimestamp ≤ timestamp && timestamp < holder.endTimestamp

def write (holder : Holder engine) (key : BobKey keySize) (data : BobData) :
    Except (Error keySize) (Holder engine) :=
  match holder.storage with
  | none => .error .vdiskIsNotReady
  | some storage =>
    match engine.write storage key data with
    | .ok written => .ok { holder with storage := some written }
    | .error e => .error e.onWrite

def read (holder : Holder engine) (key : BobKey keySize) :
    Except (Error keySize) (ReadResult BobData) :=
  match holder.storage with
  | none => .error .vdiskIsNotReady
  | some storage => (engine.read storage key).mapError PearlError.onAccess

def exist (holder : Holder engine) (key : BobKey keySize) :
    Except (Error keySize) (ReadResult ℕ) :=
  match holder.storage with
  | none => .error .vdiskIsNotReady
  | some storage => (engine.contains storage key).mapError PearlError.onAccess

def delete (holder : Holder engine) (key : BobKey keySize) (bobMeta : BobMeta)
    (forceDelete : Bool) : Except (Error keySize) (Holder engine × ℕ) :=
  match holder.storage with
  | none => .error .vdiskIsNotReady
  | some storage =>
    match engine.delete storage key bobMeta.timestamp.toNat (!forceDelete) with
    | .ok (marked, count) => .ok ({ holder with storage := some marked }, count)
    | .error e => .error e.onAccess

/-- Close the storage and open its directory again. -/
def tryReinit (holder : Holder engine) : Holder engine :=
  { holder with storage := (engine.openDir holder.storage.toList).toOption }

/-- Open the storage of a new partition over what its directory has. -/
def prepareStorage (holder : Holder engine) (onDisk : List engine.Storage) :
    Except (Error keySize) (Holder engine) :=
  match engine.openDir onDisk with
  | .ok storage => .ok { holder with storage := some storage }
  | .error e => .error e.toError

end Holder

/-! ## Groups -/

structure Group (engine : StorageEngine keySize) where
  holders : List (Holder engine)
  /-- The group is being mounted again. -/
  reinitLock : Bool
  settings : Settings
  vdiskId : VDiskId
  nodeName : NodeName
  diskName : DiskName
  safeTimestampStep : Option ℕ

namespace Group

def new (settings : Settings) (vdiskId : VDiskId) (nodeName : NodeName) (diskName : DiskName) :
    Group engine where
  holders := []
  reinitLock := false
  settings := settings
  vdiskId := vdiskId
  nodeName := nodeName
  diskName := diskName
  safeTimestampStep := none

def setHolder (g : Group engine) (index : ℕ) (holder : Holder engine) : Group engine :=
  { g with holders := g.holders.set index holder }

/-- Visit the partitions that pass the filter from the last to the first. A visit
may replace the partition. -/
def visitRev {σ : Type} (possible : ℕ → Holder engine → Bool)
    (visit : σ → Holder engine → σ × Holder engine) (init : σ) :
    List (Holder engine) → ℕ → σ × List (Holder engine)
  | [], _ => (init, [])
  | holder :: rest, index =>
    let (seen, rest) := visitRev possible visit init rest (index + 1)
    if possible index holder then
      let (seen, holder) := visit seen holder
      (seen, holder :: rest)
    else (seen, holder :: rest)

/-- The filter of `iter_possible_childs_rev`. -/
def mayContain (g : Group engine) (key : BobKey keySize) (index : ℕ) (_ : Holder engine) : Bool :=
  engine.mayContain (g.holders.map (·.storage)) key index

/-! ### Writing -/

/-- The partition that covers a timestamp; of several, the one that starts last. -/
def findActualHolder (holders : List (Holder engine)) (dataTimestamp : ℕ) :
    Except (Error keySize) (ℕ × Holder engine) :=
  match holders.zipIdx.filter fun entry => entry.1.getsIntoInterval dataTimestamp with
  | [] => .error (.failed s!"cannot find actual pearl folder. meta: {dataTimestamp}")
  | first :: rest =>
    -- of equal starts the first is kept
    let max := rest.foldl (fun max elem =>
      if elem.1.startTimestamp > max.1.startTimestamp then elem else max) first
    .ok (max.2, max.1)

private theorem mem_foldl_max (first : Holder engine × ℕ) (rest : List (Holder engine × ℕ)) :
    rest.foldl (fun max elem =>
      if elem.1.startTimestamp > max.1.startTimestamp then elem else max) first ∈
        first :: rest := by
  induction rest generalizing first with
  | nil => exact List.mem_cons_self
  | cons next rest ih =>
    rw [List.foldl_cons]
    split_ifs
    · exact List.mem_cons_of_mem _ (ih next)
    · rcases List.mem_cons.mp (ih first) with same | later
      · rw [same]
        exact List.mem_cons_self
      · exact List.mem_cons_of_mem _ (List.mem_cons_of_mem _ later)

/-- The partition that is found covers the timestamp. -/
theorem findActualHolder_spec {holders : List (Holder engine)} {timestamp i : ℕ}
    {holder : Holder engine} (found : findActualHolder holders timestamp = .ok (i, holder)) :
    holders[i]? = some holder ∧ holder.startTimestamp ≤ timestamp ∧
      timestamp < holder.endTimestamp := by
  unfold findActualHolder at found
  split at found
  · cases found
  · rename_i first rest covering
    have member := mem_foldl_max first rest
    rw [← covering, List.mem_filter] at member
    cases found
    refine ⟨List.mem_zipIdx_iff_getElem?.mp member.1, ?_⟩
    simpa [Holder.getsIntoInterval] using member.2

/-- The maximum starts last, and of equal starts it comes first. -/
private theorem foldl_max_spec (first : Holder engine × ℕ) (rest : List (Holder engine × ℕ))
    (ordered : (first :: rest).Pairwise (·.2 < ·.2)) {max : Holder engine × ℕ}
    (folded : rest.foldl (fun max elem =>
      if elem.1.startTimestamp > max.1.startTimestamp then elem else max) first = max) :
    ∀ entry ∈ first :: rest, entry.1.startTimestamp < max.1.startTimestamp ∨
      entry.1.startTimestamp = max.1.startTimestamp ∧ max.2 ≤ entry.2 := by
  induction rest generalizing first with
  | nil =>
    intro entry here
    cases folded
    rw [List.mem_singleton.mp here]
    exact .inr ⟨rfl, le_rfl⟩
  | cons next rest ih =>
    obtain ⟨before, later⟩ := List.pairwise_cons.mp ordered
    obtain ⟨lt, behind⟩ := List.forall_mem_cons.mp before
    rw [List.foldl_cons] at folded
    split_ifs at folded with greater
    · have kept := ih next later folded
      refine List.forall_mem_cons.mpr ⟨?_, kept⟩
      rcases kept next List.mem_cons_self with less | ⟨same, -⟩ <;> omega
    · have kept := ih first (List.pairwise_cons.mpr ⟨behind, later.tail⟩) folded
      obtain ⟨here, others⟩ := List.forall_mem_cons.mp kept
      refine List.forall_mem_cons.mpr ⟨here, List.forall_mem_cons.mpr ⟨?_, others⟩⟩
      omega

/-- Of the partitions that cover the timestamp, the one that is found starts last, and of equal
starts it comes first. -/
theorem latest_of_findActualHolder {holders : List (Holder engine)} {timestamp i j : ℕ}
    {holder found : Holder engine} (hfound : findActualHolder holders timestamp = .ok (i, found))
    (listed : holders[j]? = some holder) (covers : holder.getsIntoInterval timestamp = true) :
    holder.startTimestamp < found.startTimestamp ∨
      holder.startTimestamp = found.startTimestamp ∧ i ≤ j := by
  unfold findActualHolder at hfound
  split at hfound
  · cases hfound
  · rename_i first rest covering
    have ordered : (first :: rest).Pairwise (·.2 < ·.2) := by
      rw [← covering]
      refine List.Pairwise.filter _ (List.pairwise_map.mp ?_)
      rw [List.zipIdx_map_snd]
      exact List.pairwise_lt_range'
    cases hfound
    refine foldl_max_spec first rest ordered rfl (holder, j) ?_
    rw [← covering, List.mem_filter]
    exact ⟨List.mk_mem_zipIdx_iff_getElem?.mpr listed, covers⟩

/-- The partition that is found starts no earlier than any that covers the timestamp. -/
theorem startTimestamp_le_of_findActualHolder {holders : List (Holder engine)} {timestamp i : ℕ}
    {holder found : Holder engine} (hfound : findActualHolder holders timestamp = .ok (i, found))
    (listed : holder ∈ holders) (covers : holder.getsIntoInterval timestamp = true) :
    holder.startTimestamp ≤ found.startTimestamp := by
  obtain ⟨j, hj⟩ := List.getElem?_of_mem listed
  exact (latest_of_findActualHolder hfound hj covers).elim le_of_lt fun same => same.1.le

/-- No partition is found only if none covers the timestamp. -/
theorem getsIntoInterval_of_findActualHolder {holders : List (Holder engine)} {timestamp : ℕ}
    {e : Error keySize} (failed : findActualHolder holders timestamp = .error e) :
    ∀ holder ∈ holders, holder.getsIntoInterval timestamp = false := by
  unfold findActualHolder at failed
  split at failed
  · rename_i covering
    intro holder hholder
    obtain ⟨i, hi⟩ := List.getElem?_of_mem hholder
    have listed : (holder, i) ∈ holders.zipIdx := List.mk_mem_zipIdx_iff_getElem?.mpr hi
    simpa using List.filter_eq_nil_iff.mp covering _ listed
  · cases failed

def createPearlHolder (settings : Settings) (startTimestamp : ℕ) : Holder engine where
  startTimestamp := startTimestamp
  endTimestamp := startTimestamp + settings.timestampPeriodAsSecs
  storage := none

def createPearlByTimestamp (settings : Settings) (time : ℕ)
    (timestampConfig : StartTimestampConfig) : Except Panic (Holder engine) := do
  let startTimestamp ← getStartTimestampByTimestamp settings.representable
    settings.timestampPeriod time timestampConfig
  return createPearlHolder settings startTimestamp

/-- What the directory of a partition has: partitions with one start share it. -/
def onDisk (holders : List (Holder engine)) (startTimestamp : ℕ) : List engine.Storage :=
  (holders.filter fun holder => holder.startTimestamp = startTimestamp).filterMap (·.storage)

def createAndInitPearl (g : Group engine) (dataTimestamp : ℕ)
    (timestampConfig : StartTimestampConfig) :
    Except Panic (Except (Error keySize) (Holder engine)) := do
  let pearl ← createPearlByTimestamp g.settings dataTimestamp timestampConfig
  return pearl.prepareStorage (onDisk g.holders pearl.startTimestamp)

def getOrCreateWritePearl (g : Group engine) (dataTimestamp : ℕ)
    (timestampConfig : StartTimestampConfig) :
    Except Panic (Except (Error keySize) ((ℕ × Holder engine) × Group engine)) := do
  match findActualHolder g.holders dataTimestamp with
  | .ok indexAndHolder => return .ok (indexAndHolder, g)
  -- the source tries several times; `openDir` answers as the last try does
  | .error _ =>
    match ← g.createAndInitPearl dataTimestamp timestampConfig with
    | .error e => return .error e
    | .ok pearl =>
      return .ok ((g.holders.length, pearl), { g with holders := g.holders ++ [pearl] })

def getOrCreateActualHolder (g : Group engine) (dataTimestamp : ℕ)
    (timestampConfig : StartTimestampConfig) :
    Except Panic (Except (Error keySize) ((ℕ × Holder engine) × Group engine)) :=
  match findActualHolder g.holders dataTimestamp with
  | .ok indexAndHolder => .ok (.ok (indexAndHolder, g))
  | .error _ => g.getOrCreateWritePearl dataTimestamp timestampConfig

/-- A failed write reopens the storage, unless the whole disk seems to be gone. -/
def putCommon (holder : Holder engine) (key : BobKey keySize) (data : BobData) :
    Except (Error keySize) Unit × Holder engine :=
  match holder.write key data with
  | .ok written => (.ok (), written)
  | .error e =>
    if !e.isPossibleDiskDisconnection && !e.isDuplicate && !e.isNotReady then
      (.error e, holder.tryReinit)
    else (.error e, holder)

def put (g : Group engine) (key : BobKey keySize) (data : BobData)
    (timestampConfig : StartTimestampConfig) :
    Except Panic (Except (Error keySize) Unit × Group engine) := do
  if g.reinitLock then
    return (.error .holderTemporaryUnavailable, g)
  match ← g.getOrCreateActualHolder data.bobMeta.timestamp.toNat timestampConfig with
  | .error e => return (.error e, g)
  | .ok ((index, holder), g) =>
    let (res, holder) := putCommon holder key data
    return (res, g.setHolder index holder)

/-! ### Deleting -/

def deleteCommon (holder : Holder engine) (key : BobKey keySize) (bobMeta : BobMeta)
    (forceDelete : Bool) : Except (Error keySize) ℕ × Holder engine :=
  match holder.delete key bobMeta forceDelete with
  | .ok (marked, count) => (.ok count, marked)
  | .error e =>
    if !e.isPossibleDiskDisconnection && !e.isDuplicate && !e.isNotReady then
      (.error e, holder.tryReinit)
    else (.error e, holder)

/-- Mark the key in the partitions that start before the reference, where it is
present. Partitions that fail count as zero. -/
def deleteInHoldersBefore (g : Group engine) (referenceTimestamp : ℕ) (key : BobKey keySize)
    (bobMeta : BobMeta) : ℕ × Group engine :=
  let (totalCount, holders) := visitRev
    (fun _ holder => holder.startTimestamp < referenceTimestamp)
    (fun totalCount holder =>
      match deleteCommon holder key bobMeta false with
      | (.ok count, holder) => (totalCount + count, holder)
      | (.error _, holder) => (totalCount, holder)) 0 g.holders 0
  (totalCount, { g with holders := holders })

def delete (g : Group engine) (key : BobKey keySize) (bobMeta : BobMeta)
    (timestampConfig : StartTimestampConfig) (forceDelete : Bool) :
    Except Panic (Except (Error keySize) ℕ × Group engine) := do
  if g.reinitLock then
    return (.error .holderTemporaryUnavailable, g)
  if forceDelete then
    match ← g.getOrCreateActualHolder bobMeta.timestamp.toNat timestampConfig with
    | .error e => return (.error e, g)
    | .ok ((index, holder), g) =>
      -- the marker is written to the actual partition even if the key is not there
      let (res, marked) := deleteCommon holder key bobMeta true
      let g := g.setHolder index marked
      match res with
      | .error e => return (.error e, g)
      | .ok actualCount =>
        let (beforeCount, g) := g.deleteInHoldersBefore holder.startTimestamp key bobMeta
        return (.ok (actualCount + beforeCount), g)
  else
    let (beforeCount, g) := g.deleteInHoldersBefore bobMeta.timestamp.toNat key bobMeta
    return (.ok beforeCount, g)

/-! ### Reading -/

/-- Whether a partition has to be asked, given the newest timestamp so far. The sum
is one of 64 bits. -/
def shouldCheckHolder (g : Group engine) (holder : Holder engine) (maxTimestamp : Option ℕ) :
    Bool :=
  match maxTimestamp, g.safeTimestampStep with
  | some max, some step => (holder.endTimestamp + step) % 2 ^ 64 ≥ max
  | _, _ => true

/-- What a read has found so far. -/
structure Found (α : Type) where
  maxTimestamp : Option ℕ
  result : α
  hasError : Bool

/-- Take over an answer if it is newer. -/
def Found.update {α : Type} (found : Found α) (timestamp : ℕ) (result : α) : Found α :=
  if found.maxTimestamp.all fun max => timestamp > max then
    { found with maxTimestamp := some timestamp, result := result }
  else found

/-- A failed read reopens the storage, unless it is starting. -/
def getCommon (holder : Holder engine) (key : BobKey keySize) :
    Except (Error keySize) (ReadResult BobData) × Holder engine :=
  match holder.read key with
  | .ok result => (.ok result, holder)
  | .error e =>
    if !e.isKeyNotFound && !e.isNotReady then (.error e, holder.tryReinit)
    else (.error e, holder)

def getFrom (g : Group engine) (key : BobKey keySize) (found : Found (Option BobData))
    (holder : Holder engine) : Found (Option BobData) × Holder engine :=
  if g.shouldCheckHolder holder found.maxTimestamp then
    match getCommon holder key with
    | (.ok (.found data), holder) =>
      (found.update data.bobMeta.timestamp.toNat (some data), holder)
    | (.ok (.deleted timestamp), holder) => (found.update timestamp none, holder)
    | (.ok .notFound, holder) => (found, holder)
    | (.error _, holder) => ({ found with hasError := true }, holder)
  else (found, holder)

def get (g : Group engine) (key : BobKey keySize) :
    Except (Error keySize) BobData × Group engine :=
  if g.reinitLock then (.error .holderTemporaryUnavailable, g)
  else
    let (found, holders) :=
      visitRev (g.mayContain key) (g.getFrom key) ⟨none, none, false⟩ g.holders 0
    let g := { g with holders := holders }
    match found.result with
    | some data => (.ok data, g)
    | none =>
      if found.hasError then (.error (.failed "cannot read from some pearls"), g)
      else (.error (.keyNotFound key), g)

def existFrom (g : Group engine) (key : BobKey keySize) (found : Found Bool)
    (holder : Holder engine) : Found Bool :=
  if g.shouldCheckHolder holder found.maxTimestamp then
    match holder.exist key with
    | .ok (.found timestamp) => found.update timestamp true
    | .ok (.deleted timestamp) => found.update timestamp false
    | .ok .notFound => found
    -- A partition that cannot answer counts as one without the key.
    | .error _ => found
  else found

def existKey (g : Group engine) (key : BobKey keySize) : Bool :=
  (visitRev (g.mayContain key) (fun found holder => (g.existFrom key found holder, holder))
    ⟨none, false, false⟩ g.holders 0).1.result

def exist (g : Group engine) (keys : List (BobKey keySize)) :
    Except (Error keySize) (List Bool) :=
  if g.reinitLock then .error .holderTemporaryUnavailable
  else .ok (keys.map g.existKey)

/-! ### Starting again -/

/-- How far back a read looks once it has found something: at least the configured
step, and more than twice the longest gap between partitions. The differences and
the doubling are of 64 bits. -/
def safeStep (settings : Settings) (holders : List (Holder engine)) (now : ℕ) : Option ℕ :=
  settings.skipHoldersByTimestampStepWhenReading.map fun adjust =>
    let startTimestamps :=
      (holders.map (·.startTimestamp)).insertionSort (· ≤ ·) ++ [now]
    let maxDiff := (startTimestamps.zip startTimestamps.tail).foldl (fun maxDiff pair =>
      -- the clock may be behind the last partition, and then the difference wraps
      let diff := (pair.2 + 2 ^ 64 - pair.1) % 2 ^ 64
      if maxDiff < diff then diff else maxDiff) settings.timestampPeriodAsSecs
    let step := (2 * max maxDiff settings.timestampPeriodAsSecs + 1) % 2 ^ 64
    max adjust.asSecs step

/-- The partitions that the directories of a group name. Their ends follow the current
period, whatever the period was when they were made. -/
def readVdiskDirectory (settings : Settings) (directories : List ℕ) : List (Holder engine) :=
  (directories.insertionSort (· ≤ ·)).map (createPearlHolder settings)

/-- Start the group again, with the settings of now, over what is on disk. -/
def run (g : Group engine) (settings : Settings) (now : ℕ) :
    Except (Error keySize) (Group engine) := do
  let directories := (g.holders.map (·.startTimestamp)).dedup
  let holders ← (readVdiskDirectory settings directories).mapM fun holder =>
    holder.prepareStorage (onDisk g.holders holder.startTimestamp)
  let fresh : Group engine := Group.new settings g.vdiskId g.nodeName g.diskName
  return { fresh with
    holders := holders
    safeTimestampStep := safeStep settings holders now }

/-! ### What requests leave alone -/

/-- What a group is known by. -/
def ident (g : Group engine) : VDiskId × NodeName × DiskName := (g.vdiskId, g.nodeName, g.diskName)

section Ident

variable {g g' : Group engine} {key : BobKey keySize}

@[simp] theorem ident_setHolder {index : ℕ} {holder : Holder engine} :
    (g.setHolder index holder).ident = g.ident := rfl

@[simp] theorem ident_deleteInHoldersBefore {reference : ℕ} {bobMeta : BobMeta} :
    (g.deleteInHoldersBefore reference key bobMeta).2.ident = g.ident := rfl

theorem ident_getOrCreateActualHolder {timestamp : ℕ} {config : StartTimestampConfig}
    {found : ℕ × Holder engine}
    (result : g.getOrCreateActualHolder timestamp config = .ok (.ok (found, g'))) :
    g'.ident = g.ident := by
  unfold getOrCreateActualHolder at result
  split at result
  · cases result
    rfl
  unfold getOrCreateWritePearl at result
  split at result
  · cases result
    rfl
  obtain ⟨created, -, result⟩ := bind_eq_ok_iff.mp result
  split at result
  · cases result
  · cases result
    rfl

theorem ident_put {data : BobData} {config : StartTimestampConfig}
    {res : Except (Error keySize) Unit} (result : g.put key data config = .ok (res, g')) :
    g'.ident = g.ident := by
  unfold put at result
  split_ifs at result
  · cases result
    rfl
  obtain ⟨found, hfound, result⟩ := bind_eq_ok_iff.mp result
  split at result
  · cases result
    rfl
  · cases result
    rw [ident_setHolder, ident_getOrCreateActualHolder hfound]

theorem ident_delete {bobMeta : BobMeta} {config : StartTimestampConfig} {forceDelete : Bool}
    {res : Except (Error keySize) ℕ}
    (result : g.delete key bobMeta config forceDelete = .ok (res, g')) : g'.ident = g.ident := by
  unfold delete at result
  split_ifs at result
  · cases result
    rfl
  · obtain ⟨found, hfound, result⟩ := bind_eq_ok_iff.mp result
    split at result
    · cases result
      rfl
    · have same := ident_getOrCreateActualHolder hfound
      dsimp only at result
      split at result
      · cases result
        rw [ident_setHolder, same]
      · cases result
        rw [ident_deleteInHoldersBefore, ident_setHolder, same]
  · cases result
    rfl

end Ident

end Group

end Bob.Backend

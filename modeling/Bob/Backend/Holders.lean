/-
# The partitions of a group in their container

A group keeps its partitions in a container that knows them by ids and has filters
over them. A write adds its key to the filters above the partition it went to, and a
read asks only the partitions whose filters have the key. An operator can attach the
directory of a partition and detach the partitions of a start.

`Bob.Backend.Group` has the partitions as a list and takes the filters for granted.
Here the container is part of the state, with the ids that the calls pass to it. It is
any container that keeps the laws of `Bob.Math.Children`. What opening a directory gives
is not determined by the partitions that are attached, so it comes from outside.
-/

import Bob.Math.Children
import Bob.Backend.Reading
import Bob.Backend.Slots

namespace Bob.Backend

open Bob.Configs Bob.Math

variable {keySize : ℕ} {engine : StorageEngine keySize}

/-- The name of the directory of a partition. -/
structure PartitionName where
  timestamp : ℕ
  hash : String
  deriving DecidableEq, Repr

/-- A partition, with the hash in the name of its directory. -/
structure Partition (engine : StorageEngine keySize) where
  holder : Holder engine
  hash : String

namespace Partition

def name (partition : Partition engine) : PartitionName :=
  ⟨partition.holder.startTimestamp, partition.hash⟩

/-- Another holder in the directory. -/
def withHolder (partition : Partition engine) (holder : Holder engine) : Partition engine :=
  { partition with holder := holder }

/-- The storage of the partition is open. -/
def openStorage (partition : Partition engine) (storage : engine.Storage) : Partition engine :=
  partition.withHolder { partition.holder with storage := some storage }

def closeStorage (partition : Partition engine) : Partition engine :=
  partition.withHolder { partition.holder with storage := none }

end Partition

/-- The filters over the storages of an engine. A storage may have none. -/
structure EngineFilter (engine : StorageEngine keySize) where
  Filter : Type
  has : Filter → BobKey keySize → Bool
  getFilter : engine.Storage → Option Filter

/-- A filter has every key of its storage. -/
def EngineFilter.Complete (filter : EngineFilter engine) (lawful : engine.Lawful) : Prop :=
  ∀ storage key r, lawful.Holds storage key r →
    ∀ f, filter.getFilter storage = some f → filter.has f key = true

abbrev HoldersContainer (filter : EngineFilter engine) :=
  ChildContainer.{0, 0, 0, 0} (BobKey keySize) filter.Filter (Partition engine)

/-- A group with its container. -/
structure HolderGroup {filter : EngineFilter engine} (C : HoldersContainer filter) where
  holders : C.Carrier
  reinitLock : Bool
  settings : Settings
  vdiskId : VDiskId
  nodeName : NodeName
  diskName : DiskName
  safeTimestampStep : Option ℕ
  /-- The hash of the node that owns the group. -/
  ownerNodeHash : String

/-- Where a write goes: the partition, its place among the children, and the id that is
passed to the container for it. -/
structure Target (engine : StorageEngine keySize) where
  id : ℕ
  position : ℕ
  partition : Partition engine

variable {filter : EngineFilter engine} {C : HoldersContainer filter}

namespace HolderGroup

def new (settings : Settings) (holderGroupSize : ℕ) (vdiskId : VDiskId)
    (nodeName : NodeName) (diskName : DiskName) (ownerNodeHash : String) : HolderGroup C where
  holders := C.new holderGroupSize
  reinitLock := false
  settings := settings
  vdiskId := vdiskId
  nodeName := nodeName
  diskName := diskName
  safeTimestampStep := none
  ownerNodeHash := ownerNodeHash

def partitions (g : HolderGroup C) : List (Partition engine) := C.iter g.holders

/-- The group without its container. -/
def view (g : HolderGroup C) : Group engine where
  holders := g.partitions.map (·.holder)
  reinitLock := g.reinitLock
  settings := g.settings
  vdiskId := g.vdiskId
  nodeName := g.nodeName
  diskName := g.diskName
  safeTimestampStep := g.safeTimestampStep

/-- Replace the partition at a place among the children. -/
def setPartition (g : HolderGroup C) (position : ℕ) (partition : Partition engine) :
    HolderGroup C :=
  { g with holders := C.modifyAt g.holders position partition }

def addToParents (g : HolderGroup C) (id : ℕ) (key : BobKey keySize) : HolderGroup C :=
  { g with holders := C.addToParents g.holders id key }

/-- Add a partition whose storage has been opened. -/
def push (g : HolderGroup C) (partition : Partition engine) (storage : engine.Storage) :
    ℕ × HolderGroup C :=
  let (id, holders) := C.push g.holders partition (filter.getFilter storage)
  (id, { g with holders := holders })

/-! ## Writing -/

/-- Of the partitions that cover the timestamp, the one that starts last. Its place in
the iteration is taken for its id. -/
def findActualHolder (g : HolderGroup C) (dataTimestamp : ℕ) : Option (Target engine) :=
  match Group.findActualHolder g.view.holders dataTimestamp with
  | .ok (position, _) => g.partitions[position]?.map fun partition =>
      ⟨position, position, partition⟩
  | .error _ => none

/-- The new partition for a timestamp, before its storage is opened. -/
def createPearlByTimestamp (g : HolderGroup C) (time : ℕ) (config : StartTimestampConfig) :
    Except Panic (Partition engine) := do
  let holder ← Group.createPearlByTimestamp g.settings time config
  return ⟨holder, g.ownerNodeHash⟩

def getOrCreateActualHolder (g : HolderGroup C) (dataTimestamp : ℕ)
    (config : StartTimestampConfig) (opened : Except OpenError engine.Storage) :
    Except Panic (Except (Error keySize) (Target engine × HolderGroup C)) := do
  match g.findActualHolder dataTimestamp with
  | some target => return .ok (target, g)
  -- nobody comes between the two looks here, so the second one finds nothing either
  | none =>
    let pearl ← g.createPearlByTimestamp dataTimestamp config
    match opened with
    | .error e => return .error e.toError
    | .ok storage =>
      let pearl := pearl.openStorage storage
      let (newIndex, pushed) := g.push pearl storage
      return .ok (⟨newIndex, g.partitions.length, pearl⟩, pushed)

/-- The group when a write to a partition has returned. If it succeeded, the key is
added to the filters above the partition. -/
def written (g : HolderGroup C) (target : Target engine) (holder : Holder engine)
    (key : BobKey keySize) (succeeded : Bool) : HolderGroup C :=
  let g := g.setPartition target.position (target.partition.withHolder holder)
  if succeeded then g.addToParents target.id key else g

/-- The answer, where the write went, and the group after it. -/
def put (g : HolderGroup C) (key : BobKey keySize) (data : BobData)
    (config : StartTimestampConfig) (opened : Except OpenError engine.Storage) :
    Except Panic (Except (Error keySize) Unit × Option (Target engine) × HolderGroup C) := do
  if g.reinitLock then
    return (.error .holderTemporaryUnavailable, none, g)
  match ← g.getOrCreateActualHolder data.bobMeta.timestamp.toNat config opened with
  | .error e => return (.error e, none, g)
  | .ok (target, g) =>
    let (res, holder) := Group.putCommon target.partition.holder key data
    return (res, some target, g.written target holder key res.isOk)

/-- Mark the key in the partition at a place, if it is present there. -/
def deleteAt (key : BobKey keySize) (bobMeta : BobMeta) (state : ℕ × HolderGroup C)
    (position : ℕ) : ℕ × HolderGroup C :=
  match state.2.partitions[position]? with
  | none => state
  | some partition =>
    let (res, holder) := Group.deleteCommon partition.holder key bobMeta false
    (state.1 + (match res with | .ok count => count | .error _ => 0),
      state.2.setPartition position (partition.withHolder holder))

def deleteInHoldersBefore (g : HolderGroup C) (referenceTimestamp : ℕ)
    (key : BobKey keySize) (bobMeta : BobMeta) : ℕ × HolderGroup C :=
  let before := (g.view.holders.zipIdx.filter fun entry =>
    entry.1.startTimestamp < referenceTimestamp).map (·.2)
  before.reverse.foldl (deleteAt key bobMeta) (0, g)

def delete (g : HolderGroup C) (key : BobKey keySize) (bobMeta : BobMeta)
    (config : StartTimestampConfig) (forceDelete : Bool)
    (opened : Except OpenError engine.Storage) :
    Except Panic (Except (Error keySize) ℕ × Option (Target engine) × HolderGroup C) := do
  if g.reinitLock then
    return (.error .holderTemporaryUnavailable, none, g)
  if forceDelete then
    match ← g.getOrCreateActualHolder bobMeta.timestamp.toNat config opened with
    | .error e => return (.error e, none, g)
    | .ok (target, g) =>
      let (res, holder) := Group.deleteCommon target.partition.holder key bobMeta true
      let g := g.written target holder key res.isOk
      match res with
      | .error e => return (.error e, some target, g)
      | .ok actualCount =>
        let (beforeCount, g) :=
          g.deleteInHoldersBefore target.partition.holder.startTimestamp key bobMeta
        return (.ok (actualCount + beforeCount), some target, g)
  else
    let (beforeCount, g) := g.deleteInHoldersBefore bobMeta.timestamp.toNat key bobMeta
    return (.ok beforeCount, none, g)

/-! ## Reading -/

/-- A read asks the children that the filters let through. -/
def get (g : HolderGroup C) (key : BobKey keySize) : Except (Error keySize) BobData :=
  if g.reinitLock then .error .holderTemporaryUnavailable
  else
    let found := (Group.visitRev (fun position _ => C.possibleAt g.holders key position)
      (g.view.getFrom key) ⟨none, none, false⟩ g.view.holders 0).1
    match found.result with
    | some data => .ok data
    | none =>
      if found.hasError then .error (.failed "cannot read from some pearls")
      else .error (.keyNotFound key)

/-! ## Attaching and detaching -/

def attach (g : HolderGroup C) (startTimestamp : ℕ)
    (opened : Except OpenError engine.Storage) :
    Except Panic (Except (Error keySize) Unit × HolderGroup C) := do
  if g.view.holders.any fun holder => holder.startTimestamp = startTimestamp then
    return (.error (.pearlChangeState s!"pearl:{startTimestamp} already exists"), g)
  else
    -- the start is rounded as it is for a write
    let pearl ← g.createPearlByTimestamp startTimestamp .default
    match opened with
    | .error e => return (.error e.toError, g)
    | .ok storage =>
      return (.ok (), (g.push (pearl.openStorage storage) storage).2)

/-- The partitions that `detach` is to remove: those with the start, unless they cover
the current time. -/
def detaches (startTimestamp now : ℕ) (partition : Partition engine) : Bool :=
  partition.holder.startTimestamp = startTimestamp && !partition.holder.getsIntoInterval now

def detach (g : HolderGroup C) (startTimestamp now : ℕ) :
    Except (Error keySize) (List (Partition engine)) × HolderGroup C :=
  let (removed, holders) := C.removeWhere g.holders (detaches startTimestamp now)
  if removed.isEmpty then
    (.error (.pearlChangeState s!"pearl:{startTimestamp} not found"), { g with holders := holders })
  else (.ok (removed.map (·.closeStorage)), { g with holders := holders })

end HolderGroup

/-! ## Commands -/

/-- A call to a group, with what it meets outside: how opening a directory ends, and the
current time. -/
inductive Command (engine : StorageEngine keySize)
  | put (key : BobKey keySize) (data : BobData) (config : StartTimestampConfig)
      (opened : Except OpenError engine.Storage)
  | delete (key : BobKey keySize) (bobMeta : BobMeta) (config : StartTimestampConfig)
      (forceDelete : Bool) (opened : Except OpenError engine.Storage)
  | attach (startTimestamp : ℕ) (opened : Except OpenError engine.Storage)
  | detach (startTimestamp now : ℕ)

namespace HolderGroup

/-- The group after a command, whatever the answer was. -/
def perform (g : HolderGroup C) : Command engine → Except Panic (HolderGroup C)
  | .put key data config opened => return (← g.put key data config opened).2.2
  | .delete key bobMeta config forceDelete opened =>
    return (← g.delete key bobMeta config forceDelete opened).2.2
  | .attach startTimestamp opened => return (← g.attach startTimestamp opened).2
  | .detach startTimestamp now => return (g.detach startTimestamp now).2

/-- One command that is allowed. -/
def Step (allowed : HolderGroup C → Command engine → Prop) (g g' : HolderGroup C) :
    Prop :=
  ∃ command, allowed g command ∧ g.perform command = .ok g'

end HolderGroup

/-! ## Where a write goes -/

namespace HolderGroup

variable {removal : Removal} {g g' : HolderGroup C} {time : ℕ} {config : StartTimestampConfig}
  {target : Target engine} {key : BobKey keySize}

/-- A write goes to a partition that is found for its timestamp, or to one that is
created because none is found. -/
inductive Located (g : HolderGroup C) (time : ℕ) (config : StartTimestampConfig) :
    Target engine → HolderGroup C → Prop
  | found {target : Target engine} (looked : g.findActualHolder time = some target) :
      Located g time config target g
  | created {pearl : Partition engine} {storage : engine.Storage}
      (looked : g.findActualHolder time = none)
      (made : g.createPearlByTimestamp time config = .ok pearl) :
      Located g time config
        ⟨(g.push (pearl.openStorage storage) storage).1, g.partitions.length,
          pearl.openStorage storage⟩
        (g.push (pearl.openStorage storage) storage).2

/-- A partition that is found covers the timestamp. -/
theorem findActualHolder_eq_some (looked : g.findActualHolder time = some target) :
    g.partitions[target.position]? = some target.partition ∧ target.id = target.position ∧
      target.partition.holder.getsIntoInterval time = true := by
  unfold findActualHolder at looked
  split at looked
  · rename_i position holder found
    obtain ⟨here, low, high⟩ := Group.findActualHolder_spec found
    obtain ⟨partition, hpartition, rfl⟩ := Option.map_eq_some_iff.mp looked
    rw [view, List.getElem?_map, hpartition, Option.map_some, Option.some.injEq] at here
    exact ⟨hpartition, rfl, by simp [Holder.getsIntoInterval, here, low, high]⟩
  · cases looked

/-- None is found only if none covers the timestamp. -/
theorem findActualHolder_eq_none (looked : g.findActualHolder time = none) :
    ∀ partition ∈ g.partitions, partition.holder.getsIntoInterval time = false := by
  unfold findActualHolder at looked
  split at looked
  · rename_i position holder found
    have here := (Group.findActualHolder_spec found).1
    rw [view, List.getElem?_map, Option.map_eq_none_iff.mp looked] at here
    cases here
  · rename_i failed
    intro partition hpartition
    exact Group.getsIntoInterval_of_findActualHolder failed _ (List.mem_map_of_mem hpartition)

theorem located_of_getOrCreateActualHolder {opened : Except OpenError engine.Storage}
    (done : g.getOrCreateActualHolder time config opened = .ok (.ok (target, g'))) :
    Located g time config target g' := by
  unfold getOrCreateActualHolder at done
  split at done
  · rename_i looked
    cases done
    exact .found looked
  · rename_i looked
    obtain ⟨pearl, made, done⟩ := bind_eq_ok_iff.mp done
    split at done
    · cases done
    · cases done
      exact .created looked made

theorem partitions_push (laws : C.Lawful filter.has removal) {pearl : Partition engine}
    {storage : engine.Storage} : (g.push pearl storage).2.partitions = g.partitions ++ [pearl] :=
  laws.iter_push g.holders pearl (filter.getFilter storage)

theorem partitions_setPartition (laws : C.Lawful filter.has removal) {position : ℕ}
    {partition : Partition engine} :
    (g.setPartition position partition).partitions = g.partitions.set position partition :=
  laws.iter_modifyAt g.holders position partition

theorem partitions_addToParents (laws : C.Lawful filter.has removal) {id : ℕ} :
    (g.addToParents id key).partitions = g.partitions :=
  laws.iter_addToParents g.holders id key

/-- The partition is where the target says. -/
theorem Located.getElem? (laws : C.Lawful filter.has removal)
    (located : Located g time config target g') :
    g'.partitions[target.position]? = some target.partition := by
  cases located with
  | found looked => exact (findActualHolder_eq_some looked).1
  | created looked made =>
    rw [partitions_push laws]
    simp

/-- Everything a put can do. -/
theorem put_cases {data : BobData} {opened : Except OpenError engine.Storage}
    {res : Except (Error keySize) Unit} {goal : Option (Target engine)}
    (done : g.put key data config opened = .ok (res, goal, g')) :
    (goal = none ∧ g' = g) ∨ ∃ target located holder, goal = some target ∧
      Located g data.bobMeta.timestamp.toNat config target located ∧
      Group.putCommon target.partition.holder key data = (res, holder) ∧
      g' = located.written target holder key res.isOk := by
  unfold put at done
  split_ifs at done
  · cases done
    exact Or.inl ⟨rfl, rfl⟩
  obtain ⟨found, hfound, done⟩ := bind_eq_ok_iff.mp done
  split at done
  · cases done
    exact Or.inl ⟨rfl, rfl⟩
  · rename_i target located
    cases done
    exact Or.inr ⟨target, located, _, rfl, located_of_getOrCreateActualHolder hfound, rfl, rfl⟩

/-- What every mark keeps is kept when older partitions are marked. -/
theorem deleteInHoldersBefore_induction {P : HolderGroup C → Prop} {bobMeta : BobMeta}
    {reference : ℕ} (start : P g)
    (step : ∀ (g : HolderGroup C) (position : ℕ) (partition : Partition engine),
      g.partitions[position]? = some partition → P g → P (g.setPartition position
        (partition.withHolder (Group.deleteCommon partition.holder key bobMeta false).2))) :
    P (g.deleteInHoldersBefore reference key bobMeta).2 := by
  have foldl : ∀ (positions : List ℕ) (state : ℕ × HolderGroup C), P state.2 →
      P (positions.foldl (deleteAt key bobMeta) state).2 := by
    intro positions
    induction positions with
    | nil => exact fun _ holds => holds
    | cons position positions ih =>
      intro state holds
      refine ih _ ?_
      unfold deleteAt
      split
      · exact holds
      · rename_i partition here
        exact step state.2 position partition here holds
  exact foldl _ (0, g) start

/-- Everything a delete can do: a forced one marks the key in the partition of its
timestamp, and both kinds mark it in older ones where it is present. -/
theorem delete_cases {bobMeta : BobMeta} {forceDelete : Bool}
    {opened : Except OpenError engine.Storage} {res : Except (Error keySize) ℕ}
    {goal : Option (Target engine)}
    (done : g.delete key bobMeta config forceDelete opened = .ok (res, goal, g')) :
    (goal = none ∧ (g' = g ∨ ∃ reference, g' = (g.deleteInHoldersBefore reference key bobMeta).2)) ∨
    ∃ target located marked holder, forceDelete = true ∧ goal = some target ∧
      Located g bobMeta.timestamp.toNat config target located ∧
      Group.deleteCommon target.partition.holder key bobMeta true = (marked, holder) ∧
      (g' = located.written target holder key marked.isOk ∨ ∃ reference,
        g' = ((located.written target holder key marked.isOk).deleteInHoldersBefore reference key
          bobMeta).2) := by
  unfold delete at done
  split_ifs at done with _ force
  · cases done
    exact Or.inl ⟨rfl, Or.inl rfl⟩
  · obtain ⟨found, hfound, done⟩ := bind_eq_ok_iff.mp done
    split at done
    · cases done
      exact Or.inl ⟨rfl, Or.inl rfl⟩
    · rename_i target located
      have reached := located_of_getOrCreateActualHolder hfound
      rcases outcome : Group.deleteCommon target.partition.holder key bobMeta true
        with ⟨marked, holder⟩
      refine Or.inr ⟨target, located, marked, holder, ?_⟩
      rw [outcome] at done
      cases marked with
      | error e =>
        cases done
        exact ⟨force, rfl, reached, outcome, Or.inl rfl⟩
      | ok count =>
        cases done
        exact ⟨force, rfl, reached, outcome, Or.inr ⟨_, rfl⟩⟩
  · cases done
    exact Or.inl ⟨rfl, Or.inr ⟨_, rfl⟩⟩

/-! ## Without the container -/

theorem view_written (laws : C.Lawful filter.has removal) {holder : Holder engine}
    {succeeded : Bool} :
    (g.written target holder key succeeded).view = g.view.setHolder target.position holder := by
  have holders : (g.setPartition target.position (target.partition.withHolder holder)).view =
      g.view.setHolder target.position holder := by
    rw [view, partitions_setPartition laws, List.map_set]
    rfl
  unfold written
  dsimp only
  split_ifs
  · rw [← holders, view, partitions_addToParents laws]
    rfl
  · exact holders

theorem view_push (laws : C.Lawful filter.has removal) {pearl : Partition engine}
    {storage : engine.Storage} : (g.push pearl storage).2.view =
      { g.view with holders := g.view.holders ++ [pearl.holder] } := by
  rw [view, partitions_push laws, List.map_append]
  rfl

/-- The partition for a write is the one that the group finds or creates without its
container, if a directory has what was written to the partitions that are attached. -/
theorem view_getOrCreateActualHolder (laws : C.Lawful filter.has removal)
    {opened : Except OpenError engine.Storage}
    {found : Except (Error keySize) (Target engine × HolderGroup C)}
    (disk : ∀ pearl, g.createPearlByTimestamp time config = .ok pearl →
      opened = engine.openDir (Group.onDisk g.view.holders pearl.holder.startTimestamp))
    (done : g.getOrCreateActualHolder time config opened = .ok found) :
    g.view.getOrCreateActualHolder time config = .ok (found.map fun entry =>
      ((entry.1.position, entry.1.partition.holder), entry.2.view)) := by
  unfold Group.getOrCreateActualHolder
  unfold getOrCreateActualHolder findActualHolder at done
  cases looked : Group.findActualHolder g.view.holders time with
  | ok entry =>
    have here := (Group.findActualHolder_spec looked).1
    rw [view, List.getElem?_map] at here
    obtain ⟨partition, hpartition, same⟩ := Option.map_eq_some_iff.mp here
    rw [looked] at done
    simp only [hpartition, Option.map_some] at done
    cases done
    simp [Except.map, same]
  | error e =>
    rw [looked] at done
    obtain ⟨pearl, made, done⟩ := bind_eq_ok_iff.mp done
    obtain ⟨holder, created, made'⟩ := bind_eq_ok_iff.mp made
    have opens := disk pearl made
    cases made'
    simp only [Group.getOrCreateWritePearl, looked]
    have prepared : g.view.createAndInitPearl time config = .ok (holder.prepareStorage
        (Group.onDisk g.view.holders holder.startTimestamp)) :=
      bind_eq_ok_iff.mpr ⟨holder, created, rfl⟩
    refine bind_eq_ok_iff.mpr ⟨_, prepared, ?_⟩
    rw [Holder.prepareStorage, ← opens]
    cases opened with
    | error e =>
      cases done
      rfl
    | ok storage =>
      cases done
      have length : g.view.holders.length = g.partitions.length := List.length_map _
      have pushed : (g.push (Partition.openStorage ⟨holder, g.ownerNodeHash⟩ storage)
          storage).2.view = _ := view_push laws
      simp only [Except.map, length]
      exact congrArg (fun view => Except.ok (Except.ok ((g.partitions.length, _), view)))
        pushed.symm

/-- A put is that of the group without its container, if a directory has what was
written to the partitions that are attached. -/
theorem view_put (laws : C.Lawful filter.has removal) {data : BobData}
    {opened : Except OpenError engine.Storage}
    {res : Except (Error keySize) Unit} {goal : Option (Target engine)}
    (disk : ∀ pearl, g.createPearlByTimestamp data.bobMeta.timestamp.toNat config = .ok pearl →
      opened = engine.openDir (Group.onDisk g.view.holders pearl.holder.startTimestamp))
    (done : g.put key data config opened = .ok (res, goal, g')) :
    g.view.put key data config = .ok (res, g'.view) := by
  have lock : g.view.reinitLock = g.reinitLock := rfl
  unfold Group.put
  unfold put at done
  rw [lock]
  split_ifs at done ⊢
  · cases done
    rfl
  · obtain ⟨found, hfound, done⟩ := bind_eq_ok_iff.mp done
    refine bind_eq_ok_iff.mpr ⟨_, view_getOrCreateActualHolder laws disk hfound, ?_⟩
    cases found with
    | error e =>
      cases done
      rfl
    | ok entry =>
      cases done
      rw [view_written laws]
      rfl

/-- Everything an attach can do. -/
theorem attach_cases {opened : Except OpenError engine.Storage} {res : Except (Error keySize) Unit}
    (done : g.attach time opened = .ok (res, g')) :
    (res ≠ .ok () ∧ g' = g ∧ ((∃ partition ∈ g.partitions,
      partition.holder.startTimestamp = time) ∨ ∃ e, opened = .error e)) ∨
    (res = .ok () ∧ (∀ partition ∈ g.partitions, partition.holder.startTimestamp ≠ time) ∧
      ∃ pearl storage, opened = .ok storage ∧ g.createPearlByTimestamp time .default = .ok pearl ∧
        g' = (g.push (pearl.openStorage storage) storage).2) := by
  unfold attach at done
  split_ifs at done with has
  · cases done
    exact Or.inl ⟨by simp, rfl, Or.inl (by simpa [view] using has)⟩
  · obtain ⟨pearl, made, done⟩ := bind_eq_ok_iff.mp done
    split at done
    · cases done
      exact Or.inl ⟨by simp, rfl, Or.inr ⟨_, rfl⟩⟩
    · cases done
      exact Or.inr ⟨rfl, by simpa [view] using has, pearl, _, rfl, made, rfl⟩

/-- A detach leaves everything but the container. -/
theorem detach_snd {now : ℕ} : (g.detach time now).2 =
    { g with holders := (C.removeWhere g.holders (detaches time now)).2 } := by
  unfold detach
  dsimp only
  split_ifs <;> rfl

end HolderGroup

/-- Filters over logs that have exactly the keys of the log. An empty log has no filter. -/
def logFilter (keySize : ℕ) : EngineFilter (logEngine keySize) where
  Filter := List (BobKey keySize)
  has := fun keys key => keys.contains key
  getFilter := fun log => match log with
    | [] => none
    | first :: rest => some ((first :: rest).map Prod.fst)

theorem logFilter_complete : (logFilter keySize).Complete (logEngine.lawful keySize) := by
  intro (log : List (BobKey keySize × Record)) key r held keys found
  have listed : (key, r) ∈ log := Log.mem_recordsOf.mp held
  cases log with
  | nil => cases found
  | cons first rest =>
    cases found
    exact List.contains_iff_mem.mpr (List.mem_map_of_mem listed)

/-- Eight partitions have one filter, and ids stay empty. -/
abbrev holes : HoldersContainer (logFilter 8) := .grouped (BobKey 8) (Partition (logEngine 8))

/-- Partitions move down. -/
abbrev shifts : HoldersContainer (logFilter 8) :=
  .plain (BobKey 8) (List (BobKey 8)) (Partition (logEngine 8))

/-- A group with a period of a day and no partitions yet. -/
def dailyGroup (C : HoldersContainer (logFilter 8)) : HolderGroup C :=
  .new Group.chronoSettings 8 0 ⟨"alpha"⟩ ⟨"disk1"⟩ "rXoJ"

end Bob.Backend

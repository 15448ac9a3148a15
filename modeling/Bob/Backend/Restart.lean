/-
# Starting a group again

`run` reads the directory of a group, puts the partitions that it names in the place of
those the group has, and opens their storages one after the other. It stops at the
first that cannot be opened, and then the disk controller may call it again. `remount`
closes the partitions of the group and then does the same.

`run` drops the partitions it replaces without closing them. So a run that follows one
that has opened something opens the same directories once more. The storages of a group
are closed before their directories are opened again just when the first call that
replaces them is a `remount`.

A storage is named by the call that opened it and its position among the partitions
that the call made.
-/

import Bob.Math.Trace
import Bob.Backend.Holders

namespace Bob.Backend

open Bob.Configs Bob.Math

variable {keySize : ℕ} {engine : StorageEngine keySize}

namespace Restart

/-! ## The calls -/

/-- What happens to storages. -/
inductive Event
  | opened (call position : ℕ) (directory : PartitionName)
  | closed (call position : ℕ)
  deriving DecidableEq

inductive Kind
  | run
  | remount
  deriving DecidableEq

/-- A call, with what it learns from the disk. -/
structure Call (engine : StorageEngine keySize) where
  kind : Kind
  /-- The partitions that the directory of the group names, in the order it lists them. -/
  listing : Except (Error keySize) (List PartitionName)
  /-- What opening the storage of the partition at a position gives. -/
  opening : ℕ → Except OpenError engine.Storage

/-- The partitions of a group over its calls. -/
structure Mounts (engine : StorageEngine keySize) where
  settings : Settings
  holders : List (Partition engine)
  /-- The call that made the partitions. -/
  madeBy : ℕ
  /-- How many calls there were. -/
  calls : ℕ
  log : List Event

/-- What `run_pearls` leaves behind. -/
structure Started (engine : StorageEngine keySize) where
  holders : List (Partition engine)
  events : List Event
  res : Except (Error keySize) Unit

def createPearlHolder (settings : Settings) (name : PartitionName) : Partition engine :=
  ⟨Group.createPearlHolder settings name.timestamp, name.hash⟩

/-- The order of the partitions: by start, and as listed where the starts are equal. -/
def sortNames (names : List PartitionName) : List PartitionName :=
  names.insertionSort fun a b => a.timestamp ≤ b.timestamp

def readVdiskDirectory (settings : Settings) (names : List PartitionName) :
    List (Partition engine) :=
  (sortNames names).map (createPearlHolder settings)

/-- Open the storages, beginning at a position. -/
def runPearls (opening : ℕ → Except OpenError engine.Storage) (call : ℕ) :
    ℕ → List (Partition engine) → Started engine
  | _, [] => ⟨[], [], .ok ()⟩
  | position, holder :: rest =>
    match opening position with
    -- the partitions from here on stay without a storage
    | .error e => ⟨holder :: rest, [], .error e.toError⟩
    | .ok storage =>
      let started := runPearls opening call (position + 1) rest
      ⟨holder.openStorage storage :: started.holders,
        .opened call position holder.name :: started.events, started.res⟩

namespace Mounts

def new (settings : Settings) : Mounts engine := ⟨settings, [], 0, 0, []⟩

def runUnderReinitLock (s : Mounts engine) (c : Call engine) :
    Except (Error keySize) Unit × Mounts engine :=
  match c.listing with
  | .error e => (.error e, s)
  | .ok names =>
    -- `holders.clear()` closes nothing
    let started := runPearls c.opening s.calls 0 (readVdiskDirectory s.settings names)
    (started.res, { s with
      holders := started.holders, madeBy := s.calls, log := s.log ++ started.events })

/-- The storages that `close_holders` closes: a partition may have none. -/
def closeHolders (s : Mounts engine) : List Event :=
  s.holders.zipIdx.filterMap fun (holder, position) =>
    if holder.holder.storage.isSome then some (.closed s.madeBy position) else none

/-- What a call does before it reads the directory. -/
def release (s : Mounts engine) : Kind → Mounts engine
  | .run => s
  | .remount => { s with holders := [], log := s.log ++ s.closeHolders }

def call (s : Mounts engine) (c : Call engine) : Except (Error keySize) Unit × Mounts engine :=
  let (res, s) := (s.release c.kind).runUnderReinitLock c
  (res, { s with calls := s.calls + 1 })

/-- A new group after some calls, whatever they returned. -/
def after (settings : Settings) (calls : List (Call engine)) : Mounts engine :=
  calls.foldl (fun s c => (s.call c).2) (.new settings)

@[simp] theorem after_nil (settings : Settings) :
    (after settings [] : Mounts engine) = .new settings := rfl

theorem after_concat (settings : Settings) (calls : List (Call engine)) (c : Call engine) :
    after settings (calls ++ [c]) = ((after settings calls).call c).2 := by
  simp [after, List.foldl_append]

end Mounts

/-! ## What a call opens -/

/-- The directories up to the first that cannot be opened. -/
def openable (opening : ℕ → Except OpenError engine.Storage) :
    ℕ → List PartitionName → List PartitionName
  | _, [] => []
  | position, name :: rest =>
    match opening position with
    | .error _ => []
    | .ok _ => name :: openable opening (position + 1) rest

namespace Call

/-- The directories in which the call opens a storage. -/
def opens (c : Call engine) : List PartitionName :=
  match c.listing with
  | .error _ => []
  | .ok names => openable c.opening 0 (sortNames names)

/-- The call puts other partitions in the place of those the group has, or just takes
these out. A run that cannot read the directory does not. -/
def replaces (c : Call engine) : Bool := c.kind = .remount || c.listing.isOk

end Call

theorem map_name_readVdiskDirectory (settings : Settings) (names : List PartitionName) :
    (readVdiskDirectory settings names : List (Partition engine)).map (·.name) =
      sortNames names := by
  rw [readVdiskDirectory, List.map_map]
  exact List.map_id _

theorem closed_of_mem_readVdiskDirectory {settings : Settings} {names : List PartitionName}
    {partition : Partition engine} (member : partition ∈ readVdiskDirectory settings names) :
    partition.holder.storage = none := by
  obtain ⟨name, -, rfl⟩ := List.mem_map.mp member
  rfl

section RunPearls

variable {opening : ℕ → Except OpenError engine.Storage} {call i p : ℕ} {d : PartitionName}

/-- The events of `run_pearls` are the openings of its partitions in their order. -/
theorem mem_events_runPearls_iff {event : Event} (position : ℕ)
    (holders : List (Partition engine)) :
    event ∈ (runPearls opening call position holders).events ↔
      ∃ k d, (openable opening position (holders.map (·.name)))[k]? = some d ∧
        event = .opened call (position + k) d := by
  induction holders generalizing position with
  | nil => simp [runPearls, openable]
  | cons holder rest ih =>
    cases answer : opening position with
    | error e => simp [runPearls, openable, answer]
    | ok storage =>
      simp only [runPearls, openable, answer, List.map_cons, List.mem_cons, ih]
      constructor
      · rintro (rfl | ⟨k, d, found, rfl⟩)
        · exact ⟨0, holder.name, rfl, rfl⟩
        · exact ⟨k + 1, d, found, by rw [Nat.add_right_comm, Nat.add_assoc]⟩
      · rintro ⟨k, d, found, rfl⟩
        cases k with
        | zero => exact .inl (by rw [← Option.some.inj found, Nat.add_zero])
        | succ k => exact .inr ⟨k, d, found, by rw [Nat.add_right_comm, Nat.add_assoc]⟩

/-- Of closed partitions, `run_pearls` leaves those open that it has opened. -/
theorem open_runPearls_iff (position : ℕ) (holders : List (Partition engine))
    (closed : ∀ holder ∈ holders, holder.holder.storage = none) :
    (∃ holder, (runPearls opening call position holders).holders[p]? = some holder ∧
        holder.holder.storage.isSome) ↔
      p < (openable opening position (holders.map (·.name))).length := by
  induction holders generalizing position p with
  | nil => simp [runPearls, openable]
  | cons holder rest ih =>
    cases answer : opening position with
    | error e =>
      simp only [runPearls, openable, answer, List.map_cons, List.length_nil, Nat.not_lt_zero,
        iff_false, not_exists, not_and]
      -- the list stays as it was, and nothing in it is open
      intro left found
      simp [closed left (List.mem_of_getElem? found)]
    | ok storage =>
      simp only [runPearls, openable, answer, List.map_cons, List.length_cons]
      cases p with
      | zero => simp [Partition.openStorage, Partition.withHolder]
      | succ p =>
        simpa using ih (p := p) (position + 1) fun holder member =>
          closed holder (List.mem_cons_of_mem _ member)

end RunPearls

/-! ## The run of the group model

`Group.run` is a run that can read its directory, and whose storages open as the engine
says over what is on disk. -/

theorem mapM_prepareStorage_eq {opening : ℕ → Except OpenError engine.Storage} {call : ℕ}
    {contents : Holder engine → List engine.Storage} (position : ℕ)
    (holders : List (Partition engine))
    (agrees : ∀ k partition, holders[k]? = some partition →
      opening (position + k) = engine.openDir (contents partition.holder)) :
    (holders.map (·.holder)).mapM (fun holder => holder.prepareStorage (contents holder)) =
      (runPearls opening call position holders).res.map fun _ =>
        (runPearls opening call position holders).holders.map (·.holder) := by
  induction holders generalizing position with
  | nil => rfl
  | cons holder rest ih =>
    have first : opening position = engine.openDir (contents holder.holder) := agrees 0 holder rfl
    have others := ih (position + 1) fun k partition found => by
      rw [Nat.add_right_comm, Nat.add_assoc]
      exact agrees (k + 1) partition found
    rw [List.map_cons, List.mapM_cons, others]
    cases answer : opening position with
    | error e =>
      rw [answer] at first
      simp only [Holder.prepareStorage, runPearls, answer, ← first]
      rfl
    | ok storage =>
      rw [answer] at first
      simp only [Holder.prepareStorage, runPearls, answer, ← first]
      cases (runPearls opening call (position + 1) rest).res <;> rfl

theorem map_holder_readVdiskDirectory (settings : Settings) (hash : String)
    (directories : List ℕ) :
    (readVdiskDirectory settings (directories.map (⟨·, hash⟩))).map (·.holder) =
      (Group.readVdiskDirectory settings directories : List (Holder engine)) := by
  rw [readVdiskDirectory, sortNames, Group.readVdiskDirectory, List.map_map,
    ← List.map_insertionSort (r := (· ≤ ·)), List.map_map]
  · rfl
  · intro a _ b _
    rfl

theorem run_eq_call (g : Group engine) (s : Mounts engine) (c : Call engine) (now : ℕ)
    (hash : String) (isRun : c.kind = .run)
    (listing : c.listing = .ok ((g.holders.map (·.startTimestamp)).dedup.map (⟨·, hash⟩)))
    (opening : ∀ p (holder : Holder engine), (Group.readVdiskDirectory s.settings
        (g.holders.map (·.startTimestamp)).dedup)[p]? = some holder →
      c.opening p = engine.openDir (Group.onDisk g.holders holder.startTimestamp)) :
    (g.run s.settings now).map (·.holders) =
      (s.call c).1.map fun _ => (s.call c).2.holders.map (·.holder) := by
  have agrees : ∀ k (partition : Partition engine), (readVdiskDirectory s.settings
      ((g.holders.map (·.startTimestamp)).dedup.map (⟨·, hash⟩)))[k]? = some partition →
      c.opening (0 + k) =
        engine.openDir (Group.onDisk g.holders partition.holder.startTimestamp) := by
    intro k partition found
    rw [Nat.zero_add]
    refine opening k partition.holder ?_
    rw [← map_holder_readVdiskDirectory s.settings hash, List.getElem?_map, found]
    rfl
  have opened := @mapM_prepareStorage_eq _ _ _ s.calls
    (fun holder => Group.onDisk g.holders holder.startTimestamp) _ _ agrees
  rw [map_holder_readVdiskDirectory] at opened
  simp only [Group.run, opened, Mounts.call, Mounts.release, isRun, Mounts.runUnderReinitLock,
    listing]
  cases (runPearls c.opening s.calls 0 (readVdiskDirectory s.settings
    ((g.holders.map (·.startTimestamp)).dedup.map (⟨·, hash⟩)))).res <;> rfl

/-! ## What has been opened and closed -/

section Calls

variable {calls : List (Call engine)} {c : Call engine} {i j k p : ℕ} {d : PartitionName}

/-- The directories in which the call at a position opens storages. -/
def opensAt (calls : List (Call engine)) (i : ℕ) : List PartitionName :=
  (calls[i]?.map Call.opens).getD []

/-- No call since the one at a position has replaced the partitions. -/
def KeptSince (calls : List (Call engine)) (i : ℕ) : Prop :=
  ∀ l c, i < l → calls[l]? = some c → c.replaces = false

/-- The partitions that a call has made are replaced by a later call, and this is a
`remount`. -/
def RemountedBy (calls : List (Call engine)) (i k : ℕ) : Prop :=
  i < k ∧ (∃ c, calls[k]? = some c ∧ c.kind = .remount) ∧ KeptSince (calls.take k) i

@[simp] theorem opensAt_nil : opensAt ([] : List (Call engine)) i = [] := rfl

theorem opensAt_concat_of_lt (old : i < calls.length) :
    opensAt (calls ++ [c]) i = opensAt calls i := by
  simp [opensAt, List.getElem?_append_left old]

theorem opensAt_concat_self : opensAt (calls ++ [c]) calls.length = c.opens := by
  simp [opensAt]

theorem opensAt_of_length_le (beyond : calls.length ≤ i) : opensAt calls i = [] := by
  simp [opensAt, List.getElem?_eq_none beyond]

theorem opensAt_concat_of_gt (beyond : calls.length < i) : opensAt (calls ++ [c]) i = [] :=
  opensAt_of_length_le (by rw [List.length_append, List.length_singleton]; exact beyond)

theorem keptSince_concat_iff (old : i < calls.length) :
    KeptSince (calls ++ [c]) i ↔ KeptSince calls i ∧ c.replaces = false := by
  constructor
  · intro kept
    refine ⟨fun l other later found => kept l other later ?_,
      kept calls.length c old List.getElem?_concat_length⟩
    rw [List.getElem?_append_left (List.getElem?_eq_some_iff.mp found).1, found]
  · rintro ⟨kept, last⟩ l other later found
    rcases Nat.lt_or_ge l calls.length with inside | outside
    · rw [List.getElem?_append_left inside] at found
      exact kept l other later found
    · rw [List.getElem?_append_right outside] at found
      rw [← List.mem_singleton.mp (List.mem_of_getElem? found)] at last
      exact last

theorem keptSince_last : KeptSince (calls ++ [c]) calls.length := by
  intro l other later found
  have inside := (List.getElem?_eq_some_iff.mp found).1
  simp only [List.length_append, List.length_singleton] at inside
  omega

theorem remountedBy_concat_iff (inside : k < calls.length) :
    RemountedBy (calls ++ [c]) i k ↔ RemountedBy calls i k := by
  simp only [RemountedBy, List.getElem?_append_left inside,
    List.take_append_of_le_length inside.le]

theorem remountedBy_last_iff :
    RemountedBy (calls ++ [c]) i calls.length ↔
      i < calls.length ∧ c.kind = .remount ∧ KeptSince calls i := by
  simp [RemountedBy]

theorem lt_of_remountedBy (remounted : RemountedBy calls i k) : k < calls.length := by
  obtain ⟨-, ⟨c, found, -⟩, -⟩ := remounted
  exact (List.getElem?_eq_some_iff.mp found).1

end Calls

namespace Mounts

variable {s : Mounts engine} {c : Call engine} {i p : ℕ} {d : PartitionName} {event : Event}

/-- The group has the storage that a call opened for its partition at a position. -/
def Holds (s : Mounts engine) (i p : ℕ) : Prop :=
  i = s.madeBy ∧ ∃ holder, s.holders[p]? = some holder ∧ holder.holder.storage.isSome

/-- What a call closes. -/
def closings (s : Mounts engine) (c : Call engine) : List Event :=
  if c.kind = .remount then s.closeHolders else []

/-- What a call opens. -/
def openings (s : Mounts engine) (c : Call engine) : List Event :=
  match c.listing with
  | .error _ => []
  | .ok names => (runPearls c.opening s.calls 0 (readVdiskDirectory s.settings names)).events

theorem mem_closeHolders_iff : event ∈ s.closeHolders ↔ ∃ p, s.Holds s.madeBy p ∧
    event = .closed s.madeBy p := by
  simp only [closeHolders, List.mem_filterMap, Prod.exists, List.mem_zipIdx_iff_getElem?,
    Option.ite_none_right_eq_some, Option.some.injEq, Holds, true_and]
  constructor
  · rintro ⟨holder, p, found, isOpen, rfl⟩
    exact ⟨p, ⟨holder, found, isOpen⟩, rfl⟩
  · rintro ⟨p, ⟨holder, found, isOpen⟩, rfl⟩
    exact ⟨holder, p, found, isOpen, rfl⟩

theorem opened_not_mem_closings : .opened i p d ∉ s.closings c := by
  unfold closings
  split
  · simp [mem_closeHolders_iff]
  · exact List.not_mem_nil

theorem closed_mem_closings_iff :
    .closed i p ∈ s.closings c ↔ c.kind = .remount ∧ s.Holds i p := by
  unfold closings
  split
  next remount =>
    simp only [mem_closeHolders_iff, Event.closed.injEq, remount, true_and]
    constructor
    · rintro ⟨p, holds, rfl, rfl⟩
      exact holds
    · rintro ⟨rfl, isOpen⟩
      exact ⟨p, ⟨rfl, isOpen⟩, rfl, rfl⟩
  next other => simp [other]

theorem mem_openings_iff :
    event ∈ s.openings c ↔ ∃ p d, c.opens[p]? = some d ∧ event = .opened s.calls p d := by
  unfold openings Call.opens
  cases c.listing with
  | error e => simp
  | ok names =>
    simp only [mem_events_runPearls_iff, map_name_readVdiskDirectory, Nat.zero_add]

theorem calls_call : (s.call c).2.calls = s.calls + 1 := by
  unfold call runUnderReinitLock release
  cases c.kind <;> cases c.listing <;> rfl

/-- A call closes first and opens then. -/
theorem log_call : (s.call c).2.log = s.log ++ s.closings c ++ s.openings c := by
  unfold call runUnderReinitLock release closings openings
  cases c.kind <;> cases c.listing <;> simp

/-- After a call the group has what the call has opened and, if nothing was replaced, what
it had. -/
theorem holds_call_iff :
    (s.call c).2.Holds i p ↔
      (i = s.calls ∧ p < c.opens.length) ∨ (c.replaces = false ∧ s.Holds i p) := by
  unfold call runUnderReinitLock Call.opens Call.replaces
  cases listing : c.listing with
  | error e =>
    cases kind : c.kind with
    | run => simp [Holds, release, Except.isOk, Except.toBool]
    | remount => simp [Holds, release]
  | ok names =>
    have held := @open_runPearls_iff _ _ c.opening s.calls p 0
      (readVdiskDirectory s.settings names) fun _ => closed_of_mem_readVdiskDirectory
    rw [map_name_readVdiskDirectory] at held
    cases kind : c.kind with
    | run => simp [Holds, release, Except.isOk, Except.toBool, held]
    | remount => simp [Holds, release, held]

end Mounts

/-! ## Over all calls -/

/-- How the state after some calls follows from them. -/
structure Accounts (calls : List (Call engine)) (s : Mounts engine) : Prop where
  count : s.calls = calls.length
  opened : ∀ i p d, .opened i p d ∈ s.log ↔ (opensAt calls i)[p]? = some d
  closed : ∀ i p, .closed i p ∈ s.log ↔
    p < (opensAt calls i).length ∧ ∃ k, RemountedBy calls i k
  held : ∀ i p, s.Holds i p ↔ p < (opensAt calls i).length ∧ KeptSince calls i

namespace Accounts

variable {calls : List (Call engine)} {c : Call engine} {s : Mounts engine} {i p : ℕ}
  {d : PartitionName}

theorem new (settings : Settings) : Accounts [] (Mounts.new settings : Mounts engine) where
  count := rfl
  opened := by simp [Mounts.new]
  closed := by simp [Mounts.new]
  held := by simp [Mounts.Holds, Mounts.new]

/-- The storages that a call closes are those that no call had replaced before. -/
theorem closings (accounts : Accounts calls s) :
    .closed i p ∈ s.closings c ↔ p < (opensAt (calls ++ [c]) i).length ∧
      RemountedBy (calls ++ [c]) i calls.length := by
  rw [Mounts.closed_mem_closings_iff, accounts.held, remountedBy_last_iff]
  rcases Nat.lt_or_ge i calls.length with old | beyond
  · rw [opensAt_concat_of_lt old]
    tauto
  · simp [opensAt_of_length_le beyond, Nat.not_lt.mpr beyond]

/-- What has been closed when a call begins to open storages. -/
theorem closed_before_openings (accounts : Accounts calls s) :
    .closed i p ∈ s.log ++ s.closings c ↔
      p < (opensAt (calls ++ [c]) i).length ∧ ∃ k, RemountedBy (calls ++ [c]) i k := by
  rw [List.mem_append, accounts.closed, accounts.closings]
  constructor
  · rintro (⟨inside, k, remounted⟩ | ⟨inside, remounted⟩)
    · have later := lt_of_remountedBy remounted
      rw [opensAt_concat_of_lt (remounted.1.trans later)]
      exact ⟨inside, k, (remountedBy_concat_iff later).mpr remounted⟩
    · exact ⟨inside, _, remounted⟩
  · rintro ⟨inside, k, remounted⟩
    have bound := lt_of_remountedBy remounted
    rw [List.length_append, List.length_singleton, Nat.lt_succ_iff] at bound
    -- the remount is an earlier call or this one
    rcases Nat.lt_or_eq_of_le bound with later | rfl
    · rw [opensAt_concat_of_lt (remounted.1.trans later)] at inside
      exact .inl ⟨inside, k, (remountedBy_concat_iff later).mp remounted⟩
    · exact .inr ⟨inside, remounted⟩

theorem opened_call (accounts : Accounts calls s) :
    .opened i p d ∈ (s.call c).2.log ↔ (opensAt (calls ++ [c]) i)[p]? = some d := by
  rw [Mounts.log_call, List.mem_append, List.mem_append, accounts.opened, Mounts.mem_openings_iff,
    accounts.count]
  rcases Nat.lt_trichotomy i calls.length with old | rfl | beyond
  · simp [opensAt_concat_of_lt old, Mounts.opened_not_mem_closings, old.ne]
  · simp [opensAt_concat_self, Mounts.opened_not_mem_closings, opensAt_of_length_le]
  · simp [opensAt_concat_of_gt beyond, opensAt_of_length_le beyond.le,
      Mounts.opened_not_mem_closings, beyond.ne']

theorem held_call (accounts : Accounts calls s) :
    (s.call c).2.Holds i p ↔
      p < (opensAt (calls ++ [c]) i).length ∧ KeptSince (calls ++ [c]) i := by
  rw [Mounts.holds_call_iff, accounts.held, accounts.count]
  rcases Nat.lt_trichotomy i calls.length with old | rfl | beyond
  · rw [opensAt_concat_of_lt old, keptSince_concat_iff old]
    have ne := old.ne
    tauto
  · simp [opensAt_concat_self, opensAt_of_length_le, keptSince_last]
  · simp [opensAt_concat_of_gt beyond, opensAt_of_length_le beyond.le, beyond.ne']

theorem call (accounts : Accounts calls s) : Accounts (calls ++ [c]) (s.call c).2 where
  count := by rw [Mounts.calls_call, accounts.count, List.length_append, List.length_singleton]
  opened _ _ _ := accounts.opened_call
  closed i p := by
    rw [Mounts.log_call, List.mem_append, accounts.closed_before_openings, Mounts.mem_openings_iff]
    simp
  held _ _ := accounts.held_call

theorem after (settings : Settings) (calls : List (Call engine)) :
    Accounts calls (Mounts.after settings calls) := by
  induction calls using List.reverseRecOn with
  | nil => exact new settings
  | append_singleton calls c ih =>
    rw [Mounts.after_concat]
    exact ih.call

end Accounts

/-! ## Storages are closed before their directories are opened again -/

/-- When a call opens a directory, each storage that an earlier call opened on it has been
closed. -/
def ClosedBefore (before : List Event) : Event → Prop
  | .closed _ _ => True
  | .opened call _ directory =>
    ∀ i p, i < call → .opened i p directory ∈ before → .closed i p ∈ before

/-- Where two calls open the same directory, the partitions of the first are replaced by
a `remount`, which is the second call or one before it. -/
def RemountedBetween (calls : List (Call engine)) : Prop :=
  ∀ i j, i < j → ∀ d ∈ opensAt calls i, d ∈ opensAt calls j → ∃ k ≤ j, RemountedBy calls i k

variable {calls : List (Call engine)} {c : Call engine} {s : Mounts engine}

theorem remountedBetween_concat_iff :
    RemountedBetween (calls ++ [c]) ↔ RemountedBetween calls ∧
      ∀ i < calls.length, ∀ d ∈ opensAt calls i, d ∈ c.opens →
        ∃ k, RemountedBy (calls ++ [c]) i k := by
  constructor
  · intro remounted
    constructor
    · intro i j earlier d first second
      have inside : j < calls.length := by
        by_contra beyond
        simp [opensAt_of_length_le (Nat.le_of_not_lt beyond)] at second
      obtain ⟨k, bound, by_k⟩ := remounted i j earlier d
        (by rwa [opensAt_concat_of_lt (earlier.trans inside)])
        (by rwa [opensAt_concat_of_lt inside])
      exact ⟨k, bound, (remountedBy_concat_iff (bound.trans_lt inside)).mp by_k⟩
    · intro i old d first second
      obtain ⟨k, -, by_k⟩ := remounted i calls.length old d
        (by rwa [opensAt_concat_of_lt old]) (by rwa [opensAt_concat_self])
      exact ⟨k, by_k⟩
  · rintro ⟨before, last⟩ i j earlier d first second
    rcases Nat.lt_trichotomy j calls.length with inside | rfl | beyond
    · rw [opensAt_concat_of_lt (earlier.trans inside)] at first
      rw [opensAt_concat_of_lt inside] at second
      obtain ⟨k, bound, by_k⟩ := before i j earlier d first second
      exact ⟨k, bound, (remountedBy_concat_iff (bound.trans_lt inside)).mpr by_k⟩
    · rw [opensAt_concat_of_lt earlier] at first
      rw [opensAt_concat_self] at second
      obtain ⟨k, by_k⟩ := last i earlier d first second
      have bound := lt_of_remountedBy by_k
      rw [List.length_append, List.length_singleton, Nat.lt_succ_iff] at bound
      exact ⟨k, bound, by_k⟩
    · simp [opensAt_concat_of_gt beyond] at second

/-- What one more call asks for: that the storages on the directories it opens have been
closed by then. -/
theorem guarded_openings_iff (accounts : Accounts calls s) :
    Guarded (fun before => ClosedBefore (s.log ++ s.closings c ++ before)) (s.openings c) ↔
      ∀ i < calls.length, ∀ d ∈ opensAt calls i, d ∈ c.opens →
        ∃ k, RemountedBy (calls ++ [c]) i k := by
  constructor
  · intro guarded i old d first second
    obtain ⟨p, hp⟩ := List.mem_iff_getElem?.mp first
    obtain ⟨q, hq⟩ := List.mem_iff_getElem?.mp second
    obtain ⟨before, rest, split⟩ := List.append_of_mem
      (Mounts.mem_openings_iff (s := s).mpr ⟨q, d, hq, rfl⟩)
    have inLog : .opened i p d ∈ s.log ++ s.closings c ++ before := by
      simp [(accounts.opened i p d).mpr hp]
    have isClosed := guarded before _ rest split i p (by rwa [accounts.count]) inLog
    -- the openings before it close nothing
    rw [List.mem_append, accounts.closed_before_openings] at isClosed
    rcases isClosed with ⟨-, remounted⟩ | inBlock
    · exact remounted
    · have opening : .closed i p ∈ s.openings c := by simp [split, inBlock]
      obtain ⟨_, _, -, impossible⟩ := Mounts.mem_openings_iff.mp opening
      cases impossible
  · intro remounted before event rest split
    obtain ⟨q, d, hq, rfl⟩ := Mounts.mem_openings_iff.mp
      (show event ∈ s.openings c by simp [split])
    intro i p earlier inTrace
    rw [accounts.count] at earlier
    have first : (opensAt calls i)[p]? = some d := by
      -- the call itself opens nothing in the name of an earlier one
      rw [List.mem_append, List.mem_append] at inTrace
      rcases inTrace with (inLog | inClosings) | inBlock
      · exact (accounts.opened i p d).mp inLog
      · exact absurd inClosings Mounts.opened_not_mem_closings
      · have opening : .opened i p d ∈ s.openings c := by simp [split, inBlock]
        obtain ⟨_, _, -, same⟩ := Mounts.mem_openings_iff.mp opening
        rw [Event.opened.injEq, accounts.count] at same
        exact absurd same.1 earlier.ne
    refine List.mem_append_left _ (accounts.closed_before_openings.mpr ⟨?_, ?_⟩)
    · rw [opensAt_concat_of_lt earlier]
      exact (List.getElem?_eq_some_iff.mp first).1
    · exact remounted i earlier d (List.mem_of_getElem? first) (List.mem_of_getElem? hq)

/-- The storages of a group are closed before their directories are opened again just
when the first call that replaces them is a `remount`. -/
theorem storages_closed_before_reopened_iff (settings : Settings) (calls : List (Call engine)) :
    Guarded ClosedBefore (Mounts.after settings calls).log ↔ RemountedBetween calls := by
  induction calls using List.reverseRecOn with
  | nil =>
    simp only [Mounts.after_nil]
    exact iff_of_true .nil fun i j _ d first => by simp at first
  | append_singleton calls c ih =>
    have free : Guarded
        (fun before => ClosedBefore ((Mounts.after settings calls).log ++ before))
        ((Mounts.after settings calls).closings c) := by
      refine .of_free fun event member before => ?_
      cases event with
      | opened i p d => exact absurd member Mounts.opened_not_mem_closings
      | closed i p => trivial
    rw [Mounts.after_concat, Mounts.log_call, Guarded.append_iff, Guarded.append_iff, ih,
      guarded_openings_iff (Accounts.after settings calls), remountedBetween_concat_iff,
      and_iff_left free]

/-! A group with two partitions. The first run opens one of them and fails at the other.
The second run opens the first directory again. -/

def twoPartitions : List PartitionName := [⟨0, "hash"⟩, ⟨86400, "hash"⟩]

def failedRun : Call (logEngine 8) where
  kind := .run
  listing := .ok twoPartitions
  opening := fun position =>
    if position = 1 then .error (.failed "Failed to init holder") else .ok []

def secondCall (kind : Kind) : Call (logEngine 8) where
  kind := kind
  listing := .ok twoPartitions
  opening := fun _ => .ok []

theorem second_run_opens_what_is_open :
    (Mounts.after Group.chronoSettings [failedRun, secondCall .run]).log =
        [.opened 0 0 ⟨0, "hash"⟩, .opened 1 0 ⟨0, "hash"⟩, .opened 1 1 ⟨86400, "hash"⟩] ∧
      ¬ Guarded ClosedBefore
        (Mounts.after Group.chronoSettings [failedRun, secondCall .run]).log := by
  have log : (Mounts.after Group.chronoSettings [failedRun, secondCall .run]).log =
      [.opened 0 0 ⟨0, "hash"⟩, .opened 1 0 ⟨0, "hash"⟩, .opened 1 1 ⟨86400, "hash"⟩] := rfl
  refine ⟨log, fun guarded => ?_⟩
  rw [log] at guarded
  have isClosed := guarded [.opened 0 0 ⟨0, "hash"⟩] _ _ rfl 0 0 Nat.one_pos (by simp)
  simp at isClosed

/-- A `remount` in its place closes the storage first. -/
example (settings : Settings) :
    (Mounts.after settings [failedRun, secondCall .remount]).log =
      [.opened 0 0 ⟨0, "hash"⟩, .closed 0 0,
        .opened 1 0 ⟨0, "hash"⟩, .opened 1 1 ⟨86400, "hash"⟩] := rfl

end Restart

end Bob.Backend

/-
# Partitions that are closed while others use them

`detach` takes partitions out of a group and closes them; `stop` closes all
partitions of a disk controller. A put, get or delete that has found a partition keeps
it whatever becomes of the group. Under the read lock of the partition it makes its
storage call. If the call fails, it gives the lock back and reopens the storage: with
a permit of its own it closes the old storage, opens the directory again and installs
what it has opened.

Closing takes the lock but not the permit. So a request whose call has failed may
reopen a partition that was closed in between. If no request is about to reopen a
partition when it is closed, then it is never open again.
-/

import Bob.Backend.SlotRaces

namespace Bob.Backend

open Bob.Configs Bob.Math

variable {keySize : ℕ} {engine : StorageEngine keySize}

namespace Closing

open SlotRaces (Request)

/-! ## Requests -/

/-- The calls that use partitions or close them. A group is named by its position. -/
inductive Call (keySize : ℕ)
  | put (group : ℕ) (key : BobKey keySize) (data : BobData)
  | delete (group : ℕ) (key : BobKey keySize) (bobMeta : BobMeta) (forceDelete : Bool)
  | get (group : ℕ) (key : BobKey keySize)
  | detach (group : ℕ) (startTimestamp : ℕ)
  | stop

/-- A storage call, and what the request has to do after it. Partitions are named by
their positions among all that were ever made. -/
inductive Op (keySize : ℕ)
  /-- A put, or a delete in the partition that covers its timestamp. -/
  | write (group : ℕ) (req : Request keySize)
  | deleteBefore (key : BobKey keySize) (bobMeta : BobMeta) (rest : List ℕ)
  | get (group : ℕ) (key : BobKey keySize) (rest : List ℕ)
  deriving DecidableEq

namespace Op

/-- The call, as the engine answers it. -/
def call : Op keySize → Holder engine → Except (Error keySize) (Holder engine)
  | write _ (.put key data), holder => holder.write key data
  | write _ (.delete key bobMeta), holder => (holder.delete key bobMeta true).map Prod.fst
  | deleteBefore key bobMeta _, holder => (holder.delete key bobMeta false).map Prod.fst
  | get _ key _, holder => (holder.read key).map fun _ => holder

/-- A failure of the engine, as the request sees it. -/
def failure : Op keySize → PearlError → Error keySize
  | write _ (.put _ _), e => e.onWrite
  | _, e => e.onAccess

/-- The errors after which the storage is reopened. -/
def restarts : Op keySize → Error keySize → Bool
  | get _ _ _, e => !e.isKeyNotFound && !e.isNotReady
  | _, e => !e.isPossibleDiskDisconnection && !e.isDuplicate && !e.isNotReady

/-- A partition without a storage is not reopened. -/
@[simp] theorem restarts_vdiskIsNotReady (op : Op keySize) :
    op.restarts .vdiskIsNotReady = false := by
  cases op <;> rfl

end Op

/-! ## One partition -/

/-- A partition as the tasks share it. -/
structure Cell (engine : StorageEngine keySize) where
  holder : Holder engine
  /-- The tasks with the read lock of the storage. A write lock is held for one step
  only, so it does not show. -/
  readers : List ℕ
  /-- The task with the permit to open the storage. -/
  initProtection : Option ℕ

/-- How far a request has come with a partition. -/
inductive Phase (engine : StorageEngine keySize)
  | entering
  /-- The storage call is under way, under the read lock. -/
  | calling
  /-- The call has failed, and `try_reinit` is next. -/
  | failed
  | resetting
  | opening
  | installing (storage : engine.Storage)

/-- Where a step leads: to another phase, or out of the partition. -/
inductive Outcome (engine : StorageEngine keySize)
  | stay (phase : Phase engine)
  | finished (ok : Bool)

/-- What a task learns from outside as it advances. -/
inductive Event (engine : StorageEngine keySize)
  | go
  /-- The storage call ends, with a failure or as the engine says. -/
  | answered (failure : Option PearlError)
  /-- Opening a directory ends. -/
  | opened (res : Except OpenError engine.Storage)
  /-- A filter, or what was found so far, rules the next partition out. -/
  | skip
  /-- `detach` runs at a time and takes these partitions out. -/
  | removing (now : ℕ) (removed : List ℕ)
  | close (partition : ℕ)

namespace Phase

/-- The request is about to open a storage. -/
def reopens : Phase engine → Bool
  | entering | calling => false
  | failed | resetting | opening | installing _ => true

/-- The request has the permit. -/
def permitted : Phase engine → Bool
  | entering | calling | failed => false
  | resetting | opening | installing _ => true

theorem reopens_of_permitted {phase : Phase engine} (permitted : phase.permitted = true) :
    phase.reopens = true := by
  cases phase <;> first | rfl | cases permitted

end Phase

def afterError (op : Op keySize) (e : Error keySize) : Outcome engine :=
  if op.restarts e then .stay .failed else .finished false

namespace Cell

def setStorage (cell : Cell engine) (storage : Option engine.Storage) : Cell engine :=
  { cell with holder := { cell.holder with storage := storage } }

/-- One step of task `i` with a partition: the storage call, and `try_reinit`. -/
def advance (cell : Cell engine) (i : ℕ) (op : Op keySize) :
    Phase engine → Event engine → Option (Cell engine × Outcome engine)
  | .entering, .go =>
    match cell.holder.storage with
    | none => some (cell, afterError op .vdiskIsNotReady)
    | some _ => some ({ cell with readers := i :: cell.readers }, .stay .calling)
  | .calling, .answered failure =>
    let cell := { cell with readers := cell.readers.erase i }
    match failure.elim (op.call cell.holder) fun e => .error (op.failure e) with
    | .ok holder => some ({ cell with holder := holder }, .finished true)
    | .error e => some (cell, afterError op e)
  | .failed, .go =>
    match cell.initProtection with
    | none => some ({ cell with initProtection := some i }, .stay .resetting)
    | some _ => some (cell, .finished false)
  | .resetting, .go =>
    if cell.readers = [] then some (cell.setStorage none, .stay .opening) else none
  | .opening, .opened (.ok storage) => some (cell, .stay (.installing storage))
  | .opening, .opened (.error _) => some ({ cell with initProtection := none }, .finished false)
  | .installing storage, .go =>
    -- `set_ready` refuses a storage that is there already; the permit keeps others from that
    if cell.readers = [] ∧ cell.holder.storage = none then
      some ({ cell.setStorage (some storage) with initProtection := none }, .finished false)
    else none
  | _, _ => none

end Cell

/-! ## All partitions -/

/-- The partitions of a group, behind a lock. -/
structure HolderList where
  holders : List ℕ
  /-- The gets that have the read lock. -/
  readers : List ℕ
  /-- The `detach` that has the write lock. -/
  writer : Option ℕ

/-- What the tasks share. -/
structure Shared (engine : StorageEngine keySize) where
  /-- All partitions that were ever made. -/
  cells : List (Cell engine)
  /-- One list for each group. A request that has its group keeps it when `stop` clears
  the groups, so the lists stay. -/
  lists : List HolderList

/-- Where a task is. -/
inductive Pc (engine : StorageEngine keySize)
  | lookup (group : ℕ) (req : Request keySize)
  /-- It has found no partition. -/
  | creating (group : ℕ) (req : Request keySize)
  | access (op : Op keySize) (partition : ℕ) (phase : Phase engine)
  /-- A delete lists the partitions that start before a time, and then marks them. -/
  | listing (group : ℕ) (key : BobKey keySize) (bobMeta : BobMeta) (referenceTimestamp : ℕ)
  | marking (key : BobKey keySize) (bobMeta : BobMeta) (rest : List ℕ)
  /-- A get takes the read lock of the list, and goes through it. -/
  | iterating (group : ℕ) (key : BobKey keySize)
  | reading (group : ℕ) (key : BobKey keySize) (rest : List ℕ)
  | detaching (group : ℕ) (startTimestamp : ℕ)
  /-- `shutdown` lists the partitions of one group after the other. -/
  | collecting (group : ℕ) (todo : List ℕ)
  /-- The partitions that are to be closed and those that are. A `detach` has the write
  lock of a list. -/
  | closing (locked : Option ℕ) (todo closed : List ℕ)
  /-- A `detach` or `stop` has returned. -/
  | returned (closed : List ℕ)
  | done

/-! ## The steps -/

def entry : Call keySize → Pc engine
  | .put group key data => .lookup group (.put key data)
  | .delete group key bobMeta true => .lookup group (.delete key bobMeta)
  | .delete group key bobMeta false => .listing group key bobMeta bobMeta.timestamp.toNat
  | .get group key => .iterating group key
  | .detach group startTimestamp => .detaching group startTimestamp
  | .stop => .collecting 0 []

namespace Shared

def setList (s : Shared engine) (group : ℕ) (list : HolderList) : Shared engine :=
  { s with lists := s.lists.set group list }

def setCell (s : Shared engine) (h : ℕ) (cell : Cell engine) : Shared engine :=
  { s with cells := s.cells.set h cell }

/-- A new partition, which nobody uses yet. -/
def addCell (s : Shared engine) (holder : Holder engine) : Shared engine :=
  { s with cells := s.cells ++ [⟨holder, [], none⟩] }

/-- The partitions of a list, with their positions. -/
def listed (s : Shared engine) (list : HolderList) : List (ℕ × Holder engine) :=
  list.holders.filterMap fun h => s.cells[h]?.map fun cell => (h, cell.holder)

def findActualHolder (s : Shared engine) (list : HolderList) (timestamp : ℕ) : Option ℕ :=
  match Group.findActualHolder ((s.listed list).map (·.2)) timestamp with
  | .ok (index, _) => ((s.listed list)[index]?).map (·.1)
  | .error _ => none

/-- `detach` removes only partitions of the list with that start that are not current. -/
def removable (s : Shared engine) (list : HolderList) (startTimestamp now h : ℕ) : Bool :=
  (s.listed list).any fun entry => entry.1 = h && entry.2.startTimestamp = startTimestamp &&
    !entry.2.getsIntoInterval now

end Shared

/-- Where a request goes on after a partition. -/
def next (cell : Cell engine) (ok : Bool) : Op keySize → Pc engine
  | .write _ (.put _ _) => .done
  | .write group (.delete key bobMeta) =>
    if ok then .listing group key bobMeta cell.holder.startTimestamp else .done
  | .deleteBefore key bobMeta rest => .marking key bobMeta rest
  | .get group key rest => .reading group key rest

def Outcome.toPc (cell : Cell engine) (op : Op keySize) (h : ℕ) : Outcome engine → Pc engine
  | .stay phase => .access op h phase
  | .finished ok => next cell ok op

/-- Nobody has the lock of the list. -/
def HolderList.free (list : HolderList) : Bool := list.writer.isNone && list.readers.isEmpty

def advance (settings : Settings) (config : StartTimestampConfig) (s : Shared engine) (i : ℕ) :
    Pc engine → Event engine → Option (Shared engine × Pc engine)
  | .lookup group req, .go =>
    s.lists[group]?.bind fun list =>
      if list.writer = none then
        match s.findActualHolder list req.timestamp with
        | some h => some (s, .access (.write group req) h .entering)
        | none => some (s, .creating group req)
      else none
  -- under the upgradable lock, which keeps the list as it is: look again, and create
  | .creating group req, .opened res =>
    s.lists[group]?.bind fun list =>
      match s.findActualHolder list req.timestamp with
      | some h =>
        if list.writer = none then some (s, .access (.write group req) h .entering) else none
      | none =>
        match (Group.createPearlByTimestamp settings req.timestamp config :
          Except Panic (Holder engine)), res with
        | .ok pearl, .ok storage =>
          if list.free then
            some ((s.addCell { pearl with storage := some storage }).setList group
                { list with holders := list.holders ++ [s.cells.length] },
              .access (.write group req) s.cells.length .entering)
          else none
        | .ok _, .error _ => if list.writer = none then some (s, .done) else none
        -- a panic ends the node, and with it the run
        | .error _, _ => none
  | .access op h phase, event =>
    s.cells[h]?.bind fun cell => (cell.advance i op phase event).map fun (cell, outcome) =>
      (s.setCell h cell, outcome.toPc cell op h)
  | .listing group key bobMeta referenceTimestamp, .go =>
    s.lists[group]?.bind fun list =>
      if list.writer = none then
        some (s, .marking key bobMeta (((s.listed list).filter fun entry =>
          entry.2.startTimestamp < referenceTimestamp).map (·.1)).reverse)
      else none
  | .marking key bobMeta (h :: rest), .go =>
    some (s, .access (.deleteBefore key bobMeta rest) h .entering)
  | .marking _ _ [], .go => some (s, .done)
  | .iterating group key, .go =>
    s.lists[group]?.bind fun list =>
      if list.writer = none then
        some (s.setList group { list with readers := i :: list.readers },
          .reading group key list.holders.reverse)
      else none
  | .reading group key (h :: rest), .go => some (s, .access (.get group key rest) h .entering)
  | .reading group key (_ :: rest), .skip => some (s, .reading group key rest)
  | .reading group _ [], .go =>
    s.lists[group]?.map fun list =>
      (s.setList group { list with readers := list.readers.erase i }, .done)
  | .detaching group startTimestamp, .removing now removed =>
    s.lists[group]?.bind fun list =>
      if list.free ∧ removed.all (s.removable list startTimestamp now) then
        if removed = [] then some (s, .done)
        else
          let kept := list.holders.filter (· ∉ removed)
          some (s.setList group { list with holders := kept, writer := some i },
            .closing (some group) removed [])
      else none
  | .collecting group todo, .go =>
    match s.lists[group]? with
    | some list =>
      if list.writer = none then some (s, .collecting (group + 1) (todo ++ list.holders)) else none
    | none => some (s, .closing none todo [])
  -- `close_storage`: one after the other in `detach`, in any order in `stop`
  | .closing locked todo closed, .close h =>
    s.cells[h]?.bind fun cell =>
      if h ∈ (if locked.isSome then todo.take 1 else todo) ∧ cell.readers = [] then
        some (s.setCell h (cell.setStorage none),
          .closing locked (todo.erase h) (h :: closed))
      else none
  | .closing none [] closed, .go => some (s, .returned closed)
  | .closing (some group) [] closed, .go =>
    s.lists[group]?.map fun list =>
      (s.setList group { list with writer := none }, .returned closed)
  | _, _ => none

def program (engine : StorageEngine keySize) (settings : Settings)
    (config : StartTimestampConfig) :
    Program (Shared engine) (Pc engine) (Call keySize) (Event engine) where
  entry := entry
  advance := advance settings config

/-- Number the partitions of the groups one after the other. -/
def number {α : Type} (first : ℕ) : List (List α) → List HolderList
  | [] => []
  | group :: groups =>
    ⟨List.range' first group.length, [], none⟩ :: number (first + group.length) groups

/-- The groups of a controller that nobody uses yet. -/
def start (groups : List (List (Holder engine))) : Pool (Shared engine) (Pc engine) where
  shared := ⟨groups.flatten.map fun holder => ⟨holder, [], none⟩, number 0 groups⟩
  tasks := []

/-- The storage of a partition, if it is open. -/
def Shared.storageOf (s : Shared engine) (h : ℕ) : Option engine.Storage :=
  s.cells[h]?.bind (·.holder.storage)

section Steps

variable {settings : Settings} {config : StartTimestampConfig} {s s' : Shared engine}
  {p p' q : Pool (Shared engine) (Pc engine)} {pc pc' : Pc engine} {event : Event engine}
  {cell cell' : Cell engine} {op : Op keySize} {phase : Phase engine} {outcome : Outcome engine}
  {h i k : ℕ}

/-! ## Running a request -/

theorem Shared.getElem?_setCell (found : s.cells[h]? = some cell) :
    (s.setCell h cell').cells[h]? = some cell' :=
  List.getElem?_set_self (List.getElem?_eq_some_iff.mp found).1

theorem Shared.setCell_setCell : (s.setCell h cell).setCell h cell' = s.setCell h cell' := by
  simp [setCell]

/-- A request makes a step with its partition. -/
theorem step_access (here : p.tasks[k]? = some (.access op h phase))
    (found : p.shared.cells[h]? = some cell)
    (advanced : cell.advance k op phase event = some (cell', outcome)) :
    (program engine settings config).GuardedStep (fun _ _ => True) p
      ⟨p.shared.setCell h cell', p.tasks.set k (outcome.toPc cell' op h)⟩ := by
  refine @Program.guardedStep_of_advance _ _ _ _ (program engine settings config) p _ k _ event
    (p.shared.setCell h cell', outcome.toPc cell' op h) here ?_ trivial
  simp only [program, advance, found, Option.bind_some, advanced, Option.map_some]

/-- What `put_common`, `delete_common` and `get_common` make of a partition. -/
def Op.common (op : Op keySize) (holder : Holder engine) : Holder engine :=
  match op.call holder with
  | .ok holder => holder
  | .error e => if op.restarts e then holder.tryReinit else holder

theorem Op.common_eq {holder : Holder engine} :
    op.common holder =
      match op with
      | write _ (.put key data) => (Group.putCommon holder key data).2
      | write _ (.delete key bobMeta) => (Group.deleteCommon holder key bobMeta true).2
      | deleteBefore key bobMeta _ => (Group.deleteCommon holder key bobMeta false).2
      | get _ key _ => (Group.getCommon holder key).2 := by
  cases op with
  | write group req =>
    cases req with
    | put key data =>
      cases outcome : holder.write key data <;>
        simp [common, call, restarts, Group.putCommon, outcome, apply_ite Prod.snd]
    | delete key bobMeta =>
      cases outcome : holder.delete key bobMeta true <;>
        simp [common, call, restarts, Group.deleteCommon, outcome, Except.map, apply_ite Prod.snd]
  | deleteBefore key bobMeta rest =>
    cases outcome : holder.delete key bobMeta false <;>
      simp [common, call, restarts, Group.deleteCommon, outcome, Except.map, apply_ite Prod.snd]
  | get group key rest =>
    cases outcome : holder.read key <;>
      simp [common, call, restarts, Group.getCommon, outcome, Except.map, apply_ite Prod.snd]

/-- A partition without a storage stays as it is. -/
theorem Op.common_of_storage_eq_none {holder : Holder engine} (none : holder.storage = none) :
    op.common holder = holder := by
  have failed : op.call holder = .error .vdiskIsNotReady := by
    cases op with
    | write group req => cases req <;> simp [call, Holder.write, Holder.delete, none, Except.map]
    | deleteBefore => simp [call, Holder.delete, none, Except.map]
    | get => simp [call, Holder.read, none, Except.map]
  simp [common, failed]

/-- A request that nobody disturbs makes of a partition what `put_common`,
`delete_common` or `get_common` does, if failures are those of the engine. -/
theorem access_alone (found : s.cells[h]? = some cell) (unread : cell.readers = [])
    (permit : cell.initProtection = none) :
    ∃ ok, Relation.ReflTransGen
      ((program engine settings config).GuardedStep fun _ _ => True)
      ⟨s, [.access op h .entering]⟩
      ⟨s.setCell h { cell with holder := op.common cell.holder },
        [next { cell with holder := op.common cell.holder } ok op]⟩ := by
  -- one more step of the only task
  have step (before after : Cell engine) (phase : Phase engine) (outcome : Outcome engine)
      (event : Event engine) (advanced : before.advance 0 op phase event = some (after, outcome)) :
      (program engine settings config).GuardedStep (fun _ _ => True)
        ⟨s.setCell h before, [.access op h phase]⟩
        ⟨s.setCell h after, [outcome.toPc after op h]⟩ := by
    have stepped := @step_access _ _ settings config ⟨s.setCell h before, [.access op h phase]⟩
      event _ _ _ _ _ h 0 rfl (Shared.getElem?_setCell found) advanced
    rwa [Shared.setCell_setCell] at stepped
  have same : s.setCell h cell = s := by
    obtain ⟨inside, rfl⟩ := List.getElem?_eq_some_iff.mp found
    rw [Shared.setCell, List.set_getElem_self]
  obtain ⟨holder, readers, initProtection⟩ := cell
  subst unread permit
  nth_rewrite 1 [← same]
  cases opened : holder.storage with
  | none =>
    rw [Op.common_of_storage_eq_none opened]
    refine ⟨false, .single (step _ _ _ (.finished false) .go ?_)⟩
    simp [Cell.advance, opened, afterError]
  | some storage =>
    have enter := step ⟨holder, [], none⟩ ⟨holder, [0], none⟩ .entering (.stay .calling) .go
      (by simp [Cell.advance, opened])
    cases called : op.call holder with
    | ok written =>
      have common : op.common holder = written := by simp [Op.common, called]
      have answer := step ⟨holder, [0], none⟩ ⟨written, [], none⟩ .calling (.finished true)
        (.answered none) (by simp [Cell.advance, called])
      rw [common]
      exact ⟨true, .head enter (.single answer)⟩
    | error e =>
      by_cases restarts : op.restarts e = true
      · have common : op.common holder = holder.tryReinit := by simp [Op.common, called, restarts]
        have fail := step ⟨holder, [0], none⟩ ⟨holder, [], none⟩ .calling (.stay .failed)
          (.answered none) (by simp [Cell.advance, called, afterError, restarts])
        have acquire := step ⟨holder, [], none⟩ ⟨holder, [], some 0⟩ .failed (.stay .resetting) .go
          rfl
        have reset := step ⟨holder, [], some 0⟩ (Cell.setStorage ⟨holder, [], some 0⟩ none)
          .resetting (.stay .opening) .go rfl
        have reached := Relation.ReflTransGen.head enter
          (.head fail (.head acquire (.single reset)))
        refine ⟨false, ?_⟩
        rw [common, Holder.tryReinit, opened, Option.toList_some]
        cases reopened : engine.openDir [storage] with
        | error e => exact reached.tail (step _ _ _ (.finished false) (.opened (.error e)) rfl)
        | ok fresh =>
          have ready := step _ (Cell.setStorage ⟨holder, [], some 0⟩ none) .opening
            (.stay (.installing fresh)) (.opened (.ok fresh)) rfl
          exact (reached.tail ready).tail
            (step _ _ _ (.finished false) .go (by simp [Cell.advance, Cell.setStorage]; rfl))
      · have common : op.common holder = holder := by simp [Op.common, called, restarts]
        have answer := step ⟨holder, [0], none⟩ ⟨holder, [], none⟩ .calling (.finished false)
          (.answered none) (by simp [Cell.advance, called, afterError, restarts])
        rw [common]
        exact ⟨false, .head enter (.single answer)⟩

/-! ## What a step does to the partitions -/

/-- How far a task has come with a partition. -/
def Pc.phaseAt (h : ℕ) : Pc engine → Option (Phase engine)
  | .access _ at' phase => if at' = h then some phase else none
  | _ => none

/-- The task is about to open a storage for the partition. -/
def Pc.reopens (pc : Pc engine) (h : ℕ) : Bool := (pc.phaseAt h).any Phase.reopens

/-- The partitions that a `detach` or `stop` has closed so far. -/
def Pc.closed : Pc engine → List ℕ
  | .closing _ _ closed => closed
  | .returned closed => closed
  | _ => []

theorem phaseAt_access : (Pc.access op k phase).phaseAt h = if k = h then some phase else none :=
  rfl

theorem phaseAt_entry {call : Call keySize} : (entry call : Pc engine).phaseAt h = none := by
  cases call with
  | delete group key bobMeta forceDelete => cases forceDelete <;> rfl
  | _ => rfl

theorem closed_entry {call : Call keySize} : (entry call : Pc engine).closed = [] := by
  cases call with
  | delete group key bobMeta forceDelete => cases forceDelete <;> rfl
  | _ => rfl

theorem phaseAt_next {ok : Bool} : (next cell ok op).phaseAt h = none := by
  unfold next
  split
  · rfl
  · split_ifs <;> rfl
  · rfl
  · rfl

theorem closed_next {ok : Bool} : (next cell ok op).closed = [] := by
  unfold next
  split
  · rfl
  · split_ifs <;> rfl
  · rfl
  · rfl

theorem phaseAt_toPc : (outcome.toPc cell op k).phaseAt h = some phase ↔
    k = h ∧ outcome = .stay phase := by
  cases outcome with
  | stay => simp [Outcome.toPc, Pc.phaseAt]
  | finished => simp [Outcome.toPc, phaseAt_next]

/-- Everything a step can be: it leaves the partitions alone or adds one, it is a step
with one partition, or it closes one. -/
theorem advance_cases (advanced : advance settings config s i pc event = some (s', pc')) :
    ((∀ h, pc.phaseAt h = none) ∧ (∀ h phase, pc'.phaseAt h = some phase → phase = .entering) ∧
      pc'.closed = pc.closed ∧ (∀ h, event ≠ .close h) ∧
      (s'.cells = s.cells ∨ ∃ holder, s'.cells = s.cells ++ [⟨holder, [], none⟩])) ∨
    (∃ op h phase cell cell' outcome, pc = .access op h phase ∧ s.cells[h]? = some cell ∧
      cell.advance i op phase event = some (cell', outcome) ∧ s' = s.setCell h cell' ∧
      pc' = outcome.toPc cell' op h) ∨
    ∃ locked todo closed h cell, pc = .closing locked todo closed ∧ event = .close h ∧
      s.cells[h]? = some cell ∧ cell.readers = [] ∧ s' = s.setCell h (cell.setStorage none) ∧
      pc' = .closing locked (todo.erase h) (h :: closed) := by
  have entering : ∀ {op : Op keySize} {at' : ℕ} (h : ℕ) (phase : Phase engine),
      (Pc.access op at' .entering).phaseAt h = some phase → phase = .entering := by
    intro op at' h phase there
    rw [phaseAt_access] at there
    split_ifs at there
    exact (Option.some.inj there).symm
  unfold advance at advanced
  split at advanced
  case h_3 op h phase =>
    obtain ⟨cell, found, advanced⟩ := Option.bind_eq_some_iff.mp advanced
    obtain ⟨⟨cell', outcome⟩, moved, result⟩ := Option.map_eq_some_iff.mp advanced
    cases result
    exact .inr (.inl ⟨op, h, phase, cell, cell', outcome, rfl, found, moved, rfl, rfl⟩)
  case h_13 locked todo closed h =>
    obtain ⟨cell, found, advanced⟩ := Option.bind_eq_some_iff.mp advanced
    obtain ⟨⟨-, unread⟩, result⟩ := Option.ite_none_right_eq_some.mp advanced
    cases result
    exact .inr (.inr ⟨locked, todo, closed, h, cell, rfl, rfl, found, unread, rfl, rfl⟩)
  all_goals left
  case h_1 group req =>
    obtain ⟨list, -, advanced⟩ := Option.bind_eq_some_iff.mp advanced
    split_ifs at advanced
    split at advanced
    · cases advanced
      exact ⟨fun _ => rfl, entering, rfl, by rintro _ ⟨⟩, .inl rfl⟩
    · cases advanced
      exact ⟨fun _ => rfl, by rintro _ _ ⟨⟩, rfl, by rintro _ ⟨⟩, .inl rfl⟩
  case h_2 group req res =>
    obtain ⟨list, -, advanced⟩ := Option.bind_eq_some_iff.mp advanced
    split at advanced
    · split_ifs at advanced
      cases advanced
      exact ⟨fun _ => rfl, entering, rfl, by rintro _ ⟨⟩, .inl rfl⟩
    · split at advanced
      · split_ifs at advanced
        cases advanced
        exact ⟨fun _ => rfl, entering, rfl, by rintro _ ⟨⟩, .inr ⟨_, rfl⟩⟩
      · split_ifs at advanced
        cases advanced
        exact ⟨fun _ => rfl, by rintro _ _ ⟨⟩, rfl, by rintro _ ⟨⟩, .inl rfl⟩
      · cases advanced
  case h_4 | h_7 =>
    obtain ⟨list, -, advanced⟩ := Option.bind_eq_some_iff.mp advanced
    split_ifs at advanced
    cases advanced
    exact ⟨fun _ => rfl, by rintro _ _ ⟨⟩, rfl, by rintro _ ⟨⟩, .inl rfl⟩
  case h_5 | h_8 =>
    cases advanced
    exact ⟨fun _ => rfl, entering, rfl, by rintro _ ⟨⟩, .inl rfl⟩
  case h_6 | h_9 | h_14 =>
    cases advanced
    exact ⟨fun _ => rfl, by rintro _ _ ⟨⟩, rfl, by rintro _ ⟨⟩, .inl rfl⟩
  case h_10 | h_15 =>
    obtain ⟨list, -, advanced⟩ := Option.map_eq_some_iff.mp advanced
    cases advanced
    exact ⟨fun _ => rfl, by rintro _ _ ⟨⟩, rfl, by rintro _ ⟨⟩, .inl rfl⟩
  case h_11 =>
    obtain ⟨list, -, advanced⟩ := Option.bind_eq_some_iff.mp advanced
    split_ifs at advanced
    all_goals
      cases advanced
      exact ⟨fun _ => rfl, by rintro _ _ ⟨⟩, rfl, by rintro _ ⟨⟩, .inl rfl⟩
  case h_12 =>
    split at advanced
    · split_ifs at advanced
      cases advanced
      exact ⟨fun _ => rfl, by rintro _ _ ⟨⟩, rfl, by rintro _ ⟨⟩, .inl rfl⟩
    · cases advanced
      exact ⟨fun _ => rfl, by rintro _ _ ⟨⟩, rfl, by rintro _ ⟨⟩, .inl rfl⟩
  case h_16 => cases advanced

/-! ## Readers and permits -/

/-- The task has the read lock of the partition. -/
def Shared.ReadBy (s : Shared engine) (h i : ℕ) : Prop :=
  ∃ cell, s.cells[h]? = some cell ∧ i ∈ cell.readers

/-- What the other tasks may rely on when task `i` makes a step with a partition: read
locks are left alone, a storage call has one, and who has the permit afterwards has just
got it or had it before. -/
structure Cell.Shares (i : ℕ) (phase : Phase engine) (cell cell' : Cell engine)
    (outcome : Outcome engine) : Prop where
  readers : ∀ k, k ≠ i → k ∈ cell.readers → k ∈ cell'.readers
  calling : outcome = .stay .calling → i ∈ cell'.readers
  permit : ∀ k, cell'.initProtection = some k →
    (k = i ∧ ∃ phase', outcome = .stay phase' ∧ phase'.permitted = true) ∨
    (cell.initProtection = some k ∧
      (phase.permitted = true → ∃ phase', outcome = .stay phase' ∧ phase'.permitted = true))

theorem afterError_ne_calling {e : Error keySize} :
    (afterError op e : Outcome engine) ≠ .stay .calling := by
  unfold afterError
  split_ifs <;> rintro ⟨⟩

theorem Cell.shares_of_advance
    (advanced : cell.advance i op phase event = some (cell', outcome)) :
    Cell.Shares i phase cell cell' outcome := by
  revert advanced
  fun_cases Cell.advance cell i op phase event
  case case1 =>
    rintro ⟨⟩
    exact ⟨fun _ _ member => member, fun calling => absurd calling afterError_ne_calling,
      fun _ had => .inr ⟨had, by rintro ⟨⟩⟩⟩
  case case2 =>
    rintro ⟨⟩
    exact ⟨fun _ _ member => .tail _ member, fun _ => .head _,
      fun _ had => .inr ⟨had, by rintro ⟨⟩⟩⟩
  case case3 =>
    rintro ⟨⟩
    exact ⟨fun _ ne member => (List.mem_erase_of_ne ne).mpr member, by rintro ⟨⟩,
      fun _ had => .inr ⟨had, by rintro ⟨⟩⟩⟩
  case case4 =>
    intro moved
    obtain ⟨same, rfl⟩ := Prod.mk.inj (Option.some.inj moved)
    subst same
    exact ⟨fun _ ne member => (List.mem_erase_of_ne ne).mpr member,
      fun calling => absurd calling afterError_ne_calling, fun _ had => .inr ⟨had, by rintro ⟨⟩⟩⟩
  case case5 =>
    rintro ⟨⟩
    exact ⟨fun _ _ member => member, by rintro ⟨⟩,
      fun _ got => .inl ⟨(Option.some.inj got).symm, _, rfl, rfl⟩⟩
  case case6 =>
    rintro ⟨⟩
    exact ⟨fun _ _ member => member, by rintro ⟨⟩, fun _ had => .inr ⟨had, by rintro ⟨⟩⟩⟩
  case case7 | case9 =>
    rintro ⟨⟩
    exact ⟨fun _ _ member => member, by rintro ⟨⟩, fun _ had => .inr ⟨had, fun _ => ⟨_, rfl, rfl⟩⟩⟩
  case case10 | case11 =>
    rintro ⟨⟩
    exact ⟨fun _ _ member => member, by rintro ⟨⟩, by rintro _ ⟨⟩⟩
  all_goals rintro ⟨⟩

theorem Shared.getElem?_setCell_ne {at' : ℕ} (ne : at' ≠ h) :
    (s.setCell at' cell).cells[h]? = s.cells[h]? :=
  List.getElem?_set_ne ne

/-- Another task keeps its read lock. -/
theorem Shared.ReadBy.of_advance (read : s.ReadBy h k) (ne : k ≠ i)
    (advanced : advance settings config s i pc event = some (s', pc')) : s'.ReadBy h k := by
  obtain ⟨cell, found, member⟩ := read
  have inside := (List.getElem?_eq_some_iff.mp found).1
  -- a partition that the step replaces has the reader too
  have replaced {at' : ℕ} {old new : Cell engine} (there : s.cells[at']? = some old)
      (kept : k ∈ old.readers → k ∈ new.readers) : (s.setCell at' new).ReadBy h k := by
    by_cases same : at' = h
    · subst same
      cases there.symm.trans found
      exact ⟨new, getElem?_setCell found, kept member⟩
    · exact ⟨cell, (getElem?_setCell_ne same).trans found, member⟩
  obtain ⟨-, -, -, -, cells⟩ | ⟨op, at', phase, old, new, outcome, -, there, moved, rfl, -⟩ |
    ⟨locked, todo, closed, at', old, -, -, there, -, rfl, -⟩ := advance_cases advanced
  · obtain cells | ⟨holder, cells⟩ := cells
    · exact ⟨cell, by rw [cells, found], member⟩
    · exact ⟨cell, by rw [cells, List.getElem?_append_left inside, found], member⟩
  · exact replaced there ((Cell.shares_of_advance moved).readers k ne)
  · exact replaced there id

/-- A storage call has the read lock of its partition. -/
theorem readBy_of_calling {groups : List (List (Holder engine))}
    (run : Relation.ReflTransGen ((program engine settings config).GuardedStep fun _ _ => True)
      (start groups) p) (here : p.tasks[i]? = some pc) (calling : pc.phaseAt h = some .calling) :
    p.shared.ReadBy h i := by
  have initial : (start groups).Sound (fun _ => True)
      (fun s i pc => ∀ h, pc.phaseAt h = some .calling → s.ReadBy h i) := by
    refine ⟨trivial, ?_⟩
    rintro i pc ⟨⟩
  refine (initial.of_reflTransGen ?_ ?_ run).tasks i pc here h calling
  · intro s i call h calling
    cases phaseAt_entry.symm.trans calling
  · intro p i event pc s' pc' sound here _ advanced
    refine ⟨trivial, fun h calling => ?_, fun j other ne _ read h calling =>
      (read h calling).of_advance ne advanced⟩
    obtain ⟨-, entering, -⟩ | ⟨op, at', phase, old, new, outcome, -, there, moved, rfl, rfl⟩ |
      ⟨locked, todo, closed, at', old, -, -, there, -, rfl, rfl⟩ := advance_cases advanced
    · cases entering h _ calling
    · obtain ⟨rfl, stays⟩ := phaseAt_toPc.mp calling
      exact ⟨new, Shared.getElem?_setCell there, (Cell.shares_of_advance moved).calling stays⟩
    · cases calling

/-- Whoever has the permit of a partition is opening its storage. -/
theorem permitted_of_initProtection {groups : List (List (Holder engine))}
    (run : Relation.ReflTransGen ((program engine settings config).GuardedStep fun _ _ => True)
      (start groups) p) (found : p.shared.cells[h]? = some cell)
    (permit : cell.initProtection = some k) :
    ∃ pc phase, p.tasks[k]? = some pc ∧ pc.phaseAt h = some phase ∧ phase.permitted = true := by
  induction run generalizing cell h k with
  | refl =>
    obtain ⟨holder, -, rfl⟩ := Option.map_eq_some_iff.mp (List.getElem?_map ▸ found)
    cases permit
  | @tail p p' _ stepped ih =>
    obtain ⟨action, -, stepped⟩ := stepped
    obtain ⟨call, rfl, rfl⟩ | ⟨i, event, pc, s', pc', rfl, here, advanced, rfl⟩ :=
      Program.step_cases stepped
    · obtain ⟨pc, phase, had, there, permitted⟩ := ih found permit
      refine ⟨pc, phase, ?_, there, permitted⟩
      rw [List.getElem?_append_left (List.getElem?_eq_some_iff.mp had).1, had]
    -- a permit that the step leaves alone, unless the task with the permit goes on
    have kept (had : ∃ pc phase, p.tasks[k]? = some pc ∧ pc.phaseAt h = some phase ∧
        phase.permitted = true)
        (goesOn : ∀ phase, k = i → pc.phaseAt h = some phase → phase.permitted = true →
          ∃ phase', pc'.phaseAt h = some phase' ∧ phase'.permitted = true) :
        ∃ pc phase, (p.tasks.set i pc')[k]? = some pc ∧ pc.phaseAt h = some phase ∧
          phase.permitted = true := by
      obtain ⟨other, phase, there, phaseAt, permitted⟩ := had
      by_cases mine : k = i
      · subst mine
        cases here.symm.trans there
        obtain ⟨phase', phaseAt', permitted'⟩ := goesOn phase rfl phaseAt permitted
        exact ⟨pc', phase', List.getElem?_set_self (List.getElem?_eq_some_iff.mp here).1, phaseAt',
          permitted'⟩
      · exact ⟨other, phase, (List.getElem?_set_ne (Ne.symm mine)).trans there, phaseAt, permitted⟩
    obtain ⟨quiet, -, -, -, cells⟩ |
      ⟨op, at', phase, old, new, outcome, rfl, there, moved, rfl, rfl⟩ |
      ⟨locked, todo, closed, at', old, rfl, -, there, -, rfl, rfl⟩ := advance_cases advanced
    · have before : p.shared.cells[h]? = some cell := by
        obtain cells | ⟨holder, cells⟩ := cells
        · rwa [cells] at found
        · rw [cells] at found
          -- a new partition has no permit out
          rw [List.getElem?_append] at found
          split_ifs at found
          · exact found
          · cases List.mem_singleton.mp (List.mem_of_getElem? found)
            cases permit
      exact kept (ih before permit) fun phase _ there => by cases (quiet h).symm.trans there
    · by_cases same : at' = h
      · subst same
        cases (Shared.getElem?_setCell there).symm.trans found
        obtain ⟨rfl, phase', rfl, permitted⟩ | ⟨had, goesOn⟩ :=
          (Cell.shares_of_advance moved).permit k permit
        · exact ⟨_, phase', List.getElem?_set_self (List.getElem?_eq_some_iff.mp here).1,
            if_pos rfl, permitted⟩
        · refine kept (ih there had) fun phase' _ phaseAt permitted => ?_
          rw [phaseAt_access, if_pos rfl] at phaseAt
          cases phaseAt
          obtain ⟨phase', rfl, permitted'⟩ := goesOn permitted
          exact ⟨phase', if_pos rfl, permitted'⟩
      · rw [Shared.getElem?_setCell_ne same] at found
        refine kept (ih found permit) fun phase' _ phaseAt => ?_
        rw [phaseAt_access, if_neg same] at phaseAt
        cases phaseAt
    · refine kept ?_ (by rintro _ _ ⟨⟩)
      by_cases same : at' = h
      · subst same
        cases (Shared.getElem?_setCell there).symm.trans found
        exact ih there permit
      · rw [Shared.getElem?_setCell_ne same] at found
        exact ih found permit

/-! ## Closed for good -/

/-- The partition is there and has no storage. -/
def Shared.Shut (s : Shared engine) (h : ℕ) : Prop :=
  ∃ cell, s.cells[h]? = some cell ∧ cell.holder.storage = none

theorem Shared.Shut.storageOf_eq_none (shut : s.Shut h) : s.storageOf h = none := by
  obtain ⟨cell, found, closed⟩ := shut
  rw [storageOf, found, Option.bind_some, closed]

theorem Cell.advance_close {at' : ℕ} : cell.advance i op phase (.close at') = none := by
  cases phase <;> rfl

/-- A closing step. -/
theorem close_spec
    (closes : (program engine settings config).step p (.advance i (.close h)) = some p') :
    ∃ locked todo closed cell, p.tasks[i]? = some (.closing locked todo closed) ∧
      p.shared.cells[h]? = some cell ∧ cell.readers = [] ∧
      p' = ⟨p.shared.setCell h (cell.setStorage none),
        p.tasks.set i (.closing locked (todo.erase h) (h :: closed))⟩ := by
  obtain ⟨_, ⟨⟩, -⟩ | ⟨_, _, pc, s', pc', ⟨⟩, here, advanced, rfl⟩ := Program.step_cases closes
  obtain ⟨-, -, -, other, -⟩ | ⟨op, at', phase, old, new, outcome, rfl, there, moved, -⟩ |
    ⟨locked, todo, closed, _, old, rfl, ⟨⟩, there, unread, rfl, rfl⟩ := advance_cases advanced
  · exact absurd rfl (other h)
  · cases Cell.advance_close.symm.trans moved
  · exact ⟨locked, todo, closed, old, here, there, unread, rfl⟩

/-- A request that enters a closed partition leaves it as it is. -/
theorem Cell.advance_of_closed (closed : cell.holder.storage = none)
    (advanced : cell.advance i op .entering event = some (cell', outcome)) :
    cell' = cell ∧ outcome = .finished false := by
  cases event with
  | go =>
    simp only [Cell.advance, closed, afterError, Op.restarts_vdiskIsNotReady] at advanced
    cases advanced
    exact ⟨rfl, rfl⟩
  | _ => cases advanced

/-- A partition that no task calls or reopens stays closed. -/
theorem shut_of_idle (shut : p.shared.Shut h)
    (idle : ∀ (i : ℕ) (pc : Pc engine), p.tasks[i]? = some pc →
      ∀ phase, pc.phaseAt h = some phase → phase = .entering)
    (run : Relation.ReflTransGen ((program engine settings config).GuardedStep fun _ _ => True)
      p q) : q.shared.Shut h := by
  have initial : p.Sound (fun s => s.Shut h)
      (fun _ _ pc => ∀ phase, pc.phaseAt h = some phase → phase = .entering) := ⟨shut, idle⟩
  refine (initial.of_reflTransGen ?_ ?_ run).shared
  · intro s i call phase there
    cases phaseAt_entry.symm.trans there
  intro p i event pc s' pc' sound here _ advanced
  obtain ⟨cell, found, closed⟩ := sound.shared
  have own := sound.tasks i pc here
  rw [← and_assoc]
  refine ⟨?_, fun _ _ _ _ relies => relies⟩
  obtain ⟨-, entering, -, -, cells⟩ |
    ⟨op, at', phase, old, new, outcome, rfl, there, moved, rfl, rfl⟩ |
    ⟨locked, todo, closedSoFar, at', old, rfl, -, there, -, rfl, rfl⟩ := advance_cases advanced
  · refine ⟨⟨cell, ?_, closed⟩, entering h⟩
    obtain cells | ⟨holder, cells⟩ := cells
    · rw [cells, found]
    · rw [cells, List.getElem?_append_left (List.getElem?_eq_some_iff.mp found).1, found]
  · by_cases same : at' = h
    · subst same
      cases there.symm.trans found
      cases own phase (if_pos rfl)
      obtain ⟨rfl, rfl⟩ := Cell.advance_of_closed closed moved
      refine ⟨⟨new, Shared.getElem?_setCell found, closed⟩, fun phase stays => ?_⟩
      cases phaseAt_next.symm.trans stays
    · refine ⟨⟨cell, (Shared.getElem?_setCell_ne same).trans found, closed⟩, fun phase stays => ?_⟩
      exact absurd (phaseAt_toPc.mp stays).1 same
  · refine ⟨?_, by rintro _ ⟨⟩⟩
    by_cases same : at' = h
    · subst same
      exact ⟨_, Shared.getElem?_setCell there, rfl⟩
    · exact ⟨cell, (Shared.getElem?_setCell_ne same).trans found, closed⟩

/-- The partition may be open again. -/
def Reopens (settings : Settings) (config : StartTimestampConfig)
    (p : Pool (Shared engine) (Pc engine)) (h : ℕ) : Prop :=
  ∃ q, Relation.ReflTransGen ((program engine settings config).GuardedStep fun _ _ => True) p q ∧
    q.shared.storageOf h ≠ none

theorem Reopens.head (first : (program engine settings config).GuardedStep (fun _ _ => True) p q)
    (later : Reopens settings config q h) : Reopens settings config p h := by
  obtain ⟨last, run, opened⟩ := later
  exact ⟨last, .head first run, opened⟩

/-- A request that is about to reopen a closed partition can do so. -/
theorem reopens_of_phase (storage : engine.Storage) (found : p.shared.cells[h]? = some cell)
    (unread : cell.readers = []) (closed : cell.holder.storage = none)
    (here : p.tasks[k]? = some (.access op h phase)) (reopens : phase.reopens = true)
    (permit : phase.permitted = true ∨ cell.initProtection = none) :
    Reopens settings config p h := by
  have there {p : Pool (Shared engine) (Pc engine)} {phase phase' : Phase engine}
      {s : Shared engine} (here : p.tasks[k]? = some (.access op h phase)) :
      (⟨s, p.tasks.set k (.access op h phase')⟩ : Pool (Shared engine) (Pc engine)).tasks[k]? =
        some (.access op h phase') :=
    List.getElem?_set_self (List.getElem?_eq_some_iff.mp here).1
  -- from the last phase to the first
  have installing {p : Pool (Shared engine) (Pc engine)} {cell : Cell engine}
      {fresh : engine.Storage} (found : p.shared.cells[h]? = some cell)
      (unread : cell.readers = []) (closed : cell.holder.storage = none)
      (here : p.tasks[k]? = some (.access op h (.installing fresh))) :
      Reopens settings config p h := by
    have moved : cell.advance k op (.installing fresh) .go =
        some ({ cell.setStorage (some fresh) with initProtection := none }, .finished false) :=
      if_pos ⟨unread, closed⟩
    refine ⟨_, .single (step_access here found moved), ?_⟩
    simp [Shared.storageOf, Shared.getElem?_setCell found, Cell.setStorage]
  have opening {p : Pool (Shared engine) (Pc engine)} {cell : Cell engine}
      (found : p.shared.cells[h]? = some cell) (unread : cell.readers = [])
      (closed : cell.holder.storage = none)
      (here : p.tasks[k]? = some (.access op h .opening)) : Reopens settings config p h := by
    have moved : cell.advance k op .opening (.opened (.ok storage)) =
        some (cell, .stay (.installing storage)) := rfl
    exact .head (step_access here found moved)
      (installing (Shared.getElem?_setCell found) unread closed (there here))
  have resetting {p : Pool (Shared engine) (Pc engine)} {cell : Cell engine}
      (found : p.shared.cells[h]? = some cell) (unread : cell.readers = [])
      (here : p.tasks[k]? = some (.access op h .resetting)) : Reopens settings config p h := by
    have moved : cell.advance k op .resetting .go =
        some (cell.setStorage none, .stay .opening) := if_pos unread
    exact .head (step_access here found moved)
      (opening (Shared.getElem?_setCell found) unread rfl (there here))
  cases phase with
  | entering | calling => cases reopens
  | failed =>
    obtain ⟨⟨⟩⟩ | free := permit
    have moved : cell.advance k op .failed .go =
        some ({ cell with initProtection := some k }, .stay .resetting) := by
      simp [Cell.advance, free]
    exact .head (step_access here found moved)
      (resetting (Shared.getElem?_setCell found) unread (there here))
  | resetting => exact resetting found unread here
  | opening => exact opening found unread closed here
  | installing fresh => exact installing found unread closed here

theorem exists_access_of_phaseAt (there : pc.phaseAt h = some phase) :
    ∃ op, pc = .access op h phase := by
  cases pc with
  | access op at' phase' =>
    rw [phaseAt_access] at there
    split_ifs at there with same
    cases there
    exact ⟨op, by rw [same]⟩
  | _ => cases there

/-- A partition is closed for good if and only if no request is about to reopen it. -/
theorem not_reopens_iff (storage : engine.Storage) {groups : List (List (Holder engine))}
    (run : Relation.ReflTransGen ((program engine settings config).GuardedStep fun _ _ => True)
      (start groups) p)
    (closes : (program engine settings config).step p (.advance i (.close h)) = some p') :
    ¬ Reopens settings config p' h ↔ ∀ pc ∈ p.tasks, pc.reopens h = false := by
  obtain ⟨locked, todo, closed, cell, closer, found, unread, rfl⟩ := close_spec closes
  have shut := @Shared.getElem?_setCell _ _ _ _ (cell.setStorage none) _ found
  constructor
  · intro never pc member
    by_contra reopens
    -- any task that has the phase in the state before has it afterwards
    have reopened {j : ℕ} {pc : Pc engine} {phase : Phase engine} (there : p.tasks[j]? = some pc)
        (phaseAt : pc.phaseAt h = some phase) (reopens : phase.reopens = true)
        (permit : phase.permitted = true ∨ cell.initProtection = none) : False := by
      obtain ⟨op, rfl⟩ := exists_access_of_phaseAt phaseAt
      have ne : i ≠ j := by
        rintro rfl
        cases closer.symm.trans there
      exact never (reopens_of_phase storage shut unread rfl ((List.getElem?_set_ne ne).trans there)
        reopens permit)
    obtain ⟨j, there⟩ := List.getElem?_of_mem member
    obtain ⟨phase, phaseAt, reopens⟩ := (Option.any_eq_true _ _).mp (eq_true_of_ne_false reopens)
    cases permit : cell.initProtection with
    | none => exact reopened there phaseAt reopens (.inr permit)
    | some owner =>
      obtain ⟨pc, phase, there, phaseAt, permitted⟩ := permitted_of_initProtection run found permit
      exact reopened there phaseAt (Phase.reopens_of_permitted permitted) (.inl permitted)
  · rintro nobody ⟨q, later, opened⟩
    refine opened (shut_of_idle ⟨_, shut, rfl⟩ ?_ later).storageOf_eq_none
    intro j pc there phase phaseAt
    by_cases mine : i = j
    · subst mine
      rw [List.getElem?_set_self (List.getElem?_eq_some_iff.mp closer).1] at there
      cases there
      cases phaseAt
    · rw [List.getElem?_set_ne mine] at there
      have quiet := nobody pc (List.mem_of_getElem? there)
      rw [Pc.reopens, phaseAt, Option.any_some] at quiet
      cases phase with
      | entering => rfl
      | calling =>
        obtain ⟨read, there, reader⟩ := readBy_of_calling run there phaseAt
        cases found.symm.trans there
        rw [unread] at reader
        cases reader
      | failed | resetting | opening | installing => cases quiet

/-! ## Along a run -/

/-- No partition is closed while a request is about to reopen it. -/
def Safe (p : Pool (Shared engine) (Pc engine)) : Action (Call keySize) (Event engine) → Prop
  | .advance _ (.close h) => ∀ pc ∈ p.tasks, pc.reopens h = false
  | _ => True

/-- A partition that a task has closed was closed in a step of the run. -/
theorem exists_close {guard : Pool (Shared engine) (Pc engine) →
      Action (Call keySize) (Event engine) → Prop} {groups : List (List (Holder engine))}
    (run : Relation.ReflTransGen ((program engine settings config).GuardedStep guard)
      (start groups) q)
    (here : q.tasks[i]? = some pc) (closed : h ∈ pc.closed) :
    ∃ p p' j,
      Relation.ReflTransGen ((program engine settings config).GuardedStep guard)
        (start groups) p ∧
      guard p (.advance j (.close h)) ∧
      (program engine settings config).step p (.advance j (.close h)) = some p' ∧
      Relation.ReflTransGen ((program engine settings config).GuardedStep guard) p' q := by
  induction run generalizing i pc with
  | refl => cases here
  | @tail p p' run stepped ih =>
    have earlier {i : ℕ} {pc : Pc engine} (here : p.tasks[i]? = some pc) (closed : h ∈ pc.closed) :=
      (ih here closed).imp fun _ => Exists.imp fun _ => Exists.imp fun _ =>
        And.imp_right (And.imp_right (And.imp_right fun later => later.tail stepped))
    obtain ⟨action, allowed, moved⟩ := stepped
    obtain ⟨call, rfl, rfl⟩ | ⟨j, event, pc', s', pc'', rfl, there, advanced, rfl⟩ :=
      Program.step_cases moved
    · rw [List.getElem?_append] at here
      split_ifs at here
      · exact earlier here closed
      · cases List.mem_singleton.mp (List.mem_of_getElem? here)
        rw [program, closed_entry] at closed
        cases closed
    by_cases mine : j = i
    · subst mine
      rw [List.getElem?_set_self (List.getElem?_eq_some_iff.mp there).1] at here
      cases here
      obtain ⟨-, -, same, -⟩ | ⟨op, at', phase, old, new, outcome, rfl, -, -, -, rfl⟩ |
        ⟨locked, todo, before, at', old, rfl, rfl, -, -, -, rfl⟩ := advance_cases advanced
      · exact earlier there (same ▸ closed)
      · cases outcome with
        | stay => cases closed
        | finished =>
          rw [Outcome.toPc, closed_next] at closed
          cases closed
      · obtain rfl | closed := List.mem_cons.mp closed
        · exact ⟨p, _, j, run, allowed, moved, .refl⟩
        · exact earlier there closed
    · rw [List.getElem?_set_ne mine] at here
      exact earlier here closed

/-- If no partition is closed while a request is about to reopen it, then the
partitions that a `detach` or `stop` has closed have no storage, from its return on. And
that is what it takes: a partition that is closed in a step is never open again if and
only if no request is about to reopen it in that step. -/
theorem closed_stays_closed_iff (storage : engine.Storage)
    (groups : List (List (Holder engine))) :
    (∀ (q : Pool (Shared engine) (Pc engine)) (i : ℕ) (closed : List ℕ),
      Relation.ReflTransGen ((program engine settings config).GuardedStep Safe) (start groups) q →
      q.tasks[i]? = some (.returned closed) → ∀ h ∈ closed, q.shared.storageOf h = none) ∧
    ∀ p p' i h,
      Relation.ReflTransGen ((program engine settings config).GuardedStep fun _ _ => True)
        (start groups) p →
      (program engine settings config).step p (.advance i (.close h)) = some p' →
      ((∀ q, Relation.ReflTransGen
          ((program engine settings config).GuardedStep fun _ _ => True) p' q →
          q.shared.storageOf h = none) ↔
        ∀ pc ∈ p.tasks, pc.reopens h = false) := by
  have closedForGood {p p' : Pool (Shared engine) (Pc engine)} {i h : ℕ}
      (run : Relation.ReflTransGen ((program engine settings config).GuardedStep fun _ _ => True)
        (start groups) p)
      (closes : (program engine settings config).step p (.advance i (.close h)) = some p') :
      (∀ q, Relation.ReflTransGen
          ((program engine settings config).GuardedStep fun _ _ => True) p' q →
          q.shared.storageOf h = none) ↔
        ∀ pc ∈ p.tasks, pc.reopens h = false := by
    rw [← not_reopens_iff storage run closes, Reopens]
    push Not
    rfl
  refine ⟨fun q i closed run here h member => ?_, fun _ _ _ _ => closedForGood⟩
  obtain ⟨p, p', j, before, safe, closes, later⟩ := exists_close run here member
  have anyRun {p p' : Pool (Shared engine) (Pc engine)}
      (run : Relation.ReflTransGen ((program engine settings config).GuardedStep Safe) p p') :
      Relation.ReflTransGen ((program engine settings config).GuardedStep fun _ _ => True) p p' :=
    run.lift id fun _ _ => Program.GuardedStep.mono fun _ _ _ => trivial
  exact (closedForGood (anyRun before) closes).mpr safe q (anyRun later)

end Steps

/-! ## One partition, a put, and a `detach` or `stop` -/

instance (p : Pool (Shared engine) (Pc engine)) :
    (action : Action (Call keySize) (Event engine)) → Decidable (Safe p action)
  | .advance _ (.close h) => inferInstanceAs (Decidable (∀ pc ∈ p.tasks, pc.reopens h = false))
  | .call _ | .advance _ .go | .advance _ (.answered _) | .advance _ (.opened _)
  | .advance _ .skip | .advance _ (.removing _ _) => isTrue trivial

def daily : Settings := ⟨.ofDays 1, none, none, fun _ => true⟩

/-- One group, with the partition of the first day. -/
def firstDay : List (List (Holder (logEngine 8))) := [[⟨0, 86400, some []⟩]]

/-- A put finds the partition, and its storage call fails. -/
def failingPut : List (Action (Call 8) (Event (logEngine 8))) :=
  [.call (.put 0 ⟨.replicate 8 0⟩ ⟨[], ⟨5⟩⟩), .advance 0 .go, .advance 0 .go,
    .advance 0 (.answered (some (.pearl "io")))]

/-- It reopens the partition. -/
def reopening : List (Action (Call 8) (Event (logEngine 8))) :=
  [.advance 0 .go, .advance 0 .go, .advance 0 (.opened (.ok [])), .advance 0 .go]

/-- The partition is detached on the second day. -/
def detaching : List (Action (Call 8) (Event (logEngine 8))) :=
  [.call (.detach 0 0), .advance 1 (.removing 100000 [0]), .advance 1 (.close 0), .advance 1 .go]

def stopping : List (Action (Call 8) (Event (logEngine 8))) :=
  [.call .stop, .advance 1 .go, .advance 1 .go, .advance 1 (.close 0), .advance 1 .go]

/-- A put whose call has failed reopens the partition that `detach`, or `stop`, has
closed and returned. -/
theorem put_reopens_after_return :
    (∃ q, Relation.ReflTransGen
        ((program (logEngine 8) daily .default).GuardedStep fun _ _ => True) (start firstDay) q ∧
      q.tasks[1]? = some (.returned [0]) ∧ q.shared.storageOf 0 = some []) ∧
    ∃ q, Relation.ReflTransGen
        ((program (logEngine 8) daily .default).GuardedStep fun _ _ => True) (start firstDay) q ∧
      q.tasks[1]? = some (.returned [0]) ∧ q.shared.storageOf 0 = some [] := by
  constructor
  · obtain ⟨q, followed, outcome⟩ : ∃ q,
        (program _ daily .default).follow (fun _ _ => True) (start firstDay)
          (failingPut ++ detaching ++ reopening) = some q ∧
        (q.tasks[1]?, q.shared.storageOf 0) = (some (.returned [0]), some []) := by
      apply Option.map_eq_some_iff.mp
      rfl
    exact ⟨q, Program.reflTransGen_of_follow followed, Prod.mk.inj outcome⟩
  · obtain ⟨q, followed, outcome⟩ : ∃ q,
        (program _ daily .default).follow (fun _ _ => True) (start firstDay)
          (failingPut ++ stopping ++ reopening) = some q ∧
        (q.tasks[1]?, q.shared.storageOf 0) = (some (.returned [0]), some []) := by
      apply Option.map_eq_some_iff.mp
      rfl
    exact ⟨q, Program.reflTransGen_of_follow followed, Prod.mk.inj outcome⟩

/-- A put that has reopened the partition before `detach` closes it does no harm. -/
theorem detach_after_reopening : ∃ q,
    Relation.ReflTransGen ((program (logEngine 8) daily .default).GuardedStep Safe)
      (start firstDay) q ∧
    q.tasks[1]? = some (.returned [0]) ∧ q.shared.storageOf 0 = none := by
  obtain ⟨q, followed, returned⟩ : ∃ q,
      (program _ daily .default).follow Safe (start firstDay)
        (failingPut ++ reopening ++ detaching) = some q ∧
      q.tasks[1]? = some (.returned [0]) := by
    apply Option.map_eq_some_iff.mp
    rfl
  have reached := Program.reflTransGen_of_follow followed
  have closed := (closed_stays_closed_iff [] firstDay).1 q 1 [0] reached returned
  exact ⟨q, reached, returned, closed 0 (List.mem_singleton_self 0)⟩

end Closing

end Bob.Backend

/-
# Opening and closing the storage of a partition

The storage of a partition stands behind a lock. Reads and writes use it under the read
lock. `close_storage` takes it out and closes it, all under the write lock.
`try_reinit` has the write lock twice, to take the old storage out and to put the new
one in; in between it closes the one and creates the other without the lock, but with
the only permit of a semaphore.

The storages of a partition are numbered as their creation begins, and a log says what
becomes of each. Whatever the interleaving, a storage is never put where another one
is, and a creation begins only when all earlier storages are closed or have failed.
-/

import Bob.Math.Interleaving
import Bob.Math.Trace
import Bob.Backend.Group

namespace Bob.Backend

open Bob.Math

variable {keySize : ℕ} {engine : StorageEngine keySize}

namespace HolderProtocol

/-! ## The state behind the lock -/

inductive PearlState (S : Type)
  | initializing
  | running (storage : S)
  deriving DecidableEq, Repr

namespace PearlState

variable {S : Type}

def get : PearlState S → Option S
  | initializing => none
  | running storage => some storage

@[simp] theorem get_initializing : (initializing : PearlState S).get = none := rfl

@[simp] theorem get_running (storage : S) : (running storage).get = some storage := rfl

def isReady : PearlState S → Bool
  | initializing => false
  | running _ => true

def setReady (state : PearlState S) (storage : S) : Except (Error keySize) (PearlState S) :=
  if state.isReady then
    .error (.failed "Pearl storage already initialized. Please, close previous before")
  else .ok (running storage)

/-- What was there, and what is left. -/
def reset (state : PearlState S) : Option S × PearlState S := (state.get, initializing)

end PearlState

/-! ## What the tasks share -/

/-- What becomes of the storages of a partition. -/
inductive Change
  /-- The creation of a storage begins. -/
  | begun (number : ℕ)
  /-- Its creation has failed. -/
  | failed (number : ℕ)
  | closed (number : ℕ)
  deriving DecidableEq, Repr

/-- A storage, and its number among all those of the partition. -/
structure Opened (engine : StorageEngine keySize) where
  number : ℕ
  storage : engine.Storage

structure Shared (engine : StorageEngine keySize) where
  state : PearlState (Opened engine)
  /-- The tasks with the read lock of the state. -/
  readers : List ℕ
  /-- The task that keeps the write lock. -/
  writer : Option ℕ
  /-- The task with the permit. -/
  initProtection : Option ℕ
  log : List Change

namespace Shared

def fresh : Shared engine := ⟨.initializing, [], none, none, []⟩

/-- Nobody has the lock of the state. -/
def free (s : Shared engine) : Bool := s.writer.isNone && s.readers.isEmpty

def record (s : Shared engine) (change : Change) : Shared engine :=
  { s with log := s.log ++ [change] }

/-- The number of storages so far. -/
def created (log : List Change) : ℕ :=
  log.countP fun change => change matches .begun _

end Shared

/-! ## The tasks -/

/-- The calls that use a storage. -/
inductive Access (keySize : ℕ)
  | write (key : BobKey keySize) (data : BobData)
  | read (key : BobKey keySize)
  | exist (key : BobKey keySize)
  | delete (key : BobKey keySize) (bobMeta : BobMeta) (forceDelete : Bool)

/-- What a call makes of the storage, as the engine answers it. -/
def Access.call (storage : engine.Storage) :
    Access keySize → Except (Error keySize) engine.Storage
  | write key data => (engine.write storage key data).mapError PearlError.onWrite
  | read key => ((engine.read storage key).map fun _ => storage).mapError PearlError.onAccess
  | exist key => ((engine.contains storage key).map fun _ => storage).mapError PearlError.onAccess
  | delete key bobMeta forceDelete =>
    ((engine.delete storage key bobMeta.timestamp.toNat (!forceDelete)).map Prod.fst).mapError
      PearlError.onAccess

/-- A failure of the engine, as the caller sees it. -/
def Access.failure : Access keySize → PearlError → Error keySize
  | write _ _, e => e.onWrite
  | _, e => e.onAccess

inductive Call (keySize : ℕ)
  | tryReinit
  | closeStorage
  | access (access : Access keySize)

/-- Where a task is. -/
inductive Pc (engine : StorageEngine keySize)
  /-- `prepare_storage` waits for the permit. -/
  | preparing
  | tryReinit
  /-- It has the permit, and waits for the write lock. -/
  | resetting
  | closingOld (old : Opened engine)
  | starting
  | creating (number : ℕ)
  /-- It has a new storage, and waits for the write lock. -/
  | installing (opened : Opened engine)
  /-- The storage is in its place. The permit goes last. -/
  | releasing
  | closeStorage
  /-- `close_storage` flushes and closes under the write lock. -/
  | closing (opened : Opened engine)
  | access (access : Access keySize)
  /-- The call is under way, under the read lock. -/
  | accessing (access : Access keySize)
  | returned (result : Except (Error keySize) Unit)
  /-- An `expect` has failed. -/
  | panicked (panic : Panic)

/-- What a task learns from outside as it advances. -/
inductive Event (engine : StorageEngine keySize)
  | go
  /-- The creation of a storage ends. -/
  | created (result : Except OpenError engine.Storage)
  /-- The storage call ends, with a failure or as the engine says. -/
  | answered (failure : Option PearlError)

def entry : Call keySize → Pc engine
  | .tryReinit => .tryReinit
  | .closeStorage => .closeStorage
  | .access access => .access access

/-- One step of task `i`. A lock that is not kept over an `await` is taken and given
back in one step. -/
def advance (s : Shared engine) (i : ℕ) :
    Pc engine → Event engine → Option (Shared engine × Pc engine)
  | .preparing, .go =>
    if s.initProtection = none then some ({ s with initProtection := some i }, .starting)
    else none
  | .tryReinit, .go =>
    match s.initProtection with
    | none => some ({ s with initProtection := some i }, .resetting)
    | some _ => some (s, .returned (.error .holderTemporaryUnavailable))
  | .resetting, .go =>
    if s.free then
      let (old, state) := s.state.reset
      match old with
      | some old => some ({ s with state := state }, .closingOld old)
      | none => some ({ s with state := state }, .starting)
    else none
  -- whether closing fails makes no difference
  | .closingOld old, .go => some (s.record (.closed old.number), .starting)
  | .starting, .go =>
    some (s.record (.begun (Shared.created s.log)), .creating (Shared.created s.log))
  | .creating number, .created (.ok storage) => some (s, .installing ⟨number, storage⟩)
  | .creating number, .created (.error e) =>
    some ({ s.record (.failed number) with initProtection := none }, .returned (.error e.toError))
  | .installing opened, .go =>
    if s.free then
      match (s.state.setReady opened : Except (Error keySize) _) with
      | .ok state => some ({ s with state := state }, .releasing)
      | .error _ =>
        some ({ s with initProtection := none }, .panicked ⟨"Storage setting successful"⟩)
    else none
  | .releasing, .go => some ({ s with initProtection := none }, .returned (.ok ()))
  | .closeStorage, .go =>
    if s.free then
      let (old, state) := s.state.reset
      match old with
      | some old => some ({ s with state := state, writer := some i }, .closing old)
      | none => some ({ s with state := state }, .returned (.ok ()))
    else none
  | .closing old, .go =>
    some ({ s.record (.closed old.number) with writer := none }, .returned (.ok ()))
  | .access access, .go =>
    if s.writer = none then
      match s.state.get with
      | some _ => some ({ s with readers := i :: s.readers }, .accessing access)
      | none => some (s, .returned (.error .vdiskIsNotReady))
    else none
  | .accessing access, .answered failure =>
    match s.state with
    | .running opened =>
      match failure.elim (access.call opened.storage) fun e => .error (access.failure e) with
      | .ok storage =>
        some ({ s with
          state := .running { opened with storage := storage }
          readers := s.readers.erase i }, .returned (.ok ()))
      | .error e => some ({ s with readers := s.readers.erase i }, .returned (.error e))
    | .initializing => none
  | _, _ => none

def program (engine : StorageEngine keySize) :
    Program (Shared engine) (Pc engine) (Call keySize) (Event engine) where
  entry := entry
  advance := advance

/-- A new partition, with the call that prepares its storage. -/
def start (engine : StorageEngine keySize) : Pool (Shared engine) (Pc engine) :=
  ⟨.fresh, [.preparing]⟩

/-- The first task has returned. -/
def prepared (p : Pool (Shared engine) (Pc engine)) : Bool :=
  match (p.tasks[0]? : Option (Pc engine)) with
  | some (.returned _) => true
  | _ => false

/-- The partition is shared once its storage has been prepared. -/
def afterPreparing (p : Pool (Shared engine) (Pc engine)) :
    Action (Call keySize) (Event engine) → Prop
  | .advance 0 _ => True
  | _ => prepared p = true

/-! ## Calls that nobody disturbs -/

/-- The partition, with the storage that is behind the lock. -/
def Shared.holder (s : Shared engine) (holder : Holder engine) : Holder engine :=
  { holder with storage := s.state.get.map (·.storage) }

section Alone

variable {s : Shared engine}

/-- The steps of a task that is alone. -/
abbrev Alone (engine : StorageEngine keySize) :
    Pool (Shared engine) (Pc engine) → Pool (Shared engine) (Pc engine) → Prop :=
  (program engine).GuardedStep fun _ _ => True

theorem alone_step {s s' : Shared engine} {pc pc' : Pc engine} (event : Event engine)
    (advanced : advance s 0 pc event = some (s', pc')) : Alone engine ⟨s, [pc]⟩ ⟨s', [pc']⟩ :=
  @Program.guardedStep_of_advance _ _ _ _ (program engine) ⟨s, [pc]⟩ _ 0 pc event _ rfl advanced
    trivial

/-- From the creation of a storage on, `try_reinit` and `prepare_storage` are one. -/
theorem create_alone (state : s.state = .initializing) (free : s.free = true)
    (result : Except OpenError engine.Storage) :
    ∃ s', s'.state.get.map (·.storage) = result.toOption ∧
      Relation.ReflTransGen (Alone engine) ⟨s, [.starting]⟩
        ⟨s', [.returned ((result.map fun _ => ()).mapError OpenError.toError)]⟩ := by
  let begun := s.record (.begun (Shared.created s.log))
  have start : Alone engine ⟨s, [.starting]⟩ ⟨begun, [.creating (Shared.created s.log)]⟩ :=
    alone_step .go rfl
  cases result with
  | error e =>
    have fail : Alone engine ⟨begun, [.creating (Shared.created s.log)]⟩
        ⟨{ begun.record (.failed (Shared.created s.log)) with initProtection := none },
          [.returned (.error e.toError)]⟩ := alone_step (.created (.error e)) rfl
    refine ⟨_, ?_, .head start (.single fail)⟩
    simp [begun, Shared.record, state, Except.toOption]
  | ok storage =>
    let opened : Opened engine := ⟨Shared.created s.log, storage⟩
    have create : Alone engine ⟨begun, [.creating (Shared.created s.log)]⟩
        ⟨begun, [.installing opened]⟩ := alone_step (.created (.ok storage)) rfl
    have unlocked : begun.free = true := free
    have empty : begun.state = .initializing := state
    have install : Alone engine ⟨begun, [.installing opened]⟩
        ⟨{ begun with state := .running opened }, [.releasing]⟩ := by
      apply alone_step .go
      simp [advance, unlocked, empty, PearlState.setReady, PearlState.isReady]
    have release : Alone engine ⟨{ begun with state := .running opened }, [.releasing]⟩
        ⟨{ begun with state := .running opened, initProtection := none }, [.returned (.ok ())]⟩ :=
      alone_step .go rfl
    exact ⟨_, rfl, .head start (.head create (.head install (.single release)))⟩

theorem tryReinit_alone (free : s.free = true) (permit : s.initProtection = none)
    (holder : Holder engine) :
    ∃ s' result, s'.holder holder = (s.holder holder).tryReinit ∧
      Relation.ReflTransGen (Alone engine) ⟨s, [.tryReinit]⟩ ⟨s', [.returned result]⟩ := by
  let permitted : Shared engine := { s with initProtection := some 0 }
  have unlocked : permitted.free = true := free
  have acquire : Alone engine ⟨s, [.tryReinit]⟩ ⟨permitted, [.resetting]⟩ := by
    apply alone_step .go
    simp [advance, permit, permitted]
  let emptied : Shared engine := { permitted with state := .initializing }
  -- what is created depends on what was closed
  cases old : s.state with
  | initializing =>
    have reset : Alone engine ⟨permitted, [.resetting]⟩ ⟨emptied, [.starting]⟩ := by
      apply alone_step .go
      rw [advance, if_pos unlocked]
      simp [permitted, emptied, old, PearlState.reset]
    obtain ⟨s', state, run⟩ := @create_alone _ _ emptied rfl free (engine.openDir [])
    refine ⟨s', _, ?_, .head acquire (.head reset run)⟩
    simp [Shared.holder, state, Holder.tryReinit, old]
  | running opened =>
    have reset : Alone engine ⟨permitted, [.resetting]⟩ ⟨emptied, [.closingOld opened]⟩ := by
      apply alone_step .go
      rw [advance, if_pos unlocked]
      simp [permitted, emptied, old, PearlState.reset]
    have close : Alone engine ⟨emptied, [.closingOld opened]⟩
        ⟨emptied.record (.closed opened.number), [.starting]⟩ := alone_step .go rfl
    obtain ⟨s', state, run⟩ := @create_alone _ _ (emptied.record (.closed opened.number)) rfl free
      (engine.openDir [opened.storage])
    refine ⟨s', _, ?_, .head acquire (.head reset (.head close run))⟩
    simp [Shared.holder, state, Holder.tryReinit, old]

theorem prepareStorage_alone (holder : Holder engine) (onDisk : List engine.Storage) :
    ∃ s' result, Relation.ReflTransGen (Alone engine) (start engine) ⟨s', [.returned result]⟩ ∧
      holder.prepareStorage onDisk = result.map fun _ => s'.holder holder := by
  let permitted : Shared engine := { (Shared.fresh : Shared engine) with initProtection := some 0 }
  have acquire : Alone engine (start engine) ⟨permitted, [.starting]⟩ := alone_step .go rfl
  obtain ⟨s', state, run⟩ := @create_alone _ _ permitted rfl rfl (engine.openDir onDisk)
  refine ⟨s', _, .head acquire run, ?_⟩
  rw [Holder.prepareStorage, Shared.holder, state]
  cases engine.openDir onDisk <;> rfl

/-- The call, as `Holder` has it. -/
def Access.onHolder (holder : Holder engine) :
    Access keySize → Except (Error keySize) (Holder engine)
  | write key data => holder.write key data
  | read key => (holder.read key).map fun _ => holder
  | exist key => (holder.exist key).map fun _ => holder
  | delete key bobMeta forceDelete => (holder.delete key bobMeta forceDelete).map Prod.fst

theorem Access.onHolder_eq (access : Access keySize) (holder : Holder engine) :
    access.onHolder holder =
      match holder.storage with
      | none => .error .vdiskIsNotReady
      | some storage =>
        (access.call storage).map fun written => { holder with storage := some written } := by
  obtain ⟨first, last, storage⟩ := holder
  cases storage with
  | none => cases access <;> rfl
  | some storage =>
    cases access with
    | write key data =>
      simp only [onHolder, Holder.write, call]
      cases engine.write storage key data <;> rfl
    | read key =>
      simp only [onHolder, Holder.read, call]
      cases engine.read storage key <;> rfl
    | exist key =>
      simp only [onHolder, Holder.exist, call]
      cases engine.contains storage key <;> rfl
    | delete key bobMeta forceDelete =>
      simp only [onHolder, Holder.delete, call]
      cases engine.delete storage key bobMeta.timestamp.toNat (!forceDelete) <;> rfl

theorem access_alone (unlocked : s.writer = none) (access : Access keySize)
    (holder : Holder engine) :
    ∃ s' result,
      Relation.ReflTransGen (Alone engine) ⟨s, [.access access]⟩ ⟨s', [.returned result]⟩ ∧
      access.onHolder (s.holder holder) = result.map fun _ => s'.holder holder := by
  obtain ⟨state, readers, writer, initProtection, log⟩ := s
  subst unlocked
  cases state with
  | initializing =>
    refine ⟨_, .error .vdiskIsNotReady, .single (alone_step .go rfl), ?_⟩
    simp [Access.onHolder_eq, Shared.holder, Except.map]
  | running opened =>
    let locked : Shared engine := ⟨.running opened, 0 :: readers, none, initProtection, log⟩
    have enter : Alone engine ⟨⟨.running opened, readers, none, initProtection, log⟩,
        [.access access]⟩ ⟨locked, [.accessing access]⟩ := alone_step .go rfl
    cases answer : access.call opened.storage with
    | ok storage =>
      have leave : Alone engine ⟨locked, [.accessing access]⟩
          ⟨{ locked with
              state := .running { opened with storage := storage }
              readers := locked.readers.erase 0 }, [.returned (.ok ())]⟩ := by
        apply alone_step (.answered none)
        simp [advance, locked, answer]
      refine ⟨_, .ok (), .head enter (.single leave), ?_⟩
      simp [Access.onHolder_eq, Shared.holder, answer, Except.map]
    | error e =>
      have leave : Alone engine ⟨locked, [.accessing access]⟩
          ⟨{ locked with readers := locked.readers.erase 0 }, [.returned (.error e)]⟩ := by
        apply alone_step (.answered none)
        simp [advance, locked, answer]
      refine ⟨_, .error e, .head enter (.single leave), ?_⟩
      simp [Access.onHolder_eq, Shared.holder, answer, Except.map]

end Alone

/-! ## The log -/

/-- The storage that comes to an end. -/
def Change.ends : Change → Option ℕ
  | begun _ => none
  | failed number => some number
  | closed number => some number

def Ended (log : List Change) (n : ℕ) : Prop := ∃ change ∈ log, change.ends = some n

/-- The storage is open, or being created. -/
def IsOpen (log : List Change) (n : ℕ) : Prop := .begun n ∈ log ∧ ¬ Ended log n

/-- A creation begins only when all storages before it have come to an end. -/
def OthersEnded (before : List Change) : Change → Prop
  | .begun _ => ∀ n, .begun n ∈ before → Ended before n
  | _ => True

/-- The storages are numbered in the order of their creation, the next one begins when the
others have ended, and `current` is the one that is open. -/
structure InOrder (log : List Change) (current : Option ℕ) : Prop where
  begun : ∀ n, .begun n ∈ log ↔ n < Shared.created log
  ended : ∀ n, Ended log n → .begun n ∈ log
  isOpen : ∀ n, IsOpen log n ↔ current = some n
  guarded : Guarded OthersEnded log

namespace InOrder

variable {log : List Change} {n : ℕ} {current : Option ℕ} {change : Change}

theorem nil : InOrder [] none where
  begun n := by simp [Shared.created]
  ended n ended := by simp [Ended] at ended
  isOpen n := by simp [IsOpen]
  guarded := .nil

theorem ended_concat {m : ℕ} : Ended (log ++ [change]) m ↔ Ended log m ∨ change.ends = some m := by
  simp [Ended, or_and_right, exists_or]

/-- A storage begins when none is open. -/
theorem start (inOrder : InOrder log none) :
    InOrder (log ++ [.begun (Shared.created log)]) (some (Shared.created log)) := by
  have count : Shared.created (log ++ [.begun (Shared.created log)]) = Shared.created log + 1 := by
    simp [Shared.created]
  have fresh : ¬ Ended log (Shared.created log) := fun ended =>
    Nat.lt_irrefl _ ((inOrder.begun _).mp (inOrder.ended _ ended))
  have allEnded : ∀ n, .begun n ∈ log → Ended log n := by
    intro n begun
    by_contra notEnded
    exact nomatch (inOrder.isOpen n).mp ⟨begun, notEnded⟩
  constructor
  · intro n
    rw [count, Nat.lt_succ_iff_lt_or_eq, ← inOrder.begun n]
    simp
  · intro n ended
    rw [ended_concat] at ended
    apply List.mem_append_left
    exact inOrder.ended n (ended.resolve_right nofun)
  · intro n
    have old := allEnded n
    rw [IsOpen, ended_concat]
    grind [Change.ends]
  · rw [Guarded.append_iff]
    refine ⟨inOrder.guarded, fun before event after split => ?_⟩
    -- the block has one event
    obtain ⟨rfl, rfl, rfl⟩ : before = [] ∧ event = .begun (Shared.created log) ∧ after = [] := by
      cases before <;> simp_all
    simpa [OthersEnded] using allEnded

/-- The storage that is open fails or is closed. -/
theorem finish (inOrder : InOrder log (some n)) (ends : change.ends = some n) :
    InOrder (log ++ [change]) none := by
  have other : ∀ m, change ≠ .begun m := by
    rintro m rfl
    cases ends
  have count : Shared.created (log ++ [change]) = Shared.created log := by
    cases change <;> simp_all [Shared.created]
  have isOpen : IsOpen log n := (inOrder.isOpen n).mpr rfl
  constructor
  · intro m
    rw [count, ← inOrder.begun m]
    simp [(other m).symm]
  · intro m ended
    rw [ended_concat, ends] at ended
    apply List.mem_append_left
    rcases ended with before | same
    · exact inOrder.ended m before
    · cases same
      exact isOpen.1
  · intro m
    have old := inOrder.isOpen m
    rw [IsOpen, ended_concat, ends]
    grind [IsOpen]
  · rw [Guarded.append_iff]
    refine ⟨inOrder.guarded, Guarded.of_free fun event member before => ?_⟩
    rw [List.mem_singleton] at member
    subst member
    cases event with
    | begun m => exact absurd rfl (other m)
    | failed m => trivial
    | closed m => trivial

theorem unique {m : ℕ} (inOrder : InOrder log current) (first : IsOpen log n)
    (second : IsOpen log m) : n = m :=
  Option.some.inj (((inOrder.isOpen n).mp first).symm.trans ((inOrder.isOpen m).mp second))

end InOrder

/-! ## The invariant -/

/-- While nobody keeps the lock for closing, what is open is in its place. -/
def Shared.Settled (s : Shared engine) : Prop :=
  s.writer = none → InOrder s.log (s.state.get.map (·.number))

/-- The task with the permit has emptied the state. Nobody fills it or closes anything
before the task goes on, so only `current` is open. -/
structure Shared.Emptied (s : Shared engine) (i : ℕ) (current : Option ℕ) : Prop where
  permit : s.initProtection = some i
  writer : s.writer = none
  state : s.state = .initializing
  inOrder : InOrder s.log current

structure Inv (s : Shared engine) : Prop where
  log : ∃ current, InOrder s.log current
  ready : ∀ opened, s.state = .running opened → InOrder s.log (some opened.number)
  settled : s.initProtection = none → s.Settled

/-- What a task relies on. -/
def Relies (s : Shared engine) (i : ℕ) : Pc engine → Prop
  | .preparing => i = 0 ∧ s = .fresh
  | .resetting => s.initProtection = some i ∧ s.Settled
  | .closingOld old => s.Emptied i (some old.number)
  | .starting => s.Emptied i none
  | .creating number => s.Emptied i (some number)
  | .installing opened => s.Emptied i (some opened.number)
  | .releasing => s.initProtection = some i ∧ s.Settled
  | .closing old =>
    s.writer = some i ∧ s.state = .initializing ∧ InOrder s.log (some old.number)
  | .accessing _ => i ∈ s.readers ∧ s.writer = none ∧ s.state.isReady = true
  | .panicked _ => False
  | .tryReinit | .closeStorage | .access _ | .returned _ => True

section Steps

variable {s s' : Shared engine} {i j : ℕ} {pc pc' other : Pc engine} {event : Event engine}

/-- Everything a task can do, each with what it has found. -/
inductive Step (s : Shared engine) (i : ℕ) : Pc engine → Shared engine → Pc engine → Prop
  | prepare : s.initProtection = none →
      Step s i .preparing { s with initProtection := some i } .starting
  | acquire : s.initProtection = none →
      Step s i .tryReinit { s with initProtection := some i } .resetting
  | resetOld {old : Opened engine} : s.writer = none → s.readers = [] → s.state = .running old →
      Step s i .resetting { s with state := .initializing } (.closingOld old)
  | resetNone : s.writer = none → s.readers = [] → s.state = .initializing →
      Step s i .resetting s .starting
  | closeOld {old : Opened engine} :
      Step s i (.closingOld old) (s.record (.closed old.number)) .starting
  | start : Step s i .starting (s.record (.begun (Shared.created s.log)))
      (.creating (Shared.created s.log))
  | create {number : ℕ} {storage : engine.Storage} :
      Step s i (.creating number) s (.installing ⟨number, storage⟩)
  | fail {number : ℕ} {e : Error keySize} : Step s i (.creating number)
      { s.record (.failed number) with initProtection := none } (.returned (.error e))
  | install {opened : Opened engine} : s.writer = none → s.readers = [] →
      s.state = .initializing →
      Step s i (.installing opened) { s with state := .running opened } .releasing
  | panic {opened : Opened engine} {panic : Panic} : s.state.isReady = true →
      Step s i (.installing opened) { s with initProtection := none } (.panicked panic)
  | release : Step s i .releasing { s with initProtection := none } (.returned (.ok ()))
  | close {old : Opened engine} : s.writer = none → s.readers = [] → s.state = .running old →
      Step s i .closeStorage { s with state := .initializing, writer := some i } (.closing old)
  | closed {old : Opened engine} : Step s i (.closing old)
      { s.record (.closed old.number) with writer := none } (.returned (.ok ()))
  | enter {access : Access keySize} : s.writer = none → s.state.isReady = true →
      Step s i (.access access) { s with readers := i :: s.readers } (.accessing access)
  | write {access : Access keySize} {opened written : Opened engine} :
      s.state = .running opened → written.number = opened.number →
      Step s i (.accessing access)
        { s with state := .running written, readers := s.readers.erase i } (.returned (.ok ()))
  | leave {access : Access keySize} {e : Error keySize} : Step s i (.accessing access)
      { s with readers := s.readers.erase i } (.returned (.error e))
  /-- A call that changes nothing. -/
  | refuse {pc : Pc engine} {result : Except (Error keySize) Unit} :
      pc = .tryReinit ∨ (∃ access, pc = .access access) ∨ pc = .closeStorage →
      Step s i pc s (.returned result)

theorem Shared.free_iff : s.free = true ↔ s.writer = none ∧ s.readers = [] := by
  simp [free]

theorem step_of_advance (advanced : advance s i pc event = some (s', pc')) :
    Step s i pc s' pc' := by
  obtain ⟨state, readers, writer, initProtection, log⟩ := s
  unfold advance at advanced
  split at advanced
  · split_ifs at advanced with permit
    cases advanced
    exact .prepare permit
  · split at advanced
    · cases advanced
      exact .acquire (by assumption)
    · cases advanced
      exact .refuse (.inl rfl)
  · split_ifs at advanced with free
    obtain ⟨unlocked, unread⟩ := Shared.free_iff.mp free
    cases state <;> cases advanced
    · exact .resetNone unlocked unread rfl
    · exact .resetOld unlocked unread rfl
  · cases advanced
    exact .closeOld
  · cases advanced
    exact .start
  · cases advanced
    exact .create
  · cases advanced
    exact .fail
  · split_ifs at advanced with free
    obtain ⟨unlocked, unread⟩ := Shared.free_iff.mp free
    cases state <;> cases advanced
    · exact .install unlocked unread rfl
    · exact .panic rfl
  · cases advanced
    exact .release
  · split_ifs at advanced with free
    obtain ⟨unlocked, unread⟩ := Shared.free_iff.mp free
    cases state <;> cases advanced
    · exact .refuse (.inr (.inr rfl))
    · exact .close unlocked unread rfl
  · cases advanced
    exact .closed
  · split_ifs at advanced with unlocked
    cases state <;> cases advanced
    · exact .refuse (.inr (.inl ⟨_, rfl⟩))
    · exact .enter unlocked rfl
  · cases state with
    | initializing => cases advanced
    | running opened =>
      dsimp only at advanced
      split at advanced <;> cases advanced
      · exact .write rfl rfl
      · exact .leave
  · cases advanced

theorem Shared.Emptied.inv {current : Option ℕ} (emptied : s.Emptied i current) : Inv s where
  log := ⟨current, emptied.inOrder⟩
  ready _ running := nomatch emptied.state.symm.trans running
  settled none := nomatch emptied.permit.symm.trans none

/-- A storage is in its place, or none is open. -/
theorem Inv.of_get (inOrder : InOrder s.log (s.state.get.map (·.number))) : Inv s where
  log := ⟨_, inOrder⟩
  ready opened running := by rwa [running] at inOrder
  settled _ _ := inOrder

/-- A step of a task establishes what the task relies on next. -/
theorem own_of_step (inv : Inv s) (relied : Relies s i pc) (step : Step s i pc s' pc') :
    Inv s' ∧ Relies s' i pc' := by
  -- the steps of a task that has emptied the state
  have empty {current : Option ℕ} (emptied : s'.Emptied i current) :
      Inv s' ∧ s'.Emptied i current := ⟨emptied.inv, emptied⟩
  cases step with
  | prepare permit =>
    obtain ⟨rfl, rfl⟩ := relied
    exact empty ⟨rfl, rfl, rfl, .nil⟩
  | acquire permit => exact ⟨⟨inv.log, inv.ready, nofun⟩, rfl, inv.settled permit⟩
  | resetOld unlocked unread running =>
    exact empty ⟨relied.1, unlocked, rfl, inv.ready _ running⟩
  | resetNone unlocked unread initializing =>
    have settled := relied.2 unlocked
    rw [initializing] at settled
    exact empty ⟨relied.1, unlocked, initializing, settled⟩
  | closeOld => exact empty { relied with inOrder := relied.inOrder.finish rfl }
  | start => exact empty { relied with inOrder := relied.inOrder.start }
  | create => exact ⟨inv, relied⟩
  | fail =>
    refine ⟨.of_get ?_, trivial⟩
    rw [Shared.record, relied.state]
    exact relied.inOrder.finish rfl
  | install unlocked unread initializing =>
    exact ⟨.of_get relied.inOrder, relied.permit, fun _ => relied.inOrder⟩
  | panic ready =>
    rw [relied.state] at ready
    cases ready
  | release => exact ⟨⟨inv.log, inv.ready, fun _ => relied.2⟩, trivial⟩
  | close unlocked unread running =>
    exact ⟨⟨inv.log, nofun, fun _ => nofun⟩, rfl, rfl, inv.ready _ running⟩
  | closed =>
    obtain ⟨-, initializing, inOrder⟩ := relied
    refine ⟨.of_get ?_, trivial⟩
    rw [Shared.record, initializing]
    exact inOrder.finish rfl
  | enter unlocked ready =>
    exact ⟨⟨inv.log, inv.ready, inv.settled⟩, List.mem_cons_self, unlocked, ready⟩
  | write running same =>
    refine ⟨.of_get ?_, trivial⟩
    rw [PearlState.get_running, Option.map_some, same]
    exact inv.ready _ running
  | leave => exact ⟨⟨inv.log, inv.ready, inv.settled⟩, trivial⟩
  | refuse => exact ⟨inv, trivial⟩

/-! What the other tasks rely on. -/

/-- The permit of another task stays with it. -/
theorem permit_of_step (permit : s.initProtection = some j) (ne : j ≠ i) (relied : Relies s i pc)
    (step : Step s i pc s' pc') : s'.initProtection = some j := by
  cases step <;> grind [Relies, Shared.record, Shared.Emptied]

/-- While a task has emptied the state, the others can only be refused. -/
theorem Shared.Emptied.eq_of_step {current : Option ℕ} (emptied : s.Emptied j current)
    (ne : j ≠ i) (relied : Relies s i pc) (step : Step s i pc s' pc') : s' = s := by
  obtain ⟨permit, writer, state, -⟩ := emptied
  cases step <;> grind [Relies, Shared.record, Shared.Emptied, PearlState.isReady, Shared.fresh]

/-- The write lock of another task keeps the state and the log as they are. -/
theorem locked_of_step (locked : s.writer = some j) (initializing : s.state = .initializing)
    (ne : j ≠ i) (relied : Relies s i pc) (step : Step s i pc s' pc') :
    s'.writer = some j ∧ s'.state = .initializing ∧ s'.log = s.log := by
  cases step <;> grind [Relies, Shared.record, Shared.Emptied, PearlState.isReady, Shared.fresh]

/-- The read lock of another task keeps a storage in its place. -/
theorem reading_of_step (reader : j ∈ s.readers) (unlocked : s.writer = none)
    (ready : s.state.isReady = true) (ne : j ≠ i) (relied : Relies s i pc)
    (step : Step s i pc s' pc') :
    j ∈ s'.readers ∧ s'.writer = none ∧ s'.state.isReady = true := by
  cases step <;> grind [Relies, Shared.record, Shared.Emptied, PearlState.isReady, Shared.fresh]

theorem settled_of_step (settled : s.Settled) (permit : s.initProtection = some j) (ne : j ≠ i)
    (relied : Relies s i pc) (step : Step s i pc s' pc') : s'.Settled := by
  intro unlocked
  -- the other tasks do not have the permit
  have others : ∀ {current : Option ℕ}, ¬ s.Emptied i current := fun emptied =>
    ne (Option.some.inj (permit.symm.trans emptied.permit))
  cases step with
  | closed =>
    obtain ⟨-, initializing, inOrder⟩ := relied
    rw [Shared.record, initializing]
    exact inOrder.finish rfl
  | write running same =>
    have inOrder := settled unlocked
    rw [running] at inOrder
    rwa [PearlState.get_running, Option.map_some, same]
  | _ => grind [Relies, Shared.Settled, Shared.fresh]

/-- A step leaves the others what they rely on. -/
theorem others_of_step {other : Pc engine} (ne : j ≠ i) (relied : Relies s i pc)
    (otherRelied : Relies s j other) (notPreparing : other ≠ .preparing)
    (step : Step s i pc s' pc') : Relies s' j other := by
  -- the state does not change under a task that has emptied it
  have empty {current : Option ℕ} (emptied : s.Emptied j current) : s'.Emptied j current := by
    rwa [emptied.eq_of_step ne relied step]
  cases other with
  | preparing => exact absurd rfl notPreparing
  | resetting | releasing =>
    obtain ⟨permit, settled⟩ := otherRelied
    exact ⟨permit_of_step permit ne relied step, settled_of_step settled permit ne relied step⟩
  | closingOld | starting | creating | installing => exact empty otherRelied
  | closing old =>
    obtain ⟨locked, initializing, inOrder⟩ := otherRelied
    obtain ⟨still, unchanged, log⟩ := locked_of_step locked initializing ne relied step
    exact ⟨still, unchanged, log ▸ inOrder⟩
  | accessing access =>
    obtain ⟨reader, unlocked, ready⟩ := otherRelied
    exact reading_of_step reader unlocked ready ne relied step
  | panicked => exact otherRelied
  | tryReinit | closeStorage | access | returned => trivial

end Steps

/-! ## Whole runs -/

section Runs

variable {p : Pool (Shared engine) (Pc engine)}

theorem sound_of_run
    (run : Relation.ReflTransGen ((program engine).GuardedStep afterPreparing) (start engine) p) :
    p.Sound Inv Relies := by
  have initial : (start engine).Sound Inv Relies := by
    refine ⟨.of_get .nil, fun i pc here => ?_⟩
    obtain ⟨rfl, rfl⟩ : i = 0 ∧ pc = .preparing := by
      cases i <;> simp_all [start]
    exact ⟨rfl, rfl⟩
  refine initial.of_reflTransGen (fun s i call => by cases call <;> trivial) ?_ run
  intro p i event pc s' pc' sound here allowed advanced
  have relied := sound.tasks i pc here
  have step := step_of_advance advanced
  obtain ⟨inv, own⟩ := own_of_step sound.shared relied step
  refine ⟨inv, own, fun j other ne there otherRelied =>
    others_of_step ne relied otherRelied ?_ step⟩
  -- nobody else makes a step before the storage is prepared
  rintro rfl
  obtain ⟨rfl, -⟩ := otherRelied
  cases i with
  | zero => exact ne rfl
  | succ i => simp [afterPreparing, prepared, there] at allowed

/-- Under any interleaving `set_ready` finds no storage in its place, at most one storage
is open, and it has ended before the creation of the next one begins. -/
theorem storages_are_open_one_at_a_time
    (run : Relation.ReflTransGen ((program engine).GuardedStep afterPreparing) (start engine) p) :
    (∀ (i : ℕ) opened, p.tasks[i]? = some (Pc.installing opened) → p.shared.state.isReady = false) ∧
      (∀ (i : ℕ) panic, p.tasks[i]? ≠ some (Pc.panicked panic)) ∧
      (∀ n m, IsOpen p.shared.log n → IsOpen p.shared.log m → n = m) ∧
      Guarded OthersEnded p.shared.log := by
  have sound := sound_of_run run
  obtain ⟨current, inOrder⟩ := sound.shared.log
  refine ⟨?_, ?_, fun n m first second => inOrder.unique first second, inOrder.guarded⟩
  · intro i opened here
    have emptied : p.shared.Emptied i (some opened.number) := sound.tasks i _ here
    rw [emptied.state]
    rfl
  · intro i panic here
    exact sound.tasks i _ here

instance (p : Pool (Shared engine) (Pc engine)) (action : Action (Call keySize) (Event engine)) :
    Decidable (afterPreparing p action) := by
  unfold afterPreparing
  split <;> infer_instance

/-- Two tasks reopen the storage and a third closes it. The first of them creates a
storage while the second is refused, and the one that closes finds what it has put in. -/
def reopenedAndClosed : List (Action (Call 8) (Event (logEngine 8))) :=
  [.advance 0 .go, .advance 0 .go, .advance 0 (.created (.ok [])), .advance 0 .go, .advance 0 .go,
    .call .tryReinit, .call .tryReinit, .call .closeStorage,
    .advance 1 .go, .advance 2 .go, .advance 1 .go, .advance 1 .go, .advance 1 .go,
    .advance 1 (.created (.ok [])), .advance 1 .go, .advance 3 .go, .advance 1 .go, .advance 3 .go]

theorem reopened_storages_are_open_one_at_a_time :
    ∃ p : Pool (Shared (logEngine 8)) (Pc (logEngine 8)),
      p.shared.log = [.begun 0, .closed 0, .begun 1, .closed 1] ∧
      Guarded OthersEnded p.shared.log := by
  obtain ⟨p, followed, log⟩ :
      ∃ p, (program (logEngine 8)).follow afterPreparing (start (logEngine 8)) reopenedAndClosed =
          some p ∧ p.shared.log = [.begun 0, .closed 0, .begun 1, .closed 1] := ⟨_, rfl, rfl⟩
  have run := Program.reflTransGen_of_follow followed
  exact ⟨p, log, (storages_are_open_one_at_a_time run).2.2.2⟩

end Runs

end HolderProtocol

end Bob.Backend

/-
# The life cycle of a disk controller

The state of a controller and its list of groups are behind two locks. Four kinds of
tasks work on them: `run` reads the groups from disk and starts them, `stop` takes the
controller out of service, the monitor does so when the work directory is missing,
and a put does so when its error may mean that the disk is gone. The first three hold
the permit of the monitor; a put does not.

A run that has seen the groups as initialized starts them and then declares the
controller ready without looking again. If a put resets the controller in between,
the controller is ready without groups. If no put does, a controller that is ready
has a running group for each of its vdisks.
-/

import Bob.Math.Interleaving
import Bob.Backend.Pearl

namespace Bob.Backend

open Bob.Configs Bob.Math

variable {keySize : ℕ} {engine : StorageEngine keySize}

/-- What the tasks of a controller share. A lock or permit names the task that has it. -/
structure Shared (engine : StorageEngine keySize) where
  dc : DiskController engine
  /-- The positions of the groups that have been run since they were read. -/
  ran : List ℕ
  /-- The permit that `monitor_sem` has to give. -/
  monitorSem : Option ℕ
  /-- The write lock of the state. -/
  stateLock : Option ℕ
  /-- The write lock of the list of groups. -/
  groupsLock : Option ℕ

namespace Lifecycle

/-- The calls that change the state of a controller. -/
inductive Call
  | run
  | stop
  /-- One round of `monitor_task`. -/
  | tick
  | put (op : Operation)

/-- How far `change_state` has come: it waits for the lock of the state, it has it, and it
is about to set the state. -/
inductive Stage
  | waiting
  | locked
  | prepared
  deriving DecidableEq, Repr

/-- Where a task is. -/
inductive Pc
  | run
  | init
  /-- `init` has seen `NotReady`. -/
  | initNotReady
  | groupsRun
  | groupsRunInitialized
  /-- `run_groups` has the lock of the groups and is at the given one. -/
  | runGroups (next : ℕ)
  | stop
  | tick
  /-- Asking whether the work directory is available. -/
  | checkWorkDir
  | put (op : Operation)
  /-- A put has seen `Ready`. -/
  | putGroup (op : Operation)
  /-- `Group::put` is under way. -/
  | putting
  | changeState (newState : GroupsState) (stage : Stage)
  | done
  deriving DecidableEq

/-- What a task learns from outside as it advances. -/
inductive Event (engine : StorageEngine keySize)
  | go
  | workDir (available : Bool)
  | groupRun (res : Except (Error keySize) (Group engine))
  | putDone (res : Except (Error keySize) Unit)

/-! ## The steps -/

def entry : Call → Pc
  | .run => .run
  | .stop => .stop
  | .tick => .tick
  | .put op => .put op

/-- Take the permit, if it is there. -/
def acquire (s : Shared engine) (i : ℕ) (next : Pc) : Option (Shared engine × Pc) :=
  if s.monitorSem = none then some ({ s with monitorSem := some i }, next) else none

/-- A task that ends gives its permit back. -/
def finish (s : Shared engine) (i : ℕ) : Shared engine × Pc :=
  ({ s with monitorSem := if s.monitorSem = some i then none else s.monitorSem }, .done)

/-- Read the state, unless someone is changing it. -/
def readState (s : Shared engine) (next : GroupsState → Shared engine × Pc) :
    Option (Shared engine × Pc) :=
  if s.stateLock = none then some (next s.dc.state) else none

/-- Touch the list of groups, unless someone has locked it. -/
def withGroups (s : Shared engine) (next : Shared engine × Pc) : Option (Shared engine × Pc) :=
  if s.groupsLock = none then some next else none

theorem readState_eq_some_iff {s : Shared engine} {next : GroupsState → Shared engine × Pc}
    {result : Shared engine × Pc} :
    readState s next = some result ↔ s.stateLock = none ∧ next s.dc.state = result := by
  simp [readState]

theorem withGroups_eq_some_iff {s : Shared engine} {next result : Shared engine × Pc} :
    withGroups s next = some result ↔ s.groupsLock = none ∧ next = result := by
  simp [withGroups]

/-- Only `init` goes on after it has changed the state. -/
def afterChange (s : Shared engine) (i : ℕ) : GroupsState → Shared engine × Pc
  | .initialized => (s, .groupsRun)
  | _ => finish s i

def advance (s : Shared engine) (i : ℕ) : Pc → Event engine → Option (Shared engine × Pc)
  -- `run`, with the permit from here to its end
  | .run, .go => acquire s i .init
  | .init, .go => readState s fun state =>
    if state = .notReady then (s, .initNotReady) else (s, .groupsRun)
  | .initNotReady, .go =>
    withGroups s ({ s with dc := { s.dc with groups := s.dc.collectNormalGroups }, ran := [] },
      .changeState .initialized .waiting)
  | .groupsRun, .go => readState s fun state =>
    -- A controller that is ready is left alone, one that is not ready is an error.
    if state = .initialized then (s, .groupsRunInitialized) else finish s i
  | .groupsRunInitialized, .go =>
    withGroups s ({ s with groupsLock := some i }, .runGroups 0)
  | .runGroups next, .groupRun res =>
    s.dc.groups[next]?.bind fun group =>
      match res with
      | .ok started =>
        if started.ident = group.ident then
          some ({ s with dc := s.dc.setGroup next started, ran := next :: s.ran },
            .runGroups (next + 1))
        else none
      -- The controller is reset only if the disk is gone.
      | .error _ => some ({ s with groupsLock := none }, .checkWorkDir)
  | .runGroups next, .go =>
    if s.dc.groups.length ≤ next then
      some ({ s with groupsLock := none }, .changeState .ready .waiting)
    else none
  -- `stop` and the monitor
  | .stop, .go => acquire s i (.changeState .notReady .waiting)
  | .tick, .go => acquire s i .checkWorkDir
  | .checkWorkDir, .workDir available =>
    some (if available then finish s i else (s, .changeState .notReady .waiting))
  -- `put` and `process_error`, without the permit
  | .put op, .go => readState s fun state =>
    if state = .ready then (s, .putGroup op) else finish s i
  | .putGroup op, .go =>
    withGroups s (if (DiskController.findSingleGroup s.dc.groups op).isSome then (s, .putting)
      else finish s i)
  | .putting, .putDone res =>
    match res with
    | .ok () => some (finish s i)
    | .error e => some (if e.isPossibleDiskDisconnection then
        (s, .changeState .notReady .waiting) else finish s i)
  -- `change_state`
  | .changeState newState .waiting, .go => readState s fun state =>
    if state = newState then afterChange s i newState
    else ({ s with stateLock := some i }, .changeState newState .locked)
  | .changeState newState .locked, .go =>
    -- The groups are dropped under both locks, before the state is overwritten.
    if newState = .notReady then
      withGroups s ({ s with dc := { s.dc with groups := [] } }, .changeState newState .prepared)
    else some (s, .changeState newState .prepared)
  -- An invalid transformation is logged and made all the same.
  | .changeState newState .prepared, .go =>
    some (afterChange { s with dc := { s.dc with state := newState }, stateLock := none } i
      newState)
  | _, _ => none

/-- The tasks of a controller. -/
def program (engine : StorageEngine keySize) : Program (Shared engine) Pc Call (Event engine) where
  entry := entry
  advance := advance

/-- A controller as it is created: its groups are read, and no task is there yet. -/
def start (dc : DiskController engine) : Pool (Shared engine) Pc where
  shared :=
    { dc := { dc with groups := dc.collectNormalGroups, state := .initialized }
      ran := []
      monitorSem := none
      stateLock := none
      groupsLock := none }
  tasks := []

private theorem step_of_advance {p : Pool (Shared engine) Pc} {i : ℕ} {pc : Pc}
    {event : Event engine} {result : Shared engine × Pc} (here : p.tasks[i]? = some pc)
    (advanced : advance p.shared i pc event = some result) :
    (program engine).GuardedStep (fun _ _ => True) p ⟨result.1, p.tasks.set i result.2⟩ :=
  @Program.guardedStep_of_advance _ _ _ _ (program engine) p _ i pc event _ here advanced trivial

/-- A change of state that nobody interferes with is what the sequential model of the
controller makes of it. -/
theorem uninterrupted_changeState {p : Pool (Shared engine) Pc} {i : ℕ} {newState : GroupsState}
    (here : p.tasks[i]? = some (.changeState newState .waiting))
    (free : p.shared.stateLock = none) (unlocked : p.shared.groupsLock = none) :
    ∃ p', Relation.ReflTransGen ((program engine).GuardedStep fun _ _ => True) p p' ∧
      p'.shared.dc = p.shared.dc.changeState newState ∧ p'.shared.stateLock = none := by
  have afterChange_shared (s : Shared engine) : (afterChange s i newState).1.dc = s.dc ∧
      (afterChange s i newState).1.stateLock = s.stateLock := by
    cases newState <;> exact ⟨rfl, rfl⟩
  have inside : i < p.tasks.length := (List.getElem?_eq_some_iff.mp here).1
  by_cases same : p.shared.dc.state = newState
  · have first : advance p.shared i (.changeState newState .waiting) .go =
        some (afterChange p.shared i newState) := by
      unfold advance
      exact readState_eq_some_iff.mpr ⟨free, if_pos same⟩
    refine ⟨_, .single (step_of_advance here first), ?_, ?_⟩
    · rw [(afterChange_shared _).1, ← same, DiskController.changeState_self]
    · rw [(afterChange_shared _).2, free]
  -- The lock is taken, the groups are dropped if need be, and the state is set.
  let locked : Shared engine := { p.shared with stateLock := some i }
  let prepared : Shared engine := { locked with
    dc := { locked.dc with groups := if newState = .notReady then [] else locked.dc.groups } }
  have first : advance p.shared i (.changeState newState .waiting) .go =
      some (locked, .changeState newState .locked) := by
    unfold advance
    exact readState_eq_some_iff.mpr ⟨free, if_neg same⟩
  have second : advance locked i (.changeState newState .locked) .go =
      some (prepared, .changeState newState .prepared) := by
    cases newState with
    | notReady => exact withGroups_eq_some_iff.mpr ⟨unlocked, rfl⟩
    | initialized => rfl
    | ready => rfl
  have third : advance prepared i (.changeState newState .prepared) .go = some (afterChange
      { prepared with dc := { prepared.dc with state := newState }, stateLock := none } i
      newState) := rfl
  have path := Relation.ReflTransGen.single (step_of_advance here first)
  have path := path.tail (step_of_advance (List.getElem?_set_self inside) second)
  have path := path.tail (step_of_advance
    (List.getElem?_set_self (by rwa [List.length_set])) third)
  refine ⟨_, path, ?_, ?_⟩
  · rw [(afterChange_shared _).1, DiskController.changeState_of_ne same]
  · rw [(afterChange_shared _).2]

/-! ## What the tasks rely on -/

/-- Every vdisk of the controller has a group. -/
def Covered (dc : DiskController engine) : Prop :=
  ∀ vdiskId ∈ dc.vdisks, ∃ group ∈ dc.groups, group.vdiskId = vdiskId

/-- All groups in the list have been run. -/
def AllRan (s : Shared engine) : Prop := ∀ j < s.dc.groups.length, j ∈ s.ran

/-- Every vdisk of the controller has a group that has been run. -/
def HasItsGroups (s : Shared engine) : Prop :=
  ∀ vdiskId ∈ s.dc.vdisks, ∃ (j : ℕ) (group : Group engine), s.dc.groups[j]? = some group ∧
    group.vdiskId = vdiskId ∧ j ∈ s.ran

/-- What holds of the memory while nobody is changing the state. -/
def Consistent (s : Shared engine) : Prop :=
  s.stateLock = none → (s.dc.state = .initialized → Covered s.dc) ∧
    (s.dc.state = .ready → Covered s.dc ∧ AllRan s)

namespace Pc

/-- A run is between reading `Initialized` and setting `Ready`. -/
def inWindow : Pc → Bool
  | .groupsRunInitialized | .runGroups _ | .changeState .ready _ => true
  | _ => false

/-- The task has the lock of the state. -/
def holdsState : Pc → Bool
  | .changeState _ .locked | .changeState _ .prepared => true
  | _ => false

/-- The task drops the groups. -/
def resets : Pc → Bool
  | .changeState .notReady .locked | .changeState .notReady .prepared => true
  | _ => false

/-- The state that the task has read and counts on. -/
def sees : Pc → Option GroupsState
  | .initNotReady | .changeState .initialized _ => some .notReady
  | .groupsRunInitialized | .runGroups _ | .changeState .ready _ => some .initialized
  | _ => none

/-- The task counts on the groups that are in the list. -/
def needsGroups : Pc → Bool
  | .changeState .initialized _ => true
  | pc => pc.inWindow

def needsPermit : Pc → Bool
  | .init | .groupsRun | .checkWorkDir => true
  | pc => pc.sees.isSome

variable {pc : Pc}

theorem needsPermit_of_sees {state : GroupsState} (seen : pc.sees = some state) :
    pc.needsPermit = true := by
  cases pc <;> simp_all [sees, needsPermit]

theorem sees_of_inWindow (inside : pc.inWindow = true) : pc.sees = some .initialized := by
  cases pc with
  | changeState newState => cases newState <;> simp_all [sees, inWindow]
  | _ => simp_all [sees, inWindow]

theorem needsGroups_cases (needs : pc.needsGroups = true) :
    pc.inWindow = true ∨ pc.sees = some .notReady := by
  cases pc with
  | changeState newState => cases newState <;> simp_all [sees, inWindow, needsGroups]
  | _ => simp_all [inWindow, needsGroups]

theorem holdsState_of_resets (resets : pc.resets = true) : pc.holdsState = true := by
  cases pc with
  | changeState newState stage =>
    cases newState <;> cases stage <;> simp_all [Pc.resets, holdsState]
  | _ => simp_all [Pc.resets]

theorem sees_cases {state : GroupsState} (seen : pc.sees = some state) :
    pc.inWindow = true ∨ state = .notReady := by
  cases pc with
  | changeState newState => cases newState <;> simp_all [sees, inWindow]
  | _ => simp_all [sees, inWindow]

end Pc

/-- What a task relies on at its program counter. -/
structure Relies (s : Shared engine) (i : ℕ) (pc : Pc) : Prop where
  permit : pc.needsPermit = true → s.monitorSem = some i
  locked : pc.holdsState = true → s.stateLock = some i
  unlocked : pc.inWindow = true → pc.holdsState = false → s.stateLock = none
  state : ∀ state, pc.sees = some state → s.dc.state = state
  resets : pc.resets = true → s.dc.state ≠ .notReady
  covered : pc.needsGroups = true → Covered s.dc
  running : ∀ next, pc = .runGroups next → s.groupsLock = some i ∧ ∀ j < next, j ∈ s.ran
  allRan : ∀ stage, pc = .changeState .ready stage → AllRan s

/-- No put resets the controller while a run is about to declare it ready. -/
def Safe (p : Pool (Shared engine) Pc) : Action Call (Event engine) → Prop
  | .advance i .go => p.tasks[i]? = some (.changeState .notReady .waiting) →
      p.shared.monitorSem ≠ some i → ∀ pc ∈ p.tasks, pc.inWindow = false
  | _ => True

instance (p : Pool (Shared engine) Pc) : ∀ action, Decidable (Safe p action)
  | .advance i .go => inferInstanceAs (Decidable (p.tasks[i]? = some (.changeState .notReady
      .waiting) → p.shared.monitorSem ≠ some i → ∀ pc ∈ p.tasks, pc.inWindow = false))
  | .advance _ (.workDir _) => .isTrue trivial
  | .advance _ (.groupRun _) => .isTrue trivial
  | .advance _ (.putDone _) => .isTrue trivial
  | .call _ => .isTrue trivial

variable {s s' : Shared engine} {i j : ℕ} {pc pc' other : Pc} {event : Event engine}

theorem hasItsGroups_of_allRan (covered : Covered s.dc) (all : AllRan s) : HasItsGroups s := by
  intro vdiskId member
  obtain ⟨group, hgroup, same⟩ := covered vdiskId member
  obtain ⟨j, hj⟩ := List.getElem?_of_mem hgroup
  exact ⟨j, group, hj, same, all j (List.getElem?_eq_some_iff.mp hj).1⟩

theorem covered_collectNormalGroups (dc : DiskController engine) :
    Covered { dc with groups := dc.collectNormalGroups } := by
  intro vdiskId member
  exact ⟨_, List.mem_map_of_mem member, rfl⟩

/-- Running a group does not change which vdisks have one. -/
theorem covered_setGroup {dc : DiskController engine} {group started : Group engine}
    (covered : Covered dc) (here : dc.groups[j]? = some group)
    (same : started.ident = group.ident) : Covered (dc.setGroup j started) := by
  intro vdiskId member
  obtain ⟨old, hold, hvdisk⟩ := covered vdiskId member
  obtain ⟨k, hk⟩ := List.getElem?_of_mem hold
  by_cases replaced : j = k
  · subst replaced
    cases here.symm.trans hk
    refine ⟨started, List.mem_of_getElem? (List.getElem?_set_self ?_), ?_⟩
    · exact (List.getElem?_eq_some_iff.mp here).1
    · exact (congrArg Prod.fst same).trans hvdisk
  · refine ⟨old, List.mem_of_getElem? (i := k) ?_, hvdisk⟩
    exact (List.getElem?_set_ne replaced).trans hk

/-! ### What a step leaves to the others -/

namespace Relies

/-- Permits and the lock of the groups matter only to the task that has them. -/
theorem of_same_dc (relies : Relies s j other) (dc : s'.dc = s.dc) (ran : s'.ran = s.ran)
    (lock : s'.stateLock = s.stateLock) (permit : s.monitorSem = some j → s'.monitorSem = some j)
    (groups : s.groupsLock = some j → s'.groupsLock = some j) : Relies s' j other where
  permit := permit ∘ relies.permit
  locked := fun holds => lock.trans (relies.locked holds)
  unlocked := fun inside free => lock.trans (relies.unlocked inside free)
  state := fun state seen => dc ▸ relies.state state seen
  resets := fun resets => dc ▸ relies.resets resets
  covered := fun needs => dc ▸ relies.covered needs
  running := fun next here => (relies.running next here).imp groups (ran ▸ id)
  allRan := fun stage here => by
    unfold AllRan
    rw [dc, ran]
    exact relies.allRan stage here

/-- A task without the permit counts only on the state it is changing. -/
theorem of_no_permit (relies : Relies s j other) (none : s.monitorSem ≠ some j)
    (state : s'.dc.state = s.dc.state) (lock : s'.stateLock = s.stateLock) :
    Relies s' j other := by
  have unseen (state : GroupsState) : other.sees ≠ some state := fun seen =>
    none (relies.permit (Pc.needsPermit_of_sees seen))
  have outside (inside : other.inWindow = true) : False :=
    unseen _ (Pc.sees_of_inWindow inside)
  exact
    { permit := fun needs => absurd (relies.permit needs) none
      locked := fun holds => lock.trans (relies.locked holds)
      unlocked := fun inside => (outside inside).elim
      state := fun state seen => absurd seen (unseen state)
      resets := fun resets => state ▸ relies.resets resets
      covered := fun needs => (Pc.needsGroups_cases needs).elim (False.elim ∘ outside)
        fun seen => absurd seen (unseen _)
      running := by
        rintro next rfl
        exact (outside rfl).elim
      allRan := by
        rintro stage rfl
        exact (outside rfl).elim }

/-- Outside the window nobody minds that the state gets locked. -/
theorem of_lock_taken (relies : Relies s j other) (free : s.stateLock = none)
    (outside : other.inWindow = false) : Relies { s with stateLock := some i } j other where
  permit := relies.permit
  locked := fun holds => by
    have mine := relies.locked holds
    rw [free] at mine
    cases mine
  unlocked := fun inside => by
    rw [outside] at inside
    cases inside
  state := relies.state
  resets := relies.resets
  covered := relies.covered
  running := relies.running
  allRan := relies.allRan

/-- While another task has the lock of the state, nobody counts on the state or the
groups, apart from what a run has read before it got there. -/
theorem of_locked (relies : Relies s j other) (locked : s.stateLock = some i) (ne : j ≠ i)
    (either : s.dc.state ≠ .notReady ∨ s.monitorSem ≠ some j)
    (permit : s.monitorSem = some j → s'.monitorSem = some j) : Relies s' j other := by
  have released : other.holdsState = false := by
    by_contra holds
    have mine := relies.locked (Bool.not_eq_false _ ▸ holds)
    rw [locked] at mine
    exact ne (Option.some.inj mine).symm
  have outside (inside : other.inWindow = true) : False := by
    have free := relies.unlocked inside released
    rw [locked] at free
    cases free
  -- Outside the window only `init` counts on the state, and it has read `notReady`.
  have unseen (state : GroupsState) (seen : other.sees = some state) : False := by
    rcases Pc.sees_cases seen with inside | rfl
    · exact outside inside
    · exact either.elim (· (relies.state _ seen))
        (· (relies.permit (Pc.needsPermit_of_sees seen)))
  exact
    { permit := permit ∘ relies.permit
      locked := fun holds => by simp [released] at holds
      unlocked := fun inside => (outside inside).elim
      state := fun state seen => (unseen state seen).elim
      resets := fun resets => by simp [Pc.holdsState_of_resets resets] at released
      covered := fun needs => (Pc.needsGroups_cases needs).elim (False.elim ∘ outside)
        (False.elim ∘ unseen _)
      running := by
        rintro next rfl
        exact (outside rfl).elim
      allRan := by
        rintro stage rfl
        exact (outside rfl).elim }

/-! ### What a task finds after its own step -/

/-- A task that has not read the state counts at most on its permit. -/
theorem of_unseen (unseen : pc.sees = none) (released : pc.holdsState = false)
    (permit : pc.needsPermit = true → s.monitorSem = some i) : Relies s i pc := by
  have outside (inside : pc.inWindow = true) : False := by
    rw [Pc.sees_of_inWindow inside] at unseen
    cases unseen
  exact
    { permit := permit
      locked := fun holds => by simp [released] at holds
      unlocked := fun inside => (outside inside).elim
      state := fun state seen => by simp [unseen] at seen
      resets := fun resets => by simp [Pc.holdsState_of_resets resets] at released
      covered := fun needs => (Pc.needsGroups_cases needs).elim (False.elim ∘ outside)
        fun seen => by simp [unseen] at seen
      running := by
        rintro next rfl
        exact (outside rfl).elim
      allRan := by
        rintro stage rfl
        exact (outside rfl).elim }

theorem initNotReady (permit : s.monitorSem = some i) (state : s.dc.state = .notReady) :
    Relies s i .initNotReady := by
  constructor <;> simp [Pc.holdsState, Pc.inWindow, Pc.sees, Pc.resets, Pc.needsGroups, *]

theorem changeState_initialized {stage : Stage} (permit : s.monitorSem = some i)
    (state : s.dc.state = .notReady) (covered : Covered s.dc)
    (locked : stage ≠ .waiting → s.stateLock = some i) :
    Relies s i (.changeState .initialized stage) := by
  constructor <;> cases stage <;> simp_all [Pc.holdsState, Pc.inWindow, Pc.sees, Pc.resets]

theorem changeState_notReady {stage : Stage}
    (locked : stage ≠ .waiting → s.stateLock = some i ∧ s.dc.state ≠ .notReady) :
    Relies s i (.changeState .notReady stage) := by
  constructor <;> cases stage <;>
    simp_all [Pc.holdsState, Pc.inWindow, Pc.sees, Pc.resets, Pc.needsGroups, Pc.needsPermit]

theorem changeState_ready {stage : Stage} (permit : s.monitorSem = some i)
    (state : s.dc.state = .initialized) (covered : Covered s.dc) (all : AllRan s)
    (lock : s.stateLock = if stage = .waiting then none else some i) :
    Relies s i (.changeState .ready stage) := by
  constructor <;> cases stage <;> simp_all [Pc.holdsState, Pc.inWindow, Pc.sees, Pc.resets]

/-- What a run counts on once it has seen the groups as initialized. -/
theorem groupsRunInitialized (permit : s.monitorSem = some i) (free : s.stateLock = none)
    (state : s.dc.state = .initialized) (covered : Covered s.dc) :
    Relies s i .groupsRunInitialized := by
  constructor <;> simp [Pc.holdsState, Pc.sees, Pc.resets, *]

theorem runGroups {next : ℕ} (permit : s.monitorSem = some i) (free : s.stateLock = none)
    (state : s.dc.state = .initialized) (covered : Covered s.dc)
    (lock : s.groupsLock = some i) (ran : ∀ j < next, j ∈ s.ran) :
    Relies s i (.runGroups next) := by
  constructor <;> simp_all [Pc.holdsState, Pc.sees, Pc.resets]

end Relies

/-! ### One step -/

/-- The step of a task keeps the memory consistent, leads to what the task relies on and
takes nothing from the others, provided they are outside the window if it is a reset
without the permit. -/
structure Keeps (s : Shared engine) (i : ℕ) (pc : Pc) (result : Shared engine × Pc) : Prop where
  consistent : Consistent result.1
  own : Relies result.1 i result.2
  others : ∀ j other, j ≠ i → Relies s j other →
    (pc = .changeState .notReady .waiting → s.monitorSem ≠ some i → other.inWindow = false) →
    Relies result.1 j other

theorem keeps_move (consistent : Consistent s) (own : Relies s i pc') : Keeps s i pc (s, pc') :=
  ⟨consistent, own, fun _ _ _ relies _ => relies⟩

theorem keeps_finish (consistent : Consistent s) : Keeps s i pc (finish s i) where
  consistent := consistent
  own := .of_unseen rfl rfl nofun
  others := fun j other ne relies _ => by
    refine relies.of_same_dc rfl rfl rfl (fun permit => ?_) id
    have stays : s.monitorSem ≠ some i := by
      rw [permit]
      exact fun same => ne (Option.some.inj same)
    exact (if_neg stays).trans permit

theorem keeps_acquire {result : Shared engine × Pc} (consistent : Consistent s)
    (unseen : pc'.sees = none) (released : pc'.holdsState = false)
    (acquired : acquire s i pc' = some result) : Keeps s i pc result := by
  unfold acquire at acquired
  split_ifs at acquired with free
  cases acquired
  refine ⟨consistent, .of_unseen unseen released fun _ => rfl, fun j other ne relies _ => ?_⟩
  refine relies.of_same_dc rfl rfl rfl (fun permit => ?_) id
  rw [free] at permit
  cases permit

/-- After the state is set, the memory is consistent again. -/
theorem keeps_afterChange {newState : GroupsState}
    (consistent : Consistent s)
    (permit : newState = .initialized → s.monitorSem = some i) :
    Keeps s i pc (afterChange s i newState) := by
  cases newState with
  | initialized => exact keeps_move consistent (.of_unseen rfl rfl fun _ => permit rfl)
  | notReady => exact keeps_finish consistent
  | ready => exact keeps_finish consistent

/-- A step that the task makes on a memory in which the others have lost nothing. -/
theorem Keeps.of_others {mid : Shared engine} {result : Shared engine × Pc}
    (keeps : Keeps mid i pc result) (moves : pc ≠ .changeState .notReady .waiting)
    (others : ∀ j other, j ≠ i → Relies s j other → Relies mid j other) :
    Keeps s i pc result :=
  ⟨keeps.consistent, keeps.own, fun j other ne relies _ =>
    keeps.others j other ne (others j other ne relies) fun same => absurd same moves⟩

/-- The task that has the permit is the only one. -/
private theorem no_permit_of_ne (permit : s.monitorSem = some i) (ne : j ≠ i) :
    s.monitorSem ≠ some j := by
  rw [permit]
  exact fun same => ne (Option.some.inj same).symm

private theorem keeps_initNotReady {result : Shared engine × Pc}
    (relies : Relies s i .initNotReady)
    (advanced : advance s i .initNotReady .go = some result) : Keeps s i .initNotReady result := by
  obtain ⟨-, rfl⟩ := withGroups_eq_some_iff.mp advanced
  have permit := relies.permit rfl
  have state := relies.state _ rfl
  refine ⟨fun free => ?_, ?_, fun j other ne others _ => ?_⟩
  · simp [state]
  · exact .changeState_initialized permit state (covered_collectNormalGroups _) (absurd rfl)
  · exact others.of_no_permit (no_permit_of_ne permit ne) rfl rfl

private theorem keeps_groupRun {next : ℕ} {group started : Group engine}
    (relies : Relies s i (.runGroups next)) (here : s.dc.groups[next]? = some group)
    (same : started.ident = group.ident) :
    Keeps s i (.runGroups next)
      ({ s with dc := s.dc.setGroup next started, ran := next :: s.ran },
        .runGroups (next + 1)) := by
  have permit := relies.permit rfl
  have state := relies.state _ rfl
  have covered := covered_setGroup (relies.covered rfl) here same
  obtain ⟨lock, ran⟩ := relies.running next rfl
  refine ⟨fun _ => ⟨fun _ => covered, fun ready => ?_⟩, ?_, fun j other ne others _ => ?_⟩
  · exact absurd (state.symm.trans ready) (by simp)
  · refine .runGroups permit (relies.unlocked rfl rfl) state covered lock fun j below => ?_
    rcases Nat.lt_succ_iff_lt_or_eq.mp below with before | rfl
    · exact List.mem_cons_of_mem _ (ran j before)
    · exact List.mem_cons_self
  · exact others.of_no_permit (no_permit_of_ne permit ne) rfl rfl

/-- The lock of the groups is given back. -/
private theorem keeps_unlockGroups {next : ℕ} (consistent : Consistent s)
    (relies : Relies s i (.runGroups next))
    (own : Relies { s with groupsLock := none } i pc') :
    Keeps s i (.runGroups next) ({ s with groupsLock := none }, pc') := by
  refine ⟨consistent, own, fun j other ne others _ => ?_⟩
  exact others.of_no_permit (no_permit_of_ne (relies.permit rfl) ne) rfl rfl

/-- Running the groups: the next one has been run, it has failed, or all have been run. -/
private theorem keeps_runGroups {next : ℕ} {result : Shared engine × Pc}
    (consistent : Consistent s) (relies : Relies s i (.runGroups next))
    (advanced : advance s i (.runGroups next) event = some result) :
    Keeps s i (.runGroups next) result := by
  cases event with
  | groupRun res =>
    obtain ⟨group, here, rest⟩ := Option.bind_eq_some_iff.mp advanced
    cases res with
    | ok started =>
      dsimp only at rest
      split_ifs at rest with same
      cases rest
      exact keeps_groupRun relies here same
    | error e =>
      cases rest
      exact keeps_unlockGroups consistent relies (.of_unseen rfl rfl fun _ => relies.permit rfl)
  | go =>
    unfold advance at advanced
    dsimp only at advanced
    split_ifs at advanced with finished
    cases advanced
    refine keeps_unlockGroups consistent relies ?_
    refine .changeState_ready (relies.permit rfl) (relies.state _ rfl) (relies.covered rfl)
      (fun j below => ?_) (relies.unlocked rfl rfl)
    exact (relies.running next rfl).2 j (Nat.lt_of_lt_of_le below finished)
  | _ => cases advanced

private theorem keeps_lockState {newState : GroupsState} (free : s.stateLock = none)
    (relies : Relies s i (.changeState newState .waiting)) (changes : s.dc.state ≠ newState) :
    Keeps s i (.changeState newState .waiting)
      ({ s with stateLock := some i }, .changeState newState .locked) := by
  refine ⟨nofun, ?_, fun j other ne others safe => ?_⟩
  · cases newState with
    | notReady => exact .changeState_notReady fun _ => ⟨rfl, changes⟩
    | initialized =>
      exact .changeState_initialized (relies.permit rfl) (relies.state _ rfl) (relies.covered rfl)
        fun _ => rfl
    | ready =>
      exact .changeState_ready (relies.permit rfl) (relies.state _ rfl) (relies.covered rfl)
        (relies.allRan _ rfl) rfl
  · refine others.of_lock_taken free ?_
    -- With the permit, no other task can be in the window; without it, none is.
    by_cases permit : s.monitorSem = some i
    · by_contra inside
      have theirs := others.permit (Pc.needsPermit_of_sees
        (Pc.sees_of_inWindow (Bool.not_eq_false _ ▸ inside)))
      exact no_permit_of_ne permit ne theirs
    · refine safe ?_ permit
      cases newState with
      | notReady => rfl
      | initialized => exact absurd (relies.permit rfl) permit
      | ready => exact absurd (relies.permit rfl) permit

/-- Whoever has the lock of the state may do with it and the groups what it wants. -/
private theorem others_of_holder {newState : GroupsState} {stage : Stage}
    (relies : Relies s i (.changeState newState stage)) (held : stage ≠ .waiting)
    (sem : s'.monitorSem = s.monitorSem) :
    ∀ j other, j ≠ i → Relies s j other → Relies s' j other := by
  intro j other ne others
  have locked : s.stateLock = some i := by
    apply relies.locked
    cases stage with
    | waiting => exact absurd rfl held
    | locked => rfl
    | prepared => rfl
  refine others.of_locked locked ne ?_ sem.trans
  cases newState with
  | notReady =>
    left
    apply relies.resets
    cases stage with
    | waiting => exact absurd rfl held
    | locked => rfl
    | prepared => rfl
  | initialized => exact Or.inr (no_permit_of_ne (relies.permit rfl) ne)
  | ready => exact Or.inr (no_permit_of_ne (relies.permit rfl) ne)

private theorem keeps_prepare {newState : GroupsState} {result : Shared engine × Pc}
    (relies : Relies s i (.changeState newState .locked))
    (advanced : advance s i (.changeState newState .locked) .go = some result) :
    Keeps s i (.changeState newState .locked) result := by
  have locked := relies.locked rfl
  have blocked {after : Shared engine} (lock : after.stateLock = s.stateLock) :
      Consistent after := by
    intro free
    rw [lock, locked] at free
    cases free
  unfold advance at advanced
  dsimp only at advanced
  cases newState with
  | notReady =>
    rw [if_pos rfl] at advanced
    obtain ⟨-, rfl⟩ := withGroups_eq_some_iff.mp advanced
    refine ⟨blocked rfl, .changeState_notReady fun _ => ⟨locked, relies.resets rfl⟩, ?_⟩
    intro j other ne others _
    exact others_of_holder relies nofun (by rfl) j other ne others
  | initialized =>
    cases advanced
    exact keeps_move (blocked rfl) (.changeState_initialized (relies.permit rfl)
      (relies.state _ rfl) (relies.covered rfl) fun _ => locked)
  | ready =>
    cases advanced
    exact keeps_move (blocked rfl) (.changeState_ready (relies.permit rfl)
      (relies.state _ rfl) (relies.covered rfl) (relies.allRan _ rfl) locked)

private theorem keeps_setState {newState : GroupsState}
    (relies : Relies s i (.changeState newState .prepared)) :
    Keeps s i (.changeState newState .prepared)
      (afterChange { s with dc := { s.dc with state := newState }, stateLock := none } i
        newState) := by
  refine Keeps.of_others (keeps_afterChange ?_ ?_) nofun (others_of_holder relies nofun rfl)
  · -- The lock is free again, so the memory has to fit the state that was set.
    intro _
    cases newState with
    | notReady => exact ⟨nofun, nofun⟩
    | initialized => exact ⟨fun _ => relies.covered rfl, nofun⟩
    | ready => exact ⟨nofun, fun _ => ⟨relies.covered rfl, relies.allRan _ rfl⟩⟩
  · rintro rfl
    exact relies.permit rfl

private theorem keeps_changeState {newState : GroupsState} {stage : Stage}
    {result : Shared engine × Pc} (consistent : Consistent s)
    (relies : Relies s i (.changeState newState stage))
    (advanced : advance s i (.changeState newState stage) .go = some result) :
    Keeps s i (.changeState newState stage) result := by
  cases stage with
  | waiting =>
    unfold advance at advanced
    obtain ⟨free, rfl⟩ := readState_eq_some_iff.mp advanced
    split_ifs with same
    · refine keeps_afterChange consistent ?_
      rintro rfl
      exact relies.permit rfl
    · exact keeps_lockState free relies same
  | locked => exact keeps_prepare relies advanced
  | prepared =>
    cases advanced
    exact keeps_setState relies

/-- What one step of a task does to the memory and to the tasks. -/
theorem advance_keeps {result : Shared engine × Pc} (consistent : Consistent s)
    (relies : Relies s i pc) (advanced : advance s i pc event = some result) :
    Keeps s i pc result := by
  cases pc with
  | run =>
    cases event with
    | go => exact keeps_acquire consistent rfl rfl advanced
    | _ => cases advanced
  | stop =>
    cases event with
    | go => exact keeps_acquire consistent rfl rfl advanced
    | _ => cases advanced
  | tick =>
    cases event with
    | go => exact keeps_acquire consistent rfl rfl advanced
    | _ => cases advanced
  | init =>
    cases event with
    | go =>
      unfold advance at advanced
      obtain ⟨free, rfl⟩ := readState_eq_some_iff.mp advanced
      have permit := relies.permit rfl
      split_ifs with state
      · exact keeps_move consistent (.initNotReady permit state)
      · exact keeps_move consistent (.of_unseen rfl rfl fun _ => permit)
    | _ => cases advanced
  | initNotReady =>
    cases event with
    | go => exact keeps_initNotReady relies advanced
    | _ => cases advanced
  | groupsRun =>
    cases event with
    | go =>
      unfold advance at advanced
      obtain ⟨free, rfl⟩ := readState_eq_some_iff.mp advanced
      split_ifs with state
      · exact keeps_move consistent
          (.groupsRunInitialized (relies.permit rfl) free state ((consistent free).1 state))
      · exact keeps_finish consistent
    | _ => cases advanced
  | groupsRunInitialized =>
    cases event with
    | go =>
      obtain ⟨-, rfl⟩ := withGroups_eq_some_iff.mp advanced
      have permit := relies.permit rfl
      refine ⟨consistent, ?_, fun j other ne others _ => ?_⟩
      · exact .runGroups permit (relies.unlocked rfl rfl) (relies.state _ rfl)
          (relies.covered rfl) rfl nofun
      · exact others.of_no_permit (no_permit_of_ne permit ne) rfl rfl
    | _ => cases advanced
  | runGroups next =>
    exact keeps_runGroups consistent relies advanced
  | checkWorkDir =>
    cases event with
    | workDir available =>
      cases advanced
      split_ifs
      · exact keeps_finish consistent
      · exact keeps_move consistent (.of_unseen rfl rfl nofun)
    | _ => cases advanced
  | put op =>
    cases event with
    | go =>
      unfold advance at advanced
      obtain ⟨-, rfl⟩ := readState_eq_some_iff.mp advanced
      split_ifs
      · exact keeps_move consistent (.of_unseen rfl rfl nofun)
      · exact keeps_finish consistent
    | _ => cases advanced
  | putGroup op =>
    cases event with
    | go =>
      obtain ⟨-, rfl⟩ := withGroups_eq_some_iff.mp advanced
      split_ifs
      · exact keeps_move consistent (.of_unseen rfl rfl nofun)
      · exact keeps_finish consistent
    | _ => cases advanced
  | putting =>
    cases event with
    | putDone res =>
      cases res with
      | ok =>
        cases advanced
        exact keeps_finish consistent
      | error e =>
        cases advanced
        split_ifs
        · exact keeps_move consistent (.of_unseen rfl rfl nofun)
        · exact keeps_finish consistent
    | _ => cases advanced
  | changeState newState stage =>
    cases event with
    | go => exact keeps_changeState consistent relies advanced
    | _ => cases stage <;> cases advanced
  | done => cases event <;> cases advanced

theorem finish_state : (finish s i).1.dc.state = s.dc.state := rfl

theorem afterChange_state {newState : GroupsState} :
    (afterChange s i newState).1.dc.state = s.dc.state := by
  cases newState <;> rfl

/-- Only the last stage of a change of state sets the state. -/
theorem advance_state {result : Shared engine × Pc}
    (advanced : advance s i pc event = some result) :
    result.1.dc.state = s.dc.state ∨
      ∃ newState, pc = .changeState newState .prepared ∧ result.1.dc.state = newState := by
  unfold advance at advanced
  split at advanced
  all_goals
    grind [acquire, readState, withGroups, finish_state, afterChange_state,
      DiskController.setGroup]

/-! ## Runs -/

variable {p p' : Pool (Shared engine) Pc}

/-- What holds of a controller and its tasks along safe runs. -/
def Sound (p : Pool (Shared engine) Pc) : Prop := p.Sound Consistent Relies

theorem sound_start (dc : DiskController engine) : Sound (start dc) := by
  refine ⟨fun _ => ⟨fun _ => ?_, nofun⟩, nofun⟩
  exact covered_collectNormalGroups dc

/-- One run rule for all tasks: what a step of a task keeps holds along every safe run. -/
theorem sound_of_safe_run {dc : DiskController engine}
    (reached : Relation.ReflTransGen ((program engine).GuardedStep Safe) (start dc) p) :
    Sound p := by
  refine (sound_start dc).of_reflTransGen (fun s i call => ?_) ?_ reached
  · cases call <;> exact .of_unseen rfl rfl nofun
  · intro p i event pc shared pc' sound here safe advanced
    have keeps := advance_keeps sound.shared (sound.tasks i pc here) advanced
    refine ⟨keeps.consistent, keeps.own, fun j other ne there relies => ?_⟩
    -- A reset without the permit is safe only if the other task is outside the window.
    refine keeps.others j other ne relies fun resets noPermit => ?_
    subst resets
    have isGo : event = .go := by
      cases event with
      | go => rfl
      | _ => cases advanced
    subst isGo
    exact safe here noPermit other (List.mem_of_getElem? there)

/-- In a safe run, a controller whose state can be read as ready has a running group for
each of its vdisks, and it never gets ready without having been initialized. -/
theorem ready_controller_has_its_groups (dc : DiskController engine)
    (reached : Relation.ReflTransGen ((program engine).GuardedStep Safe) (start dc) p) :
    (p.shared.stateLock = none → p.shared.dc.state = .ready → HasItsGroups p.shared) ∧
    ∀ p', (program engine).GuardedStep Safe p p' →
      p.shared.dc.state = .notReady → p'.shared.dc.state ≠ .ready := by
  have sound := sound_of_safe_run reached
  constructor
  · intro free ready
    obtain ⟨covered, all⟩ := (sound.shared free).2 ready
    exact hasItsGroups_of_allRan covered all
  · rintro p' ⟨action, -, stepped⟩ before after
    obtain ⟨call, rfl, rfl⟩ | ⟨i, event, pc, shared, pc', rfl, here, advanced, rfl⟩ :=
      Program.step_cases stepped
    · cases before.symm.trans after
    · rcases advance_state advanced with same | ⟨newState, rfl, set⟩
      · cases before.symm.trans (same.symm.trans after)
      · -- The task that sets `ready` has seen `initialized`, and it still is.
        cases set.symm.trans after
        have initialized := (sound.tasks i _ here).state _ rfl
        cases before.symm.trans initialized

/-! ## A reset during a restart -/

def sampleController : DiskController (logEngine 8) :=
  .new ⟨.ofDays 1, none, none, fun _ => true⟩ ⟨"alpha"⟩ ⟨⟨"disk1"⟩, "/mnt/1"⟩ [0] false

/-- A task goes on, as long as it needs no answer. -/
def goes (task steps : ℕ) : List (Action Call (Event (logEngine 8))) :=
  List.replicate steps (.advance task .go)

/-- The group of the controller has been run. -/
def groupStarts (task : ℕ) : List (Action Call (Event (logEngine 8))) :=
  [.advance task (.groupRun (.ok (.new sampleController.settings 0 ⟨"alpha"⟩ ⟨"disk1"⟩)))]

/-- The controller is run for the first time. -/
def firstRun : List (Action Call (Event (logEngine 8))) :=
  .call .run :: goes 0 4 ++ groupStarts 0 ++ goes 0 4

/-- A first run makes the controller ready, with its group. -/
theorem first_run_has_its_groups : ∃ p : Pool (Shared (logEngine 8)) Pc,
    Relation.ReflTransGen ((program _).GuardedStep Safe) (start sampleController) p ∧
      p.shared.stateLock = none ∧ p.shared.dc.state = .ready ∧ HasItsGroups p.shared := by
  obtain ⟨p, followed, outcome⟩ : ∃ p,
      (program _).follow Safe (start sampleController) firstRun = some p ∧
        (p.shared.stateLock, p.shared.dc.state) = (none, .ready) := by
    apply Option.map_eq_some_iff.mp
    rfl
  obtain ⟨free, ready⟩ := Prod.mk.inj outcome
  have reached := Program.reflTransGen_of_follow followed
  exact ⟨p, reached, free, ready, (ready_controller_has_its_groups _ reached).1 free ready⟩

/-- Two puts see the controller ready. The error of one resets it; it is run again, and
when that run has seen the new groups as initialized, the error of the other resets it
once more. -/
def lateReset : List (Action Call (Event (logEngine 8))) :=
  let put : Call := .put (.newLocal 0 sampleController.disk)
  let fails (task : ℕ) : List (Action Call (Event (logEngine 8))) :=
    .advance task (.putDone (.error .possibleDiskDisconnection)) :: goes task 3
  firstRun ++ [.call put, .call put] ++ goes 1 2 ++ goes 2 2 ++ fails 1 ++
    [.call .run] ++ goes 3 7 ++ fails 2 ++ goes 3 4

/-- After the late reset, the run declares the controller ready: it goes there directly
from `notReady`, and it has no group. -/
theorem late_reset_leaves_no_groups : ∃ p p' : Pool (Shared (logEngine 8)) Pc,
    Relation.ReflTransGen ((program _).GuardedStep fun _ _ => True) (start sampleController) p ∧
      (program _).step p (.advance 3 .go) = some p' ∧
      p.shared.dc.state = .notReady ∧ p'.shared.dc.state = .ready ∧
      p'.shared.stateLock = none ∧ p'.shared.dc.isAlien = false ∧
      p'.shared.dc.vdisks = [0] ∧ p'.shared.dc.groups.length = 0 ∧ ¬ HasItsGroups p'.shared := by
  obtain ⟨p, followed, last⟩ : ∃ p,
      (program _).follow (fun _ _ => True) (start sampleController) lateReset = some p ∧
        (p.shared.dc.state, ((program _).step p (.advance 3 .go)).map fun p' =>
          (p'.shared.dc.state, p'.shared.stateLock, p'.shared.dc.isAlien, p'.shared.dc.vdisks,
            p'.shared.dc.groups.length)) = (.notReady, some (.ready, none, false, [0], 0)) := by
    apply Option.map_eq_some_iff.mp
    rfl
  obtain ⟨before, last⟩ := Prod.mk.inj last
  obtain ⟨p', stepped, outcome⟩ := Option.map_eq_some_iff.mp last
  simp only [Prod.mk.injEq] at outcome
  obtain ⟨ready, free, normal, vdisks, empty⟩ := outcome
  refine ⟨p, p', Program.reflTransGen_of_follow followed, stepped, before, ready, free, normal,
    vdisks, empty, fun has => ?_⟩
  obtain ⟨j, group, here, -⟩ := has 0 (by rw [vdisks]; exact List.mem_singleton_self _)
  rw [List.length_eq_zero_iff.mp empty] at here
  cases here

end Lifecycle

end Bob.Backend

/-
# Writers that race for a partition

Puts and forced deletes look for the partition that covers their timestamp under a
read lock. A writer that finds none takes the upgradable lock, which one task at a
time can have, and looks again before it creates a partition. Creating one may fail
and be tried again, all under that lock. The second look is what keeps two writers
from opening one directory: no two partitions of a group ever have the same start,
and a write that succeeds went to a partition that covers its timestamp.
-/

import Bob.Math.Interleaving
import Bob.Backend.Slots

namespace Bob.Backend

open Bob.Configs Bob.Math

variable {keySize : ℕ} {engine : StorageEngine keySize}

namespace SlotRaces

/-- The calls that create a partition if they find none. -/
inductive Request (keySize : ℕ)
  | put (key : BobKey keySize) (data : BobData)
  /-- A delete with `force_delete`. -/
  | delete (key : BobKey keySize) (bobMeta : BobMeta)
  deriving DecidableEq, Repr

def Request.timestamp : Request keySize → ℕ
  | .put _ data => data.bobMeta.timestamp.toNat
  | .delete _ bobMeta => bobMeta.timestamp.toNat

/-- What the writers share: the group, and the lock of its list of partitions. Read
locks are held for one step only, so they do not show. -/
structure Shared (engine : StorageEngine keySize) where
  group : Group engine
  /-- The task that has the upgradable lock. -/
  upgradable : Option ℕ

/-- Where a writer is. -/
inductive Pc (engine : StorageEngine keySize)
  | lookup (req : Request keySize)
  /-- It has found no partition and waits for the upgradable lock. -/
  | waiting (req : Request keySize)
  | lookupAgain (req : Request keySize)
  | creating (req : Request keySize)
  | pushing (req : Request keySize) (pearl : Holder engine)
  /-- It has the partition at that position. -/
  | writing (req : Request keySize) (index : ℕ)
  /-- A forced delete has marked the key there and goes on to older partitions. -/
  | listing (key : BobKey keySize) (bobMeta : BobMeta) (index : ℕ)
  | marking (key : BobKey keySize) (bobMeta : BobMeta) (index : ℕ) (before : List ℕ)
  | done (req : Request keySize) (written : Option ℕ) (res : Except (Error keySize) Unit)

/-- What a writer learns from outside as it advances. -/
inductive Event (engine : StorageEngine keySize)
  | go
  /-- How a try to open the storage of a new partition ended, and whether it was the
  last one. -/
  | prepared (res : Except OpenError engine.Storage) (last : Bool)

/-! ## The steps -/

def entry (req : Request keySize) : Pc engine := .lookup req

def advance (config : StartTimestampConfig) (s : Shared engine) (i : ℕ) :
    Pc engine → Event engine → Option (Shared engine × Pc engine)
  | .lookup req, .go =>
    if s.group.reinitLock then some (s, .done req none (.error .holderTemporaryUnavailable))
    else
      match Group.findActualHolder s.group.holders req.timestamp with
      | .ok (index, _) => some (s, .writing req index)
      | .error _ => some (s, .waiting req)
  | .waiting req, .go =>
    if s.upgradable = none then some ({ s with upgradable := some i }, .lookupAgain req) else none
  | .lookupAgain req, .go =>
    match Group.findActualHolder s.group.holders req.timestamp with
    | .ok (index, _) => some ({ s with upgradable := none }, .writing req index)
    | .error _ => some (s, .creating req)
  | .creating req, .prepared res last =>
    match (Group.createPearlByTimestamp s.group.settings req.timestamp config :
      Except Panic (Holder engine)) with
    -- a panic ends the node, and with it the run
    | .error _ => none
    | .ok pearl =>
      match res with
      | .ok storage => some (s, .pushing req { pearl with storage := some storage })
      | .error e =>
        if last then some ({ s with upgradable := none }, .done req none (.error e.toError))
        else some (s, .creating req)
  -- the lock is upgraded, and the partition is added
  | .pushing req pearl, .go =>
    some (⟨{ s.group with holders := s.group.holders ++ [pearl] }, none⟩,
      .writing req s.group.holders.length)
  | .writing (.put key data) index, .go =>
    s.group.holders[index]?.map fun holder =>
      let (res, holder) := Group.putCommon holder key data
      ({ s with group := s.group.setHolder index holder }, .done (.put key data) (some index) res)
  | .writing (.delete key bobMeta) index, .go =>
    s.group.holders[index]?.map fun holder =>
      let (res, holder) := Group.deleteCommon holder key bobMeta true
      ({ s with group := s.group.setHolder index holder },
        match res with
        | .ok _ => .listing key bobMeta index
        | .error e => .done (.delete key bobMeta) (some index) (.error e))
  | .listing key bobMeta index, .go =>
    s.group.holders[index]?.map fun actual =>
      (s, .marking key bobMeta index ((s.group.holders.zipIdx.filter fun entry =>
        entry.1.startTimestamp < actual.startTimestamp).map (·.2)).reverse)
  | .marking key bobMeta index (j :: before), .go =>
    s.group.holders[j]?.map fun holder =>
      ({ s with group := s.group.setHolder j (Group.deleteCommon holder key bobMeta false).2 },
        .marking key bobMeta index before)
  | .marking key bobMeta index [], .go =>
    some (s, .done (.delete key bobMeta) (some index) (.ok ()))
  | _, _ => none

/-- The writers of a group, all with one rounding mode. -/
def program (engine : StorageEngine keySize) (config : StartTimestampConfig) :
    Program (Shared engine) (Pc engine) (Request keySize) (Event engine) where
  entry := entry
  advance := advance config

/-- A group that nobody writes to yet. -/
def start (g : Group engine) : Pool (Shared engine) (Pc engine) where
  shared := ⟨g, none⟩
  tasks := []

/-! ## A put that nobody disturbs -/

variable {config : StartTimestampConfig}

private theorem step_alone {s s' : Shared engine} {pc pc' : Pc engine} (event : Event engine)
    (advanced : advance config s 0 pc event = some (s', pc')) :
    (program engine config).GuardedStep (fun _ _ => True) ⟨s, [pc]⟩ ⟨s', [pc']⟩ :=
  @Program.guardedStep_of_advance _ _ _ _ (program engine config) ⟨s, [pc]⟩ _ 0 pc event (s', pc')
    rfl advanced trivial

/-- A writer that misses twice has the lock and creates a partition. -/
private theorem creating_alone {g : Group engine} {req : Request keySize} {e : Error keySize}
    (unlocked : g.reinitLock = false)
    (missed : Group.findActualHolder g.holders req.timestamp = .error e) :
    Relation.ReflTransGen ((program engine config).GuardedStep fun _ _ => True)
      ⟨⟨g, none⟩, [.lookup req]⟩ ⟨⟨g, some 0⟩, [.creating req]⟩ := by
  have first : advance config ⟨g, none⟩ 0 (.lookup req) .go = some (⟨g, none⟩, .waiting req) := by
    simp [advance, unlocked, missed]
  have lock : advance config ⟨g, none⟩ 0 (.waiting req) .go =
      some (⟨g, some 0⟩, .lookupAgain req) := rfl
  have second : advance config ⟨g, some 0⟩ 0 (.lookupAgain req) .go =
      some (⟨g, some 0⟩, .creating req) := by
    simp [advance, missed]
  exact .head (step_alone _ first) (.head (step_alone _ lock) (.single (step_alone _ second)))

/-- A writer that runs by itself finds or creates the partition that
`get_or_create_actual_holder` says, or fails as that does. -/
private theorem getOrCreateActualHolder_alone {g : Group engine} (req : Request keySize)
    {found : Except (Error keySize) ((ℕ × Holder engine) × Group engine)}
    (unlocked : g.reinitLock = false)
    (done : g.getOrCreateActualHolder req.timestamp config = .ok found) :
    match found with
    | .ok ((index, holder), g') => g'.holders[index]? = some holder ∧
        Relation.ReflTransGen ((program engine config).GuardedStep fun _ _ => True)
          ⟨⟨g, none⟩, [.lookup req]⟩ ⟨⟨g', none⟩, [.writing req index]⟩
    | .error e => Relation.ReflTransGen ((program engine config).GuardedStep fun _ _ => True)
        ⟨⟨g, none⟩, [.lookup req]⟩ ⟨⟨g, none⟩, [.done req none (.error e)]⟩ := by
  unfold Group.getOrCreateActualHolder at done
  split at done
  · rename_i looked
    cases done
    exact ⟨(Group.findActualHolder_spec looked).1,
      .single (step_alone .go (by simp [advance, unlocked, looked]))⟩
  rename_i missed
  rw [Group.getOrCreateWritePearl, missed] at done
  obtain ⟨created, hcreated, done⟩ := bind_eq_ok_iff.mp done
  obtain ⟨pearl, hpearl, prepared⟩ := bind_eq_ok_iff.mp hcreated
  cases prepared
  have creating : Relation.ReflTransGen ((program engine config).GuardedStep fun _ _ => True)
    ⟨⟨g, none⟩, [.lookup req]⟩ ⟨⟨g, some 0⟩, [.creating req]⟩ := creating_alone unlocked missed
  unfold Holder.prepareStorage at done
  cases opened : engine.openDir (Group.onDisk g.holders pearl.startTimestamp) with
  | error e =>
    rw [opened] at done
    cases done
    have failed : advance config ⟨g, some 0⟩ 0 (.creating req) (.prepared (.error e) true) =
        some (⟨g, none⟩, .done req none (.error e.toError)) := by
      simp [advance, hpearl]
    exact creating.tail (step_alone _ failed)
  | ok storage =>
    rw [opened] at done
    cases done
    have prepared : advance config ⟨g, some 0⟩ 0 (.creating req) (.prepared (.ok storage) true) =
        some (⟨g, some 0⟩, .pushing req { pearl with storage := some storage }) := by
      simp [advance, hpearl]
    refine ⟨List.getElem?_concat_length, (creating.tail (step_alone _ prepared)).tail ?_⟩
    exact step_alone .go rfl

/-- A put that runs by itself does what `Group.put` says. -/
theorem put_alone {g g' : Group engine} {key : BobKey keySize} {data : BobData}
    {res : Except (Error keySize) Unit} (done : g.put key data config = .ok (res, g')) :
    ∃ written, Relation.ReflTransGen ((program engine config).GuardedStep fun _ _ => True)
      ⟨⟨g, none⟩, [.lookup (.put key data)]⟩
      ⟨⟨g', none⟩, [.done (.put key data) written res]⟩ := by
  unfold Group.put at done
  split_ifs at done with locked
  · cases done
    exact ⟨none, .single (step_alone .go (by simp [advance, locked]))⟩
  obtain ⟨found, hfound, done⟩ := bind_eq_ok_iff.mp done
  have reached := getOrCreateActualHolder_alone (.put key data) (by simpa using locked) hfound
  split at done
  · cases done
    exact ⟨none, reached⟩
  · rename_i index holder g''
    obtain ⟨here, reached⟩ := reached
    rcases outcome : Group.putCommon holder key data with ⟨answer, written⟩
    rw [outcome] at done
    cases done
    have write : advance config ⟨g'', none⟩ 0 (.writing (.put key data) index) .go =
        some (⟨g''.setHolder index written, none⟩, .done (.put key data) (some index) res) := by
      simp [advance, here, outcome]
    exact ⟨some index, reached.tail (step_alone _ write)⟩

/-! ## Covered times -/

/-- The partition at the position covers the time. -/
def CoveredAt (g : Group engine) (index time : ℕ) : Prop :=
  ∃ iv, g.intervals[index]? = some iv ∧ iv.1 ≤ time ∧ time < iv.2

/-- No partition covers the time. -/
def Uncovered (g : Group engine) (time : ℕ) : Prop :=
  ∀ iv ∈ g.intervals, ¬ (iv.1 ≤ time ∧ time < iv.2)

theorem CoveredAt.exists_holder {g : Group engine} {index time : ℕ}
    (covered : CoveredAt g index time) :
    ∃ holder, g.holders[index]? = some holder ∧ holder.getsIntoInterval time = true := by
  obtain ⟨iv, here, covers⟩ := covered
  obtain ⟨holder, hholder, rfl⟩ := Option.map_eq_some_iff.mp (List.getElem?_map ▸ here)
  exact ⟨holder, hholder, by simpa [Holder.getsIntoInterval, Holder.interval] using covers⟩

theorem coveredAt_of_findActualHolder {g : Group engine} {time index : ℕ} {holder : Holder engine}
    (found : Group.findActualHolder g.holders time = .ok (index, holder)) :
    CoveredAt g index time := by
  obtain ⟨here, covers⟩ := Group.findActualHolder_spec found
  exact ⟨holder.interval, by rw [Group.intervals, List.getElem?_map, here]; rfl, covers⟩

theorem uncovered_of_findActualHolder {g : Group engine} {time : ℕ} {e : Error keySize}
    (failed : Group.findActualHolder g.holders time = .error e) : Uncovered g time := by
  intro iv hiv covers
  obtain ⟨holder, hholder, rfl⟩ := List.mem_map.mp hiv
  have := Group.getsIntoInterval_of_findActualHolder failed holder hholder
  simp_all [Holder.getsIntoInterval, Holder.interval]

/-! ## What writers rely on -/

/-- What holds of the group in every state: starts are distinct, and every partition has
the length of the period. -/
structure Slotted (secs : ℕ) (s : Shared engine) : Prop where
  daily : DailyPeriod s.group.settings.timestampPeriod secs
  nodup : (s.group.intervals.map Prod.fst).Nodup
  ends : ∀ iv ∈ s.group.intervals, iv.2 = iv.1 + secs

/-- What a writer relies on at its program counter. -/
def Relies (secs : ℕ) (s : Shared engine) (i : ℕ) : Pc engine → Prop
  | .lookupAgain _ => s.upgradable = some i
  | .creating req => s.upgradable = some i ∧ Uncovered s.group req.timestamp
  | .pushing req pearl => s.upgradable = some i ∧ Uncovered s.group req.timestamp ∧
      pearl.getsIntoInterval req.timestamp = true ∧
      pearl.endTimestamp = pearl.startTimestamp + secs
  | .writing req index => CoveredAt s.group index req.timestamp
  | .listing _ bobMeta index => CoveredAt s.group index bobMeta.timestamp.toNat
  | .marking _ bobMeta index _ => CoveredAt s.group index bobMeta.timestamp.toNat
  | .done req written res => (∀ index ∈ written, CoveredAt s.group index req.timestamp) ∧
      (res = .ok () → written.isSome)
  | _ => True

/-- What a step does to the list: it is kept or gets longer, and nobody but the task
that has the upgradable lock makes it longer or takes the lock away. -/
structure Grows (s s' : Shared engine) (i : ℕ) : Prop where
  isPrefix : s.group.intervals <+: s'.group.intervals
  owner : ∀ j, j ≠ i → s.upgradable = some j →
    s'.group.intervals = s.group.intervals ∧ s'.upgradable = some j

variable {secs i j : ℕ} {s s' : Shared engine} {pc pc' other : Pc engine} {event : Event engine}

theorem CoveredAt.mono {g g' : Group engine} {index time : ℕ}
    (covered : CoveredAt g index time) (grows : g.intervals <+: g'.intervals) :
    CoveredAt g' index time := by
  obtain ⟨iv, here, covers⟩ := covered
  obtain ⟨inside, rfl⟩ := List.getElem?_eq_some_iff.mp here
  refine ⟨_, ?_, covers⟩
  rw [List.getElem?_eq_getElem (inside.trans_le grows.length_le), grows.getElem inside]

/-- A step of one writer leaves what the others rely on. -/
theorem Relies.of_grows (relies : Relies secs s j other) (grows : Grows s s' i) (ne : j ≠ i) :
    Relies secs s' j other := by
  cases other with
  | lookup | waiting => trivial
  | lookupAgain => exact (grows.owner j ne relies).2
  | creating req =>
    obtain ⟨same, owner⟩ := grows.owner j ne relies.1
    exact ⟨owner, fun iv hiv => relies.2 iv (same ▸ hiv)⟩
  | pushing req pearl =>
    obtain ⟨same, owner⟩ := grows.owner j ne relies.1
    exact ⟨owner, fun iv hiv => relies.2.1 iv (same ▸ hiv), relies.2.2⟩
  | writing | listing | marking => exact CoveredAt.mono relies grows.isPrefix
  | done req written res =>
    exact ⟨fun index hindex => (relies.1 index hindex).mono grows.isPrefix, relies.2⟩

/-- A step that keeps the intervals keeps the invariant, and the others lose nothing
unless the lock is taken from them. -/
theorem keeps_of_intervals_eq (slotted : Slotted secs s)
    (intervals : s'.group.intervals = s.group.intervals)
    (settings : s'.group.settings = s.group.settings)
    (owner : ∀ j, j ≠ i → s.upgradable = some j → s'.upgradable = some j) :
    Slotted secs s' ∧ Grows s s' i := by
  refine ⟨⟨?_, ?_, ?_⟩, ⟨?_, fun j ne has => ⟨intervals, owner j ne has⟩⟩⟩
  · rw [settings]
    exact slotted.daily
  · rw [intervals]
    exact slotted.nodup
  · rw [intervals]
    exact slotted.ends
  · rw [intervals]

/-- The new partition covers a time that none covered. One with its start would have
its end too, and cover that time. -/
theorem Slotted.push {pearl : Holder engine} {time : ℕ} (slotted : Slotted secs s)
    (uncovered : Uncovered s.group time) (covers : pearl.getsIntoInterval time = true)
    (ends : pearl.endTimestamp = pearl.startTimestamp + secs) (owner : Option ℕ) :
    Slotted secs ⟨{ s.group with holders := s.group.holders ++ [pearl] }, owner⟩ := by
  have pushed : ({ s.group with holders := s.group.holders ++ [pearl] } : Group engine).intervals =
      s.group.intervals ++ [pearl.interval] := by
    simp [Group.intervals]
  refine ⟨slotted.daily, ?_, ?_⟩
  · rw [pushed, List.map_append, List.map_singleton]
    refine slotted.nodup.append (List.nodup_singleton _) ?_
    intro start earlier here
    obtain ⟨iv, hiv, rfl⟩ := List.mem_map.mp earlier
    have same : iv.1 = pearl.startTimestamp := List.mem_singleton.mp here
    refine uncovered iv hiv ?_
    rw [slotted.ends iv hiv, same, ← ends]
    simpa [Holder.getsIntoInterval] using covers
  · intro iv hiv
    rw [pushed, List.mem_append, List.mem_singleton] at hiv
    obtain hiv | rfl := hiv
    · exact slotted.ends iv hiv
    · exact ends

/-- A partition is written to: intervals stay as they are. -/
theorem keeps_of_setHolder {index : ℕ} {old new : Holder engine} (slotted : Slotted secs s)
    (here : s.group.holders[index]? = some old) (same : new.interval = old.interval) :
    (Slotted secs { s with group := s.group.setHolder index new } ∧
      Grows s { s with group := s.group.setHolder index new } i) ∧
    ∀ at' time, CoveredAt s.group at' time → CoveredAt (s.group.setHolder index new) at' time := by
  have kept := Group.intervals_setHolder here same
  refine ⟨keeps_of_intervals_eq slotted kept rfl fun _ _ has => has, fun at' time covered => ?_⟩
  exact covered.mono (by rw [kept])

/-- The task that has the lock gives it back. -/
theorem keeps_of_released (slotted : Slotted secs s) (mine : s.upgradable = some i) :
    Slotted secs { s with upgradable := none } ∧ Grows s { s with upgradable := none } i := by
  refine keeps_of_intervals_eq slotted rfl rfl fun j ne has => ?_
  rw [mine] at has
  exact absurd (Option.some.inj has).symm ne

/-- A writer that advances keeps the invariant and finds what it relies on next. -/
theorem advance_keeps (slotted : Slotted secs s) (relies : Relies secs s i pc)
    (advanced : advance config s i pc event = some (s', pc')) :
    (Slotted secs s' ∧ Grows s s' i) ∧ Relies secs s' i pc' := by
  have same : Slotted secs s ∧ Grows s s i :=
    keeps_of_intervals_eq slotted rfl rfl fun _ _ has => has
  unfold advance at advanced
  split at advanced
  case h_1 req =>
    split_ifs at advanced
    · cases advanced
      exact ⟨same, by rintro index ⟨⟩, by rintro ⟨⟩⟩
    split at advanced
    · rename_i found
      cases advanced
      exact ⟨same, coveredAt_of_findActualHolder found⟩
    · cases advanced
      exact ⟨same, trivial⟩
  case h_2 req =>
    split_ifs at advanced with free
    cases advanced
    refine ⟨keeps_of_intervals_eq slotted rfl rfl fun j _ has => ?_, rfl⟩
    rw [free] at has
    cases has
  case h_3 req =>
    split at advanced
    · rename_i found
      cases advanced
      exact ⟨keeps_of_released slotted relies, coveredAt_of_findActualHolder found⟩
    · rename_i failed
      cases advanced
      exact ⟨same, relies, uncovered_of_findActualHolder failed⟩
  case h_4 req res last =>
    split at advanced
    · cases advanced
    rename_i pearl created
    split at advanced
    · cases advanced
      have covers := Group.getsIntoInterval_of_created slotted.daily created
      have ends := (Group.createPearlByTimestamp_eq_ok slotted.daily created).2.1
      exact ⟨same, relies.1, relies.2, covers, ends⟩
    · split_ifs at advanced
      · cases advanced
        exact ⟨keeps_of_released slotted relies.1, by rintro index ⟨⟩, by rintro ⟨⟩⟩
      · cases advanced
        exact ⟨same, relies⟩
  case h_5 req pearl =>
    obtain ⟨mine, uncovered, covers, ends⟩ := relies
    cases advanced
    refine ⟨⟨slotted.push uncovered covers ends none, ⟨?_, ?_⟩⟩, pearl.interval, ?_, ?_⟩
    · simp [Group.intervals]
    · intro j ne has
      rw [mine] at has
      exact absurd (Option.some.inj has).symm ne
    · simp [Group.intervals]
    · simpa [Holder.getsIntoInterval, Holder.interval] using covers
  case h_6 key data index =>
    obtain ⟨holder, here, advanced⟩ := Option.map_eq_some_iff.mp advanced
    obtain ⟨kept, covered⟩ := keeps_of_setHolder slotted here Holder.interval_putCommon
    cases advanced
    refine ⟨kept, ?_, fun _ => rfl⟩
    rintro written ⟨⟩
    exact covered _ _ relies
  case h_7 key bobMeta index =>
    obtain ⟨holder, here, advanced⟩ := Option.map_eq_some_iff.mp advanced
    obtain ⟨kept, covered⟩ := keeps_of_setHolder slotted here Holder.interval_deleteCommon
    rcases outcome : Group.deleteCommon holder key bobMeta true with ⟨res, marked⟩
    rw [outcome] at advanced kept covered
    cases res with
    | ok =>
      cases advanced
      exact ⟨kept, covered _ _ relies⟩
    | error e =>
      cases advanced
      refine ⟨kept, ?_, fun _ => rfl⟩
      rintro written ⟨⟩
      exact covered _ _ relies
  case h_8 key bobMeta index =>
    obtain ⟨actual, here, advanced⟩ := Option.map_eq_some_iff.mp advanced
    cases advanced
    exact ⟨same, relies⟩
  case h_9 key bobMeta index j before =>
    obtain ⟨holder, here, advanced⟩ := Option.map_eq_some_iff.mp advanced
    obtain ⟨kept, covered⟩ := keeps_of_setHolder slotted here Holder.interval_deleteCommon
    cases advanced
    exact ⟨kept, covered _ _ relies⟩
  case h_10 key bobMeta index =>
    cases advanced
    refine ⟨same, ?_, fun _ => rfl⟩
    rintro written ⟨⟩
    exact relies
  case h_11 => cases advanced

/-- A put succeeds only with a write to the partition that it has found. -/
theorem advance_done_put {key : BobKey keySize} {data : BobData} {written : Option ℕ}
    (advanced : advance config s i pc event = some (s', .done (.put key data) written (.ok ()))) :
    ∃ index holder holder', pc = .writing (.put key data) index ∧ written = some index ∧
      s.group.holders[index]? = some holder ∧ holder.write key data = .ok holder' ∧
      s'.group = s.group.setHolder index holder' := by
  unfold advance at advanced
  split at advanced
  case h_6 key data index =>
    obtain ⟨holder, here, advanced⟩ := Option.map_eq_some_iff.mp advanced
    rcases outcome : Group.putCommon holder key data with ⟨res, holder'⟩
    rw [outcome] at advanced
    cases advanced
    unfold Group.putCommon at outcome
    split at outcome
    · rename_i wrote
      cases outcome
      exact ⟨index, holder, holder', rfl, rfl, here, wrote, rfl⟩
    · split_ifs at outcome <;> cases outcome
  case h_7 =>
    obtain ⟨holder, here, advanced⟩ := Option.map_eq_some_iff.mp advanced
    dsimp only at advanced
    split at advanced <;> cases advanced
  case h_8 | h_9 =>
    obtain ⟨_, _, advanced⟩ := Option.map_eq_some_iff.mp advanced
    cases advanced
  -- no other step ends with a success
  all_goals repeat' first | cases advanced | split at advanced

/-- However puts and forced deletes are interleaved, and however often a partition
could not be opened, no two partitions have one start. A put that succeeds does so with
a write to a partition that covers its timestamp, and the partition at that place covers
it ever after. -/
theorem one_partition_per_slot {g : Group engine} {p : Pool (Shared engine) (Pc engine)}
    (daily : DailyPeriod g.settings.timestampPeriod secs)
    (distinct : (g.holders.map (·.startTimestamp)).Nodup)
    (current : ∀ holder ∈ g.holders, holder.endTimestamp = holder.startTimestamp + secs)
    (run : Relation.ReflTransGen ((program engine config).GuardedStep fun _ _ => True)
      (start g) p) :
    (p.shared.group.holders.map (·.startTimestamp)).Nodup ∧
    (∀ (i : ℕ) (key : BobKey keySize) (data : BobData) (written : Option ℕ),
      p.tasks[i]? = some (.done (.put key data) written (.ok ())) →
      ∃ index holder, written = some index ∧ p.shared.group.holders[index]? = some holder ∧
        holder.getsIntoInterval data.bobMeta.timestamp.toNat = true) ∧
    ∀ (i : ℕ) (event : Event engine) (p' : Pool (Shared engine) (Pc engine))
        (key : BobKey keySize) (data : BobData) (written : Option ℕ),
      (program engine config).step p (.advance i event) = some p' →
      p'.tasks[i]? = some (.done (.put key data) written (.ok ())) →
      ∃ index holder holder', written = some index ∧
        p.shared.group.holders[index]? = some holder ∧
        holder.getsIntoInterval data.bobMeta.timestamp.toNat = true ∧
        holder.write key data = .ok holder' ∧
        p'.shared.group = p.shared.group.setHolder index holder' := by
  have initial : (start g).Sound (Slotted secs) (Relies secs) := by
    refine ⟨⟨daily, ?_, ?_⟩, ?_⟩
    · rw [start, Group.map_fst_intervals]
      exact distinct
    · intro iv hiv
      obtain ⟨holder, hholder, rfl⟩ := List.mem_map.mp hiv
      exact current holder hholder
    · rintro i pc ⟨⟩
  have sound := initial.of_reflTransGen (fun s i call => by trivial)
    (fun p i event pc shared pc' sound here _ advanced => by
      obtain ⟨⟨slotted, grows⟩, own⟩ :=
        advance_keeps sound.shared (sound.tasks i pc here) advanced
      exact ⟨slotted, own, fun j other ne _ relies => relies.of_grows grows ne⟩) run
  refine ⟨?_, fun i key data written finished => ?_,
    fun i event p' key data written stepped finished => ?_⟩
  · rw [← Group.map_fst_intervals]
    exact sound.shared.nodup
  · obtain ⟨covered, some⟩ := sound.tasks i _ finished
    obtain ⟨index, rfl⟩ := Option.isSome_iff_exists.mp (some rfl)
    obtain ⟨holder, here, covers⟩ := (covered index rfl).exists_holder
    exact ⟨index, holder, rfl, here, covers⟩
  · obtain ⟨_, ⟨⟩, -⟩ | ⟨_, _, pc, shared, pc', ⟨⟩, before, advanced, rfl⟩ :=
      Program.step_cases stepped
    rw [List.getElem?_set_self (List.getElem?_eq_some_iff.mp before).1] at finished
    cases finished
    obtain ⟨index, holder, holder', rfl, rfl, here, wrote, after⟩ := advance_done_put advanced
    obtain ⟨_, found, covers⟩ := (sound.tasks i _ before).exists_holder
    cases here.symm.trans found
    exact ⟨index, holder, holder', rfl, here, covers, wrote, after⟩

/-! ## Two first writes of a slot -/

def freshGroup : Group (logEngine 8) :=
  .new ⟨.ofDays 1, none, none, fun _ => true⟩ 0 ⟨"alpha"⟩ ⟨"disk1"⟩

def putAt (byte : UInt8) (second : UInt64) : Request 8 :=
  .put ⟨.replicate 8 byte⟩ ⟨[], ⟨second⟩⟩

/-- Two puts of one day find no partition. The first that has the lock fails to open one
and tries again; the other then finds it. -/
def firstWrites : List (Action (Request 8) (Event (logEngine 8))) :=
  [.call (putAt 0 5), .call (putAt 1 7),
    .advance 0 .go, .advance 1 .go, .advance 0 .go, .advance 0 .go,
    .advance 0 (.prepared (.error (.failed "busy")) false), .advance 0 (.prepared (.ok []) true),
    .advance 0 .go, .advance 1 .go, .advance 1 .go, .advance 0 .go]

/-- One put is done, and then the other writes to the same partition. -/
theorem first_writes_share_a_partition : ∃ p p' : Pool (Shared (logEngine 8)) (Pc (logEngine 8)),
    Relation.ReflTransGen ((program _ .default).GuardedStep fun _ _ => True) (start freshGroup) p ∧
    (program _ .default).step p (.advance 1 .go) = some p' ∧
    p'.shared.group.holders.length = 1 ∧
    (p.shared.group.holders.map (·.startTimestamp)).Nodup ∧
    (∃ index holder, some 0 = some index ∧ p.shared.group.holders[index]? = some holder ∧
      holder.getsIntoInterval 5 = true) ∧
    ∃ index holder holder', some 0 = some index ∧ p.shared.group.holders[index]? = some holder ∧
      holder.getsIntoInterval 7 = true ∧
      holder.write ⟨.replicate 8 1⟩ ⟨[], ⟨7⟩⟩ = .ok holder' ∧
      p'.shared.group = p.shared.group.setHolder index holder' := by
  obtain ⟨p, followed, outcome⟩ : ∃ p,
      (program _ .default).follow (fun _ _ => True) (start freshGroup) firstWrites = some p ∧
        (p.tasks[0]?, ((program _ .default).step p (.advance 1 .go)).map fun p' =>
          (p'.tasks[1]?, p'.shared.group.holders.length)) =
          (some (.done (putAt 0 5) (some 0) (.ok ())),
            some (some (.done (putAt 1 7) (some 0) (.ok ())), 1)) := by
    apply Option.map_eq_some_iff.mp
    rfl
  obtain ⟨first, second⟩ := Prod.mk.inj outcome
  obtain ⟨p', stepped, second⟩ := Option.map_eq_some_iff.mp second
  obtain ⟨finished, one⟩ := Prod.mk.inj second
  have reached := Program.reflTransGen_of_follow followed
  have daily : DailyPeriod freshGroup.settings.timestampPeriod 86400 :=
    ⟨by decide, by decide, by decide⟩
  obtain ⟨nodup, covered, written⟩ := one_partition_per_slot daily (by decide)
    (fun _ member => absurd member (List.not_mem_nil)) reached
  exact ⟨p, p', reached, stepped, one, nodup, covered 0 _ _ _ first,
    written 1 _ _ _ _ _ stepped finished⟩

end SlotRaces

end Bob.Backend

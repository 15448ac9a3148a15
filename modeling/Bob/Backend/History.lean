/-
# The records of a group are those of its history

A history of a group is a sequence of puts and forced deletes that succeeded, with
restarts in between that may change the period. Whatever the period and the order
of timestamps, the partitions together hold exactly the records of the history,
and each record is in a partition that starts not much earlier than its timestamp.
The conditional markers that a delete leaves in older partitions repeat a record
that is kept elsewhere.
-/

import Bob.Backend.Reading

namespace Bob.Backend

open Bob.Configs Bob.Math

variable {keySize : ℕ} {engine : StorageEngine keySize}

/-- A write to a group. -/
inductive GroupOp (keySize : ℕ)
  | put (key : BobKey keySize) (data : BobData)
  | delete (key : BobKey keySize) (bobMeta : BobMeta)
  deriving DecidableEq

namespace GroupOp

def key : GroupOp keySize → BobKey keySize
  | put key _ => key
  | delete key _ => key

/-- The record that the write is to leave. -/
def record : GroupOp keySize → Record
  | put _ data => .value data
  | delete _ bobMeta => .marker bobMeta.timestamp.toNat

def timestamp (op : GroupOp keySize) : ℕ := op.record.timestamp

/-- The write succeeds and turns one group into the other. Deletes are forced. -/
def Succeeds (op : GroupOp keySize) (config : StartTimestampConfig) (g g' : Group engine) : Prop :=
  match op with
  | put key data => g.put key data config = .ok (.ok (), g')
  | delete key bobMeta => ∃ count, g.delete key bobMeta config true = .ok (.ok count, g')

/-- The group after the write, if it succeeds. -/
def perform (op : GroupOp keySize) (config : StartTimestampConfig) (g : Group engine) :
    Option (Group engine) :=
  match op with
  | put key data =>
    match g.put key data config with
    | .ok (.ok _, g') => some g'
    | _ => none
  | delete key bobMeta =>
    match g.delete key bobMeta config true with
    | .ok (.ok _, g') => some g'
    | _ => none

theorem succeeds_of_perform {op : GroupOp keySize} {config : StartTimestampConfig}
    {g g' : Group engine} (performed : op.perform config g = some g') :
    op.Succeeds config g g' := by
  cases op with
  | put key data =>
    unfold perform at performed
    dsimp only at performed
    split at performed
    · cases performed
      assumption
    · cases performed
  | delete key bobMeta =>
    unfold perform at performed
    dsimp only at performed
    split at performed
    · cases performed
      exact ⟨_, by assumption⟩
    · cases performed

end GroupOp

/-- How a group came about: the periods it ran with and the writes it took. -/
inductive History : List Duration → List (GroupOp keySize) → Group engine → Prop
  | new (settings : Settings) (vdiskId : VDiskId) (nodeName : NodeName) (diskName : DiskName) :
      History [settings.timestampPeriod] [] (.new settings vdiskId nodeName diskName)
  | write {periods : List Duration} {ops : List (GroupOp keySize)} {g g' : Group engine}
      {op : GroupOp keySize} {config : StartTimestampConfig}
      (before : History periods ops g) (succeeds : op.Succeeds config g g') :
      History periods (ops ++ [op]) g'
  | restart {periods : List Duration} {ops : List (GroupOp keySize)} {g g' : Group engine}
      {settings : Settings} {now : ℕ}
      (before : History periods ops g) (started : g.run settings now = .ok g') :
      History (periods ++ [settings.timestampPeriod]) ops g'

/-- A sequence of writes that succeed extends a history. -/
theorem History.writes {periods : List Duration} {ops : List (GroupOp keySize)}
    {config : StartTimestampConfig} {g g' : Group engine} (before : History periods ops g)
    {more : List (GroupOp keySize)}
    (performed : more.foldlM (fun g op => GroupOp.perform op config g) g = some g') :
    History periods (ops ++ more) g' := by
  induction more generalizing ops g with
  | nil =>
    cases performed
    rwa [List.append_nil]
  | cons op more ih =>
    rw [List.foldlM_cons] at performed
    obtain ⟨next, hnext, rest⟩ := Option.bind_eq_some_iff.mp performed
    have extended := ih (before.write (GroupOp.succeeds_of_perform hnext)) rest
    rwa [List.append_assoc, List.singleton_append] at extended

/-- The partition has the record. -/
def Holder.Has (lawful : engine.Lawful) (holder : Holder engine) (key : BobKey keySize)
    (r : Record) : Prop :=
  ∃ storage, holder.storage = some storage ∧ lawful.Holds storage key r

/-- A timestamp that a partition with this start may have been given: under one of the
periods, up to the second lost by rounding. -/
def NearStart (periods : List Duration) (start timestamp : ℕ) : Prop :=
  ∃ period ∈ periods, timestamp ≤ start + period.asSecs + 1

/-- The partitions hold exactly the records of the history. -/
structure Group.Represents (lawful : engine.Lawful) (g : Group engine) (periods : List Duration)
    (ops : List (GroupOp keySize)) : Prop where
  unlocked : g.reinitLock = false
  period_mem : g.settings.timestampPeriod ∈ periods
  running : ∀ holder ∈ g.holders, holder.storage.isSome
  ends : ∀ holder ∈ g.holders,
    holder.endTimestamp = holder.startTimestamp + g.settings.timestampPeriodAsSecs
  /-- Every record is in a partition that starts near its timestamp. -/
  held : ∀ op ∈ ops, ∃ holder ∈ g.holders,
    holder.Has lawful op.key op.record ∧ NearStart periods holder.startTimestamp op.timestamp
  sound : ∀ holder ∈ g.holders, ∀ key r, holder.Has lawful key r →
    ∃ op ∈ ops, op.key = key ∧ op.record = r
  /-- Unlike a marker, a value is only in partitions that start near its timestamp. -/
  values : ∀ holder ∈ g.holders, ∀ key data, holder.Has lawful key (.value data) →
    NearStart periods holder.startTimestamp (Record.value data).timestamp
  /-- A step in use is the one that the settings ask for. -/
  stepped : ∀ step, g.safeTimestampStep = some step → 1 ≤ step ∧
    ∃ adjust, g.settings.skipHoldersByTimestampStepWhenReading = some adjust ∧
      adjust.asSecs ≤ step

namespace Group

variable {lawful : engine.Lawful} {g g' : Group engine} {periods : List Duration}
  {ops : List (GroupOp keySize)} {key : BobKey keySize}

/-! ## Growing partitions -/

/-- The partition has run on, and only records that are allowed have been added. -/
structure Grows (lawful : engine.Lawful) (allowed : ℕ → BobKey keySize → Record → Prop)
    (old new : Holder engine) : Prop where
  startTimestamp : new.startTimestamp = old.startTimestamp
  endTimestamp : new.endTimestamp = old.endTimestamp
  running : old.storage.isSome → new.storage.isSome
  kept : ∀ key r, old.Has lawful key r → new.Has lawful key r
  added : ∀ key r, new.Has lawful key r →
    old.Has lawful key r ∨ allowed old.startTimestamp key r

theorem Grows.refl {allowed : ℕ → BobKey keySize → Record → Prop} (holder : Holder engine) :
    Grows lawful allowed holder holder :=
  ⟨rfl, rfl, id, fun _ _ => id, fun _ _ => Or.inl⟩

theorem Grows.trans {allowed : ℕ → BobKey keySize → Record → Prop} {a b c : Holder engine}
    (first : Grows lawful allowed a b) (second : Grows lawful allowed b c) :
    Grows lawful allowed a c where
  startTimestamp := second.startTimestamp.trans first.startTimestamp
  endTimestamp := second.endTimestamp.trans first.endTimestamp
  running := second.running ∘ first.running
  kept := fun key r has => second.kept key r (first.kept key r has)
  added := fun key r has =>
    (second.added key r has).elim (first.added key r) fun new => Or.inr (first.startTimestamp ▸ new)

theorem Grows.mono {allowed allowed' : ℕ → BobKey keySize → Record → Prop}
    {old new : Holder engine} (grows : Grows lawful allowed old new)
    (weaker : ∀ start key r, allowed start key r → allowed' start key r) :
    Grows lawful allowed' old new :=
  { grows with added := fun key r has => (grows.added key r has).imp_right (weaker _ key r) }

/-- What is added to a partition may be said to be added where its start is. -/
theorem Grows.restrict {allowed : ℕ → BobKey keySize → Record → Prop} {meets : ℕ → Prop}
    {old new : Holder engine} (grows : Grows lawful allowed old new)
    (here : meets old.startTimestamp) :
    Grows lawful (fun start key r => meets start ∧ allowed start key r) old new :=
  { grows with added := fun key r has => (grows.added key r has).imp_right (And.intro here) }

/-- Visits that relate each partition to what replaces it relate the whole lists. -/
theorem forall₂_visitRev {R : Holder engine → Holder engine → Prop} {σ : Type}
    {possible : ℕ → Holder engine → Bool} {visit : σ → Holder engine → σ × Holder engine}
    {init : σ} {holders : List (Holder engine)} {index : ℕ}
    (passed : ∀ i, ∀ holder ∈ holders, possible i holder = false → R holder holder)
    (related : ∀ i seen, ∀ holder ∈ holders, possible i holder = true →
      R holder (visit seen holder).2) :
    List.Forall₂ R holders (visitRev possible visit init holders index).2 := by
  induction holders generalizing index with
  | nil => exact .nil
  | cons holder rest ih =>
    have later : List.Forall₂ R rest (visitRev possible visit init rest (index + 1)).2 :=
      ih (fun i other member => passed i other (List.mem_cons_of_mem _ member))
        fun i seen other member => related i seen other (List.mem_cons_of_mem _ member)
    rw [visitRev]
    by_cases passes : possible index holder = true
    · simp only [passes, if_true]
      exact .cons (related index _ holder List.mem_cons_self passes) later
    · simp only [passes, if_false, Bool.false_eq_true]
      exact .cons (passed index holder List.mem_cons_self (Bool.eq_false_iff.mpr passes)) later

/-- The record of one write, in a partition that may take it. -/
structure Wrote (periods : List Duration) (op : GroupOp keySize) (start : ℕ)
    (key : BobKey keySize) (r : Record) : Prop where
  key_eq : op.key = key
  record_eq : op.record = r
  near : ∀ data, r = .value data → NearStart periods start r.timestamp

private theorem Represents.grow {op : GroupOp keySize}
    (represents : g.Represents lawful periods ops) {holders : List (Holder engine)}
    (grown : List.Forall₂ (Grows lawful (Wrote periods op)) g.holders holders)
    (home : ∃ holder ∈ holders, holder.Has lawful op.key op.record ∧
      NearStart periods holder.startTimestamp op.timestamp) :
    Represents lawful { g with holders := holders } periods (ops ++ [op]) where
  unlocked := represents.unlocked
  period_mem := represents.period_mem
  running := by
    intro holder member
    obtain ⟨old, hold, grows⟩ := exists_mem_of_forall₂ grown member
    exact grows.running (represents.running old hold)
  ends := by
    intro holder member
    obtain ⟨old, hold, grows⟩ := exists_mem_of_forall₂ grown member
    rw [grows.endTimestamp, grows.startTimestamp]
    exact represents.ends old hold
  held := by
    intro other member
    rcases List.mem_append.mp member with earlier | last
    · obtain ⟨old, hold, has, near⟩ := represents.held other earlier
      obtain ⟨new, hnew, grows⟩ := exists_mem_of_forall₂ grown.flip hold
      exact ⟨new, hnew, grows.kept _ _ has, grows.startTimestamp ▸ near⟩
    · rw [List.mem_singleton.mp last]
      exact home
  sound := by
    intro holder member key r has
    obtain ⟨old, hold, grows⟩ := exists_mem_of_forall₂ grown member
    rcases grows.added key r has with before | wrote
    · obtain ⟨source, hsource, same⟩ := represents.sound old hold key r before
      exact ⟨source, List.mem_append_left _ hsource, same⟩
    · exact ⟨op, by simp, wrote.key_eq, wrote.record_eq⟩
  values := by
    intro holder member key data has
    obtain ⟨old, hold, grows⟩ := exists_mem_of_forall₂ grown member
    rw [grows.startTimestamp]
    rcases grows.added key _ has with before | wrote
    · exact represents.values old hold key data before
    · exact wrote.near data rfl
  stepped := represents.stepped

/-! ## Writing to a partition -/

section Holder

variable {holder : Holder engine}

/-- The value of a put, as the only record that it may add, in a partition with this
start. -/
def Puts (key : BobKey keySize) (data : BobData) (home start : ℕ) (other : BobKey keySize)
    (r : Record) : Prop :=
  start = home ∧ other = key ∧ r = .value data

theorem exists_putCommon (lawful : engine.Lawful) (key : BobKey keySize)
    (running : holder.storage.isSome) (data : BobData) :
    ∃ written, putCommon holder key data = (.ok (), written) ∧
      Grows lawful (Puts key data holder.startTimestamp) holder written ∧
      written.Has lawful key (.value data) := by
  obtain ⟨storage, hstorage⟩ := Option.isSome_iff_exists.mp running
  obtain ⟨storage', hwrite, holds⟩ := lawful.exists_write storage key data
  refine ⟨{ holder with storage := some storage' }, ?_, ⟨rfl, rfl, fun _ => rfl, ?_, ?_⟩, ?_⟩
  · simp only [putCommon, Holder.write, hstorage, hwrite]
  · rintro other r ⟨s, hs, has⟩
    cases hstorage.symm.trans hs
    exact ⟨_, rfl, (holds other r).mpr (Or.inl has)⟩
  · rintro other r ⟨s, hs, has⟩
    cases hs
    rcases (holds other r).mp has with before | added
    · exact Or.inl ⟨storage, hstorage, before⟩
    · exact Or.inr ⟨rfl, added⟩
  · exact ⟨_, rfl, (holds key _).mpr (Or.inr ⟨rfl, rfl⟩)⟩

/-- The marker of a delete, as the only record that it may add. -/
def Marks (key : BobKey keySize) (timestamp : ℕ) (_ : ℕ) (other : BobKey keySize) (r : Record) :
    Prop :=
  other = key ∧ r = .marker timestamp

/-- The marker of a delete, in a partition that does not start after it. -/
def MarksUpTo (key : BobKey keySize) (timestamp start : ℕ) (other : BobKey keySize) (r : Record) :
    Prop :=
  start ≤ timestamp ∧ Marks key timestamp start other r

/-- A delete at most marks the key. It does so if it is forced, and where the key is
present. -/
theorem exists_deleteCommon (lawful : engine.Lawful) (key : BobKey keySize)
    (running : holder.storage.isSome) (bobMeta : BobMeta) (forceDelete : Bool) :
    ∃ count marked, deleteCommon holder key bobMeta forceDelete = (.ok count, marked) ∧
      Grows lawful (Marks key bobMeta.timestamp.toNat) holder marked ∧
      (forceDelete = true ∨
          (∃ storage, holder.storage = some storage ∧ lawful.Present storage key) →
        marked.Has lawful key (.marker bobMeta.timestamp.toNat)) := by
  obtain ⟨storage, hstorage⟩ := Option.isSome_iff_exists.mp running
  obtain ⟨storage', count, hdelete, kept, added, marks⟩ : ∃ storage' count,
      engine.delete storage key bobMeta.timestamp.toNat (!forceDelete) = .ok (storage', count) ∧
      (∀ other r, lawful.Holds storage other r → lawful.Holds storage' other r) ∧
      (∀ other r, lawful.Holds storage' other r → lawful.Holds storage other r ∨
        (other = key ∧ r = .marker bobMeta.timestamp.toNat)) ∧
      (forceDelete = true ∨ lawful.Present storage key →
        lawful.Holds storage' key (.marker bobMeta.timestamp.toNat)) := by
    cases forceDelete with
    | true =>
      obtain ⟨storage', count, hdelete, holds⟩ :=
        lawful.exists_forced_delete storage key bobMeta.timestamp.toNat
      exact ⟨storage', count, hdelete, fun other r has => (holds other r).mpr (Or.inl has),
        fun other r => (holds other r).mp, fun _ => (holds key _).mpr (Or.inr ⟨rfl, rfl⟩)⟩
    | false =>
      obtain ⟨storage', count, hdelete, holds⟩ :=
        lawful.exists_delete storage key bobMeta.timestamp.toNat
      refine ⟨storage', count, hdelete, fun other r has => (holds other r).mpr (Or.inl has),
        fun other r has => ((holds other r).mp has).imp_right And.right, ?_⟩
      rintro (⟨⟨⟩⟩ | present)
      exact (holds key _).mpr (Or.inr ⟨present, rfl, rfl⟩)
  refine ⟨count, { holder with storage := some storage' }, ?_, ⟨rfl, rfl, fun _ => rfl, ?_, ?_⟩, ?_⟩
  · simp only [deleteCommon, Holder.delete, hstorage, hdelete]
  · rintro other r ⟨s, hs, has⟩
    cases hstorage.symm.trans hs
    exact ⟨_, rfl, kept other r has⟩
  · rintro other r ⟨s, hs, has⟩
    cases hs
    exact (added other r has).imp_left fun before => ⟨storage, hstorage, before⟩
  · rintro (forced | ⟨s, hs, present⟩)
    · exact ⟨_, rfl, marks (Or.inl forced)⟩
    · cases hstorage.symm.trans hs
      exact ⟨_, rfl, marks (Or.inr present)⟩

/-- A marker is a record of its delete, wherever it is. -/
private theorem wrote_of_marks {bobMeta : BobMeta} {start : ℕ} {other : BobKey keySize}
    {r : Record} (marks : MarksUpTo key bobMeta.timestamp.toNat start other r) :
    Wrote periods (.delete key bobMeta) start other r := by
  obtain ⟨-, rfl, rfl⟩ := marks
  exact ⟨rfl, rfl, fun _ marker => Record.noConfusion marker⟩

end Holder

/-! ## Finding or creating the partition -/

/-- A partition that is opened has the records of the partitions with its start. -/
private theorem exists_prepareStorage (lawful : engine.Lawful) (holder : Holder engine)
    (holders : List (Holder engine)) :
    ∃ ready, holder.prepareStorage (onDisk holders holder.startTimestamp) = .ok ready ∧
      ready.startTimestamp = holder.startTimestamp ∧ ready.endTimestamp = holder.endTimestamp ∧
      ready.storage.isSome ∧ ∀ key r, ready.Has lawful key r ↔
        ∃ old ∈ holders, old.startTimestamp = holder.startTimestamp ∧ old.Has lawful key r := by
  obtain ⟨storage, hopen, holds⟩ :=
    lawful.exists_open (onDisk holders holder.startTimestamp)
  refine ⟨{ holder with storage := some storage }, ?_, rfl, rfl, rfl, fun key r => ?_⟩
  · simp only [Holder.prepareStorage, hopen]
  · have has : Holder.Has lawful { holder with storage := some storage } key r ↔
        lawful.Holds storage key r := by
      simp [Holder.Has]
    rw [has, holds]
    simp only [onDisk, List.mem_filterMap, List.mem_filter, decide_eq_true_eq]
    constructor
    · rintro ⟨old, ⟨source, ⟨member, same⟩, hold⟩, hr⟩
      exact ⟨source, member, same, old, hold, hr⟩
    · rintro ⟨source, member, same, old, hold, hr⟩
      exact ⟨old, ⟨source, ⟨member, same⟩, hold⟩, hr⟩

/-- A new partition that only sees what others have put into its directory adds no
record. -/
private theorem Represents.append {ready : Holder engine}
    (represents : g.Represents lawful periods ops) (running : ready.storage.isSome)
    (ends : ready.endTimestamp = ready.startTimestamp + g.settings.timestampPeriodAsSecs)
    (known : ∀ key r, ready.Has lawful key r →
      ∃ old ∈ g.holders, old.startTimestamp = ready.startTimestamp ∧ old.Has lawful key r) :
    Represents lawful { g with holders := g.holders ++ [ready] } periods ops := by
  have both {P : Holder engine → Prop} (old : ∀ h ∈ g.holders, P h) (new : P ready) :
      ∀ h ∈ g.holders ++ [ready], P h := by
    intro h member
    rcases List.mem_append.mp member with before | last
    · exact old h before
    · rw [List.mem_singleton.mp last]
      exact new
  refine
    { unlocked := represents.unlocked
      period_mem := represents.period_mem
      running := both represents.running running
      ends := both represents.ends ends
      held := fun op member => ?_
      sound := both represents.sound fun key r has => ?_
      values := both represents.values fun key data has => ?_
      stepped := represents.stepped }
  · obtain ⟨holder, hholder, rest⟩ := represents.held op member
    exact ⟨holder, List.mem_append_left _ hholder, rest⟩
  · obtain ⟨old, hold, -, hasOld⟩ := known key r has
    exact represents.sound old hold key r hasOld
  · obtain ⟨old, hold, same, hasOld⟩ := known key _ has
    exact same ▸ represents.values old hold key data hasOld

/-- The partition for a timestamp is there, or it is opened over what its directory has. -/
theorem getOrCreateActualHolder_cases (lawful : engine.Lawful) {timestamp i : ℕ}
    {config : StartTimestampConfig} {holder : Holder engine}
    (result : g.getOrCreateActualHolder timestamp config = .ok (.ok ((i, holder), g'))) :
    findActualHolder g.holders timestamp = .ok (i, holder) ∧ g' = g ∨
    g' = { g with holders := g.holders ++ [holder] } ∧ i = g.holders.length ∧
      holder.storage.isSome ∧
      holder.endTimestamp = holder.startTimestamp + g.settings.timestampPeriodAsSecs ∧
      holder.startTimestamp ≤ timestamp ∧
      timestamp ≤ holder.startTimestamp + g.settings.timestampPeriod.asSecs + 1 ∧
      ∀ key r, holder.Has lawful key r ↔
        ∃ old ∈ g.holders, old.startTimestamp = holder.startTimestamp ∧ old.Has lawful key r := by
  unfold Group.getOrCreateActualHolder at result
  split at result
  · rename_i found hfound
    cases result
    exact Or.inl ⟨hfound, rfl⟩
  unfold getOrCreateWritePearl at result
  split at result
  · rename_i found hfound
    cases result
    exact Or.inl ⟨hfound, rfl⟩
  obtain ⟨created, hcreated, result⟩ := bind_eq_ok_iff.mp result
  split at result
  · cases result
  rename_i pearl
  cases result
  obtain ⟨empty, hempty, prepared⟩ := bind_eq_ok_iff.mp hcreated
  obtain ⟨start, hstart, hholder⟩ := bind_eq_ok_iff.mp hempty
  cases hholder
  obtain ⟨early, near⟩ := getStartTimestampByTimestamp_spec hstart
  obtain ⟨ready, hready, sameStart, sameEnd, running, has⟩ :=
    exists_prepareStorage lawful (createPearlHolder g.settings start) g.holders
  cases Except.ok.inj (hready.symm.trans (Except.ok.inj prepared))
  rw [← sameStart] at has
  exact Or.inr ⟨rfl, rfl, running, by rw [sameStart, sameEnd]; rfl, by rw [sameStart]; exact early,
    by rw [sameStart]; exact near, has⟩

/-- The partition that is found or made is in the group, and all partitions run. -/
private theorem running_getOrCreateActualHolder (lawful : engine.Lawful) {timestamp i : ℕ}
    {config : StartTimestampConfig} {holder : Holder engine}
    (running : ∀ holder ∈ g.holders, holder.storage.isSome)
    (result : g.getOrCreateActualHolder timestamp config = .ok (.ok ((i, holder), g'))) :
    g'.holders[i]? = some holder ∧ ∀ holder ∈ g'.holders, holder.storage.isSome := by
  rcases getOrCreateActualHolder_cases lawful result with ⟨there, rfl⟩ | ⟨rfl, rfl, ready, -⟩
  · exact ⟨(findActualHolder_spec there).1, running⟩
  · refine ⟨by simp, fun other member => ?_⟩
    rcases List.mem_append.mp member with before | last
    · exact running other before
    · rwa [List.mem_singleton.mp last]

theorem getOrCreateActualHolder_ne_error (lawful : engine.Lawful) {timestamp : ℕ}
    {config : StartTimestampConfig} {e : Error keySize} :
    g.getOrCreateActualHolder timestamp config ≠ .ok (.error e) := by
  intro result
  unfold Group.getOrCreateActualHolder at result
  split at result
  · cases result
  unfold getOrCreateWritePearl at result
  split at result
  · cases result
  obtain ⟨created, hcreated, result⟩ := bind_eq_ok_iff.mp result
  obtain ⟨empty, -, prepared⟩ := bind_eq_ok_iff.mp hcreated
  obtain ⟨ready, hready, -⟩ := exists_prepareStorage lawful empty g.holders
  cases Except.ok.inj prepared
  rw [hready] at result
  cases result

/-- A group gets the partition for a timestamp without losing or gaining records. -/
private theorem Represents.getOrCreateActualHolder {timestamp i : ℕ} {config : StartTimestampConfig}
    {holder : Holder engine} (represents : g.Represents lawful periods ops)
    (result : g.getOrCreateActualHolder timestamp config = .ok (.ok ((i, holder), g'))) :
    g'.Represents lawful periods ops ∧ NearStart periods holder.startTimestamp timestamp := by
  rcases getOrCreateActualHolder_cases lawful result with
    ⟨found, rfl⟩ | ⟨rfl, rfl, running, ends, -, near, has⟩
  · obtain ⟨stored, -, before⟩ := findActualHolder_spec found
    refine ⟨represents, _, represents.period_mem, ?_⟩
    rw [represents.ends holder (List.mem_of_getElem? stored)] at before
    unfold Settings.timestampPeriodAsSecs at before
    omega
  · exact ⟨represents.append running ends fun key r => (has key r).mp, _, represents.period_mem,
      near⟩

/-! ## What one step of a history preserves -/

/-- A put adds its value to the partition for its timestamp. It does not fail. -/
private theorem put_cases (lawful : engine.Lawful) {data : BobData} {config : StartTimestampConfig}
    (unlocked : g.reinitLock = false) (running : ∀ holder ∈ g.holders, holder.storage.isSome)
    {res : Except (Error keySize) Unit} (result : g.put key data config = .ok (res, g')) :
    ∃ i holder g₁ holders, res = .ok () ∧ g' = { g₁ with holders := holders } ∧
      g.getOrCreateActualHolder data.bobMeta.timestamp.toNat config = .ok (.ok ((i, holder), g₁)) ∧
      List.Forall₂ (Grows lawful (Puts key data holder.startTimestamp)) g₁.holders holders ∧
      ∃ final ∈ holders, final.Has lawful key (.value data) ∧
        final.startTimestamp = holder.startTimestamp := by
  unfold Group.put at result
  rw [if_neg (Bool.eq_false_iff.mp unlocked)] at result
  obtain ⟨found, hfound, result⟩ := bind_eq_ok_iff.mp result
  split at result
  · exact absurd hfound (getOrCreateActualHolder_ne_error lawful)
  rename_i i holder g₁
  obtain ⟨stored, running₁⟩ := running_getOrCreateActualHolder lawful running hfound
  obtain ⟨written, hwritten, grows, has⟩ :=
    exists_putCommon lawful key (running₁ holder (List.mem_of_getElem? stored)) data
  rw [hwritten] at result
  cases result
  refine ⟨i, holder, g₁, _, rfl, rfl, hfound, forall₂_set Grows.refl stored grows, written, ?_, has,
    grows.startTimestamp⟩
  exact List.mem_of_getElem? (List.getElem?_set_self (List.getElem?_eq_some_iff.mp stored).1)

private theorem Represents.put {data : BobData} {config : StartTimestampConfig}
    (represents : g.Represents lawful periods ops)
    (result : g.put key data config = .ok (.ok (), g')) :
    g'.Represents lawful periods (ops ++ [.put key data]) := by
  obtain ⟨i, holder, g₁, holders, -, rfl, found, grown, final, hfinal, has, same⟩ :=
    put_cases lawful represents.unlocked represents.running result
  obtain ⟨represents₁, near⟩ := represents.getOrCreateActualHolder found
  have wrote : ∀ start other r, Puts key data holder.startTimestamp start other r →
      Wrote periods (.put key data) start other r := by
    rintro _ _ _ ⟨rfl, rfl, rfl⟩
    exact ⟨rfl, rfl, fun _ _ => near⟩
  refine represents₁.grow (grown.imp fun _ _ grows => grows.mono wrote) ⟨final, hfinal, has, ?_⟩
  rw [same]
  exact near

/-- The conditional markers of a delete go to the partitions that start before the
reference. -/
theorem forall₂_deleteInHoldersBefore (lawful : engine.Lawful) (key : BobKey keySize)
    (running : ∀ holder ∈ g.holders, holder.storage.isSome) {reference : ℕ} {bobMeta : BobMeta}
    (bounded : reference ≤ bobMeta.timestamp.toNat) :
    List.Forall₂ (fun old new => Grows lawful (MarksUpTo key bobMeta.timestamp.toNat) old new ∧
        new = if old.startTimestamp < reference then (deleteCommon old key bobMeta false).2
          else old)
      g.holders (g.deleteInHoldersBefore reference key bobMeta).2.holders := by
  refine forall₂_visitRev ?_ ?_
  · intro i holder _ later
    exact ⟨Grows.refl holder, (if_neg (of_decide_eq_false later)).symm⟩
  · intro i seen holder member earlier
    have before : holder.startTimestamp < reference := of_decide_eq_true earlier
    obtain ⟨count, marked, hmarked, grows, -⟩ :=
      exists_deleteCommon lawful key (running holder member) bobMeta false
    rw [if_pos before, hmarked]
    exact ⟨grows.restrict (before.le.trans bounded), rfl⟩

/-- A forced delete marks the key in the partition for its timestamp and at most marks it
in the others. It does not fail. -/
theorem delete_forced_cases (lawful : engine.Lawful) {bobMeta : BobMeta}
    {config : StartTimestampConfig} {res : Except (Error keySize) ℕ}
    (unlocked : g.reinitLock = false) (running : ∀ holder ∈ g.holders, holder.storage.isSome)
    (result : g.delete key bobMeta config true = .ok (res, g')) :
    ∃ i holder g₁ holders, (∃ count, res = .ok count) ∧ g' = { g₁ with holders := holders } ∧
      g.getOrCreateActualHolder bobMeta.timestamp.toNat config = .ok (.ok ((i, holder), g₁)) ∧
      List.Forall₂ (Grows lawful (MarksUpTo key bobMeta.timestamp.toNat)) g₁.holders holders ∧
      ∃ final ∈ holders, final.Has lawful key (.marker bobMeta.timestamp.toNat) ∧
        final.startTimestamp = holder.startTimestamp := by
  unfold Group.delete at result
  rw [if_neg (Bool.eq_false_iff.mp unlocked), if_pos rfl] at result
  obtain ⟨found, hfound, result⟩ := bind_eq_ok_iff.mp result
  split at result
  · exact absurd hfound (getOrCreateActualHolder_ne_error lawful)
  rename_i i holder g₁
  obtain ⟨stored, running₁⟩ := running_getOrCreateActualHolder lawful running hfound
  obtain ⟨actual, marked, hmarked, grows, has⟩ := exists_deleteCommon lawful key
    (running₁ holder (List.mem_of_getElem? stored)) bobMeta true
  rw [hmarked] at result
  cases result
  have early : holder.startTimestamp ≤ bobMeta.timestamp.toNat := by
    rcases getOrCreateActualHolder_cases lawful hfound with
      ⟨there, -⟩ | ⟨-, -, -, -, before, -⟩
    · exact (findActualHolder_spec there).2.1
    · exact before
  have marks : Grows lawful (MarksUpTo key bobMeta.timestamp.toNat) holder marked :=
    grows.restrict early
  -- First the forced marker, then the conditional ones in older partitions.
  have forced := forall₂_set Grows.refl stored marks
  have running₂ : ∀ h ∈ g₁.holders.set i marked, h.storage.isSome := by
    intro h hmem
    obtain ⟨old, hold, grown⟩ := exists_mem_of_forall₂ forced hmem
    exact grown.running (running₁ old hold)
  have conditional := (@forall₂_deleteInHoldersBefore _ _ (g₁.setHolder i marked) lawful key
    running₂ _ _ early).imp fun _ _ => And.left
  have here : marked ∈ g₁.holders.set i marked :=
    List.mem_of_getElem? (List.getElem?_set_self (List.getElem?_eq_some_iff.mp stored).1)
  obtain ⟨final, hfinal, grown⟩ := exists_mem_of_forall₂ conditional.flip here
  refine ⟨i, holder, g₁, _, ⟨_, rfl⟩, rfl, hfound,
    forall₂_trans (fun _ _ _ => Grows.trans) forced conditional, final, hfinal,
    grown.kept _ _ (has (Or.inl rfl)), ?_⟩
  rw [grown.startTimestamp, grows.startTimestamp]

private theorem Represents.delete {bobMeta : BobMeta} {config : StartTimestampConfig} {count : ℕ}
    (represents : g.Represents lawful periods ops)
    (result : g.delete key bobMeta config true = .ok (.ok count, g')) :
    g'.Represents lawful periods (ops ++ [.delete key bobMeta]) := by
  obtain ⟨i, holder, g₁, holders, -, rfl, found, grown, final, hfinal, has, same⟩ :=
    delete_forced_cases lawful represents.unlocked represents.running result
  obtain ⟨represents₁, near⟩ := represents.getOrCreateActualHolder found
  refine represents₁.grow (grown.imp fun _ _ grows => grows.mono fun _ _ _ => wrote_of_marks)
    ⟨final, hfinal, has, ?_⟩
  rw [same]
  exact near

private theorem safeStep_spec {settings : Settings} {holders : List (Holder engine)} {now step : ℕ}
    (hstep : safeStep settings holders now = some step) : 1 ≤ step ∧
      ∃ adjust, settings.skipHoldersByTimestampStepWhenReading = some adjust ∧
        adjust.asSecs ≤ step := by
  obtain ⟨adjust, hadjust, rfl⟩ := Option.map_eq_some_iff.mp hstep
  refine ⟨?_, adjust, hadjust, le_max_left _ _⟩
  -- The sum is odd, so it is not zero even if it overflows.
  refine le_trans ?_ (le_max_right _ _)
  omega

/-- After a start, every partition has the records of the old ones with its start. -/
private theorem mem_holders_run (lawful : engine.Lawful) {settings : Settings} {now : ℕ}
    (result : g.run settings now = .ok g') {ready : Holder engine} (member : ready ∈ g'.holders) :
    ready.storage.isSome ∧
      ready.endTimestamp = ready.startTimestamp + settings.timestampPeriodAsSecs ∧
      ∀ key r, ready.Has lawful key r ↔
        ∃ old ∈ g.holders, old.startTimestamp = ready.startTimestamp ∧ old.Has lawful key r := by
  unfold Group.run at result
  obtain ⟨holders, hholders, result⟩ := bind_eq_ok_iff.mp result
  cases result
  obtain ⟨empty, hempty, prepared⟩ := exists_mem_of_forall₂ (mapM_eq_ok_iff.mp hholders) member
  obtain ⟨ready', hready', sameStart, sameEnd, running, has⟩ :=
    exists_prepareStorage lawful empty g.holders
  cases Except.ok.inj (hready'.symm.trans prepared)
  obtain ⟨start, -, rfl⟩ := List.mem_map.mp hempty
  refine ⟨running, by rw [sameStart, sameEnd]; rfl, fun key r => ?_⟩
  rw [has, sameStart]

private theorem Represents.run {settings : Settings} {now : ℕ}
    (represents : g.Represents lawful periods ops) (result : g.run settings now = .ok g') :
    g'.Represents lawful (periods ++ [settings.timestampPeriod]) ops := by
  have spec (ready : Holder engine) (member : ready ∈ g'.holders) :=
    mem_holders_run lawful result member
  unfold Group.run at result
  obtain ⟨holders, hholders, result⟩ := bind_eq_ok_iff.mp result
  cases result
  have opened := mapM_eq_ok_iff.mp hholders
  have covers (old : Holder engine) (member : old ∈ g.holders) :
      ∃ ready ∈ holders, ready.startTimestamp = old.startTimestamp := by
    have listed : (createPearlHolder settings old.startTimestamp : Holder engine) ∈
        readVdiskDirectory settings (g.holders.map (·.startTimestamp)).dedup := by
      refine List.mem_map_of_mem ((List.mem_insertionSort _).mpr ?_)
      exact List.mem_dedup.mpr (List.mem_map_of_mem member)
    obtain ⟨ready, hready, prepared⟩ := exists_mem_of_forall₂ opened.flip listed
    obtain ⟨ready', hready', sameStart, -⟩ :=
      exists_prepareStorage lawful (createPearlHolder settings old.startTimestamp) g.holders
    cases Except.ok.inj (hready'.symm.trans prepared)
    exact ⟨_, hready, sameStart⟩
  refine
    { unlocked := rfl
      period_mem := by simp [Group.new]
      running := fun ready member => (spec ready member).1
      ends := fun ready member => (spec ready member).2.1
      held := fun op member => ?_
      sound := fun ready member key r has => ?_
      values := fun ready member key data has => ?_
      stepped := fun step hstep => safeStep_spec hstep }
  · obtain ⟨old, hold, has, period, hperiod, near⟩ := represents.held op member
    obtain ⟨ready, hready, same⟩ := covers old hold
    refine ⟨ready, hready, ((spec ready hready).2.2 _ _).mpr ⟨old, hold, same.symm, has⟩, ?_⟩
    rw [same]
    exact ⟨period, List.mem_append_left _ hperiod, near⟩
  · obtain ⟨old, hold, -, hasOld⟩ := ((spec ready member).2.2 key r).mp has
    exact represents.sound old hold key r hasOld
  · obtain ⟨old, hold, same, hasOld⟩ := ((spec ready member).2.2 key _).mp has
    obtain ⟨period, hperiod, near⟩ := represents.values old hold key data hasOld
    exact ⟨period, List.mem_append_left _ hperiod, same ▸ near⟩

end Group

/-- Along a history, the partitions hold exactly the records of its writes. -/
theorem History.represents (lawful : engine.Lawful) {periods : List Duration}
    {ops : List (GroupOp keySize)} {g : Group engine} (history : History periods ops g) :
    g.Represents lawful periods ops := by
  induction history with
  | new settings vdiskId nodeName diskName =>
    exact ⟨rfl, List.mem_singleton_self _, by simp [Group.new], by simp [Group.new], by simp,
      by simp [Group.new], by simp [Group.new], by simp [Group.new]⟩
  | @write _ _ _ _ op _ _ succeeds ih =>
    cases op with
    | put key data => exact ih.put succeeds
    | delete key bobMeta =>
      obtain ⟨count, deleted⟩ := succeeds
      exact ih.delete deleted
  | restart _ started ih => exact ih.run started

/-! ## Where records are -/

/-- The group came about by puts and deletes of either kind, whatever they returned, with
restarts in between. -/
inductive Reached : Group engine → Prop
  | new (settings : Settings) (vdiskId : VDiskId) (nodeName : NodeName) (diskName : DiskName) :
      Reached (.new settings vdiskId nodeName diskName)
  | put {g g' : Group engine} {key : BobKey keySize} {data : BobData}
      {config : StartTimestampConfig} {res : Except (Error keySize) Unit}
      (before : Reached g) (done : g.put key data config = .ok (res, g')) : Reached g'
  | delete {g g' : Group engine} {key : BobKey keySize} {bobMeta : BobMeta}
      {config : StartTimestampConfig} {forceDelete : Bool} {res : Except (Error keySize) ℕ}
      (before : Reached g) (done : g.delete key bobMeta config forceDelete = .ok (res, g')) :
      Reached g'
  | restart {g g' : Group engine} {settings : Settings} {now : ℕ}
      (before : Reached g) (started : g.run settings now = .ok g') : Reached g'

theorem History.reached {periods : List Duration} {ops : List (GroupOp keySize)} {g : Group engine}
    (history : History periods ops g) : Reached g := by
  induction history with
  | new settings vdiskId nodeName diskName => exact .new ..
  | @write _ _ _ _ op _ _ succeeds ih =>
    cases op with
    | put key data => exact ih.put succeeds
    | delete key bobMeta =>
      obtain ⟨count, deleted⟩ := succeeds
      exact ih.delete deleted
  | restart _ started ih => exact ih.restart started

/-- All partitions run, and none starts after a record that it has. -/
structure Group.InOrder (lawful : engine.Lawful) (g : Group engine) : Prop where
  unlocked : g.reinitLock = false
  running : ∀ holder ∈ g.holders, holder.storage.isSome
  start_le : ∀ holder ∈ g.holders, ∀ key r, holder.Has lawful key r →
    holder.startTimestamp ≤ r.timestamp

namespace Group

variable {lawful : engine.Lawful} {g g' : Group engine} {key : BobKey keySize}
  {config : StartTimestampConfig}

private theorem InOrder.getOrCreateActualHolder {timestamp i : ℕ} {holder : Holder engine}
    (ordered : g.InOrder lawful)
    (result : g.getOrCreateActualHolder timestamp config = .ok (.ok ((i, holder), g'))) :
    g'.InOrder lawful ∧ holder.startTimestamp ≤ timestamp := by
  have running := (running_getOrCreateActualHolder lawful ordered.running result).2
  rcases getOrCreateActualHolder_cases lawful result with
    ⟨found, rfl⟩ | ⟨rfl, -, -, -, before, -, has⟩
  · exact ⟨ordered, (findActualHolder_spec found).2.1⟩
  · refine ⟨⟨ordered.unlocked, running, fun other member key r here => ?_⟩, before⟩
    rcases List.mem_append.mp member with old | last
    · exact ordered.start_le other old key r here
    · -- what the new partition has, a partition with its start has had
      rw [List.mem_singleton.mp last] at here ⊢
      obtain ⟨old, hold, same, hasOld⟩ := (has key r).mp here
      exact same ▸ ordered.start_le old hold key r hasOld

private theorem InOrder.grow {allowed : ℕ → BobKey keySize → Record → Prop}
    {holders : List (Holder engine)} (ordered : g.InOrder lawful)
    (grown : List.Forall₂ (Grows lawful allowed) g.holders holders)
    (late : ∀ start key r, allowed start key r → start ≤ r.timestamp) :
    InOrder lawful { g with holders := holders } := by
  refine ⟨ordered.unlocked, fun holder member => ?_, fun holder member key r has => ?_⟩
  all_goals obtain ⟨old, hold, grows⟩ := exists_mem_of_forall₂ grown member
  · exact grows.running (ordered.running old hold)
  · rw [grows.startTimestamp]
    rcases grows.added key r has with before | new
    · exact ordered.start_le old hold key r before
    · exact late _ key r new

private theorem InOrder.put {data : BobData} {res : Except (Error keySize) Unit}
    (ordered : g.InOrder lawful) (result : g.put key data config = .ok (res, g')) :
    g'.InOrder lawful := by
  obtain ⟨i, holder, g₁, holders, -, rfl, found, grown, -⟩ :=
    put_cases lawful ordered.unlocked ordered.running result
  obtain ⟨ordered₁, before⟩ := ordered.getOrCreateActualHolder found
  refine ordered₁.grow grown ?_
  rintro _ _ _ ⟨rfl, rfl, rfl⟩
  exact before

/-- An unforced delete gives conditional markers to the partitions before its timestamp. -/
theorem delete_unforced_eq {bobMeta : BobMeta} (unlocked : g.reinitLock = false) :
    g.delete key bobMeta config false =
      .ok (.ok (g.deleteInHoldersBefore bobMeta.timestamp.toNat key bobMeta).1,
        (g.deleteInHoldersBefore bobMeta.timestamp.toNat key bobMeta).2) := by
  rw [Group.delete, if_neg (Bool.eq_false_iff.mp unlocked), if_neg Bool.false_ne_true]
  rfl

private theorem InOrder.delete {bobMeta : BobMeta} {forceDelete : Bool}
    {res : Except (Error keySize) ℕ} (ordered : g.InOrder lawful)
    (result : g.delete key bobMeta config forceDelete = .ok (res, g')) : g'.InOrder lawful := by
  have late : ∀ start other r, MarksUpTo key bobMeta.timestamp.toNat start other r →
      start ≤ r.timestamp := by
    rintro start _ _ ⟨before, -, rfl⟩
    exact before
  cases forceDelete with
  | true =>
    obtain ⟨i, holder, g₁, holders, -, rfl, found, grown, -⟩ :=
      delete_forced_cases lawful ordered.unlocked ordered.running result
    exact (ordered.getOrCreateActualHolder found).1.grow grown late
  | false =>
    rw [delete_unforced_eq ordered.unlocked] at result
    cases result
    exact ordered.grow
      ((forall₂_deleteInHoldersBefore lawful key ordered.running le_rfl).imp fun _ _ => And.left)
      late

private theorem InOrder.run {settings : Settings} {now : ℕ} (ordered : g.InOrder lawful)
    (result : g.run settings now = .ok g') : g'.InOrder lawful := by
  have spec (ready : Holder engine) (member : ready ∈ g'.holders) :=
    mem_holders_run lawful result member
  unfold Group.run at result
  obtain ⟨holders, -, result⟩ := bind_eq_ok_iff.mp result
  cases result
  refine ⟨rfl, fun ready member => (spec ready member).1, fun ready member key r has => ?_⟩
  obtain ⟨old, hold, same, hasOld⟩ := ((spec ready member).2.2 key r).mp has
  exact same ▸ ordered.start_le old hold key r hasOld

end Group

/-- No partition of a group starts after a record that it has. -/
theorem Reached.inOrder (lawful : engine.Lawful) {g : Group engine} (reached : Reached g) :
    g.InOrder lawful := by
  induction reached with
  | new => exact ⟨rfl, by simp [Group.new], by simp [Group.new]⟩
  | put _ done ih => exact ih.put done
  | delete _ done ih => exact ih.delete done
  | restart _ started ih => exact ih.run started

/-- No value is in a partition that starts after it. -/
def Group.Early (lawful : engine.Lawful) (g : Group engine) : Prop :=
  ∀ holder ∈ g.holders, ∀ key data, holder.Has lawful key (.value data) →
    holder.startTimestamp ≤ data.bobMeta.timestamp.toNat

/-- Along a history, no value is in a partition that starts after it. -/
theorem History.early (lawful : engine.Lawful) {periods : List Duration}
    {ops : List (GroupOp keySize)} {g : Group engine} (history : History periods ops g) :
    g.Early lawful := by
  intro holder member key data has
  exact (history.reached.inOrder lawful).start_le holder member key _ has

end Bob.Backend

/-
# Reading a group is a search for the newest record

With an engine that keeps its promises, a read of a group leaves the group as it
is. It is the search of `Bob.Math.NewestWins` over the partitions that pass the
filter, from the last to the first; an existence check is the same search. So the
two can only differ in what they make of the record that is found.
-/

import Bob.Math.NewestWins
import Bob.Backend.Group

namespace Bob.Backend

open Bob.Math

variable {keySize : ℕ} {engine : StorageEngine keySize}

/-- The value of a record; a marker has none. -/
def Record.value? : Record → Option BobData
  | .value data => some data
  | .marker _ => none

namespace Group

/-- The partitions that pass a filter, from the last to the first. -/
def possibleRev (possible : ℕ → Holder engine → Bool) (holders : List (Holder engine))
    (index : ℕ) : List (Holder engine) :=
  (((holders.zipIdx index).filter fun entry => possible entry.2 entry.1).map (·.1)).reverse

theorem mem_possibleRev {possible : ℕ → Holder engine → Bool} {holders : List (Holder engine)}
    {holder : Holder engine} :
    holder ∈ possibleRev possible holders 0 ↔
      ∃ i, holders[i]? = some holder ∧ possible i holder = true := by
  simp only [possibleRev, List.mem_reverse, List.mem_map, List.mem_filter, Prod.exists,
    List.mk_mem_zipIdx_iff_getElem?]
  constructor
  · rintro ⟨_, i, ⟨found, passes⟩, rfl⟩
    exact ⟨i, found, passes⟩
  · rintro ⟨i, found, passes⟩
    exact ⟨holder, i, ⟨found, passes⟩, rfl⟩

theorem mem_holders_of_possible {possible : ℕ → Holder engine → Bool}
    {holders : List (Holder engine)} {holder : Holder engine}
    (visited : holder ∈ possibleRev possible holders 0) : holder ∈ holders := by
  obtain ⟨i, here, -⟩ := mem_possibleRev.mp visited
  exact List.mem_of_getElem? here

/-- A visit that replaces no partition is a fold. -/
theorem visitRev_eq_foldl {σ : Type} {possible : ℕ → Holder engine → Bool}
    {visit : σ → Holder engine → σ × Holder engine} {init : σ} {holders : List (Holder engine)}
    {index : ℕ} (same : ∀ seen holder, (visit seen holder).2 = holder) :
    visitRev possible visit init holders index =
      ((possibleRev possible holders index).foldl (fun seen holder => (visit seen holder).1) init,
        holders) := by
  induction holders generalizing index with
  | nil => rfl
  | cons holder rest ih =>
    rw [visitRev, ih]
    by_cases passes : possible index holder = true
    · simp [possibleRev, passes, same]
    · simp [possibleRev, passes]

section Lawful

variable (lawful : engine.Lawful)

/-- The newest record of a key in a partition that runs. -/
def newestIn (key : BobKey keySize) (holder : Holder engine) : Option Record :=
  holder.storage.bind fun storage => lawful.newest storage key

/-- Whether a partition is asked when the best timestamp so far is `max`. -/
def asks (g : Group engine) (holder : Holder engine) (max : ℕ) : Bool :=
  g.shouldCheckHolder holder (some max)

/-- The record that a read of the group settles on. -/
def best (g : Group engine) (key : BobKey keySize) : Option Record :=
  searchNewest Record.timestamp (newestIn lawful key) g.asks
    (possibleRev (g.mayContain key) g.holders 0)

/-- What a read has found is what the search has found. -/
private structure Tracks {α : Type} (answer : Option Record → α) (found : Found α)
    (record : Option Record) : Prop where
  maxTimestamp : found.maxTimestamp = record.map Record.timestamp
  result : found.result = answer record

private theorem shouldCheckHolder_eq {α : Type} {answer : Option Record → α} {g : Group engine}
    {found : Found α} {record : Option Record} (tracks : Tracks answer found record)
    {holder : Holder engine} : g.shouldCheckHolder holder found.maxTimestamp =
      record.all fun r => g.asks holder r.timestamp := by
  rw [tracks.maxTimestamp]
  cases record with
  | none =>
    unfold shouldCheckHolder
    cases g.safeTimestampStep <;> rfl
  | some r => rfl

private theorem Tracks.update {α : Type} {answer : Option Record → α} {found : Found α}
    {record : Option Record} (tracks : Tracks answer found record) (r : Record) :
    Tracks answer (found.update r.timestamp (answer (some r)))
      (keepNewer Record.timestamp record (some r)) := by
  unfold Found.update
  rw [tracks.maxTimestamp]
  cases record with
  | none => exact ⟨rfl, rfl⟩
  | some other =>
    by_cases newer : other.timestamp < r.timestamp
    · simp only [Option.map_some, Option.all_some, gt_iff_lt, newer, decide_true, if_true,
        keepNewer]
      exact ⟨rfl, rfl⟩
    · simp only [Option.map_some, Option.all_some, gt_iff_lt, newer, decide_false, if_false,
        keepNewer, Bool.false_eq_true]
      exact tracks

variable {g : Group engine} {key : BobKey keySize}

private theorem read_eq (holder : Holder engine) :
    holder.read key = match holder.storage with
      | none => .error .vdiskIsNotReady
      | some storage => .ok (Record.toRead (lawful.newest storage key)) := by
  unfold Holder.read
  cases holder.storage with
  | none => rfl
  | some storage =>
    simp only [lawful.read_eq]
    rfl

private theorem exist_eq (holder : Holder engine) :
    holder.exist key = match holder.storage with
      | none => .error .vdiskIsNotReady
      | some storage => .ok (Record.toContains (lawful.newest storage key)) := by
  unfold Holder.exist
  cases holder.storage with
  | none => rfl
  | some storage =>
    simp only [lawful.contains_eq]
    rfl

include lawful in
/-- No read fails in a way that would reopen a storage. -/
private theorem getCommon_eq (holder : Holder engine) :
    getCommon holder key = (holder.read key, holder) := by
  unfold getCommon
  rw [read_eq lawful]
  cases holder.storage <;> rfl

include lawful in
private theorem getFrom_snd (found : Found (Option BobData)) (holder : Holder engine) :
    (g.getFrom key found holder).2 = holder := by
  unfold getFrom
  rw [getCommon_eq lawful]
  split_ifs
  · split <;> rename_i same <;> exact (Prod.mk.inj same).2.symm
  · rfl

private theorem getFrom_tracks {found : Found (Option BobData)} {record : Option Record}
    (tracks : Tracks (·.bind Record.value?) found record) (holder : Holder engine) :
    Tracks (·.bind Record.value?) (g.getFrom key found holder).1
      (searchStep Record.timestamp (newestIn lawful key) g.asks record holder) := by
  unfold getFrom searchStep
  rw [shouldCheckHolder_eq tracks]
  split_ifs
  · rw [getCommon_eq lawful, read_eq lawful]
    unfold newestIn
    cases holder.storage with
    | none => exact ⟨tracks.maxTimestamp, tracks.result⟩
    | some storage =>
      dsimp only [Option.bind_some]
      cases lawful.newest storage key with
      | none => exact tracks
      | some r =>
        cases r with
        | value data => exact tracks.update (.value data)
        | marker timestamp => exact tracks.update (.marker timestamp)
  · exact tracks

private theorem existFrom_tracks {found : Found Bool} {record : Option Record}
    (tracks : Tracks (fun r => (r.bind Record.value?).isSome) found record)
    (holder : Holder engine) :
    Tracks (fun r => (r.bind Record.value?).isSome) (g.existFrom key found holder)
      (searchStep Record.timestamp (newestIn lawful key) g.asks record holder) := by
  unfold existFrom searchStep
  rw [shouldCheckHolder_eq tracks]
  split_ifs
  · rw [exist_eq lawful]
    unfold newestIn
    cases holder.storage with
    | none => exact tracks
    | some storage =>
      dsimp only [Option.bind_some]
      cases lawful.newest storage key with
      | none => exact tracks
      | some r =>
        cases r with
        | value data => exact tracks.update (.value data)
        | marker timestamp => exact tracks.update (.marker timestamp)
  · exact tracks

/-- Steps that keep two accumulators related keep the results of two folds related. -/
private theorem foldl_related {α β γ : Type} {R : α → β → Prop} {step : α → γ → α}
    {step' : β → γ → β} (keeps : ∀ a b c, R a b → R (step a c) (step' b c)) {items : List γ} {a : α}
    {b : β} (start : R a b) : R (items.foldl step a) (items.foldl step' b) := by
  induction items generalizing a b with
  | nil => exact start
  | cons item rest ih => exact ih (keeps a b item start)

/-- An existence check reports a key whose newest record is a value. -/
theorem existKey_eq : g.existKey key = ((g.best lawful key).bind Record.value?).isSome := by
  unfold existKey
  rw [visitRev_eq_foldl fun _ _ => rfl]
  refine (foldl_related (R := Tracks fun r => (r.bind Record.value?).isSome) ?_ ?_).result
  · intro found record holder tracks
    exact existFrom_tracks lawful tracks holder
  · exact ⟨rfl, rfl⟩

theorem exist_eq_best (unlocked : g.reinitLock = false) (keys : List (BobKey keySize)) :
    g.exist keys =
      .ok (keys.map fun key => ((g.best lawful key).bind Record.value?).isSome) := by
  rw [exist, if_neg (Bool.eq_false_iff.mp unlocked)]
  exact congrArg Except.ok (List.map_congr_left fun key _ => existKey_eq lawful)

include lawful in
/-- A read notes an error only at a partition that does not run. -/
private theorem hasError_getFrom {found : Found (Option BobData)} {holder : Holder engine}
    (running : holder.storage.isSome) :
    (g.getFrom key found holder).1.hasError = found.hasError := by
  obtain ⟨storage, hstorage⟩ := Option.isSome_iff_exists.mp running
  unfold getFrom
  split_ifs
  · rw [getCommon_eq lawful, read_eq lawful, hstorage]
    dsimp only
    cases lawful.newest storage key with
    | none => rfl
    | some r =>
      cases r <;> simp only [Record.toRead, Found.update] <;> split_ifs <;> rfl
  · rfl

/-- A read returns the value of the newest record and leaves the group as it is. -/
theorem get_spec (unlocked : g.reinitLock = false) :
    ∃ hasError : Bool,
      g.get key = (match (g.best lawful key).bind Record.value? with
        | some data => .ok data
        | none => if hasError then .error (.failed "cannot read from some pearls")
          else .error (.keyNotFound key), g) ∧
      ((∀ holder ∈ g.holders, holder.storage.isSome) → hasError = false) := by
  let found := (possibleRev (g.mayContain key) g.holders 0).foldl
    (fun seen holder => (g.getFrom key seen holder).1) ⟨none, none, false⟩
  have tracks : Tracks (·.bind Record.value?) found (g.best lawful key) := by
    apply foldl_related
    · intro seen record holder related
      exact getFrom_tracks lawful related holder
    · exact ⟨rfl, rfl⟩
  refine ⟨found.hasError, ?_, fun running => ?_⟩
  · unfold get
    rw [if_neg (Bool.eq_false_iff.mp unlocked), visitRev_eq_foldl (getFrom_snd lawful)]
    change (match found.result with
      | some data => (Except.ok data, g)
      | none => if found.hasError then (.error (Error.failed "cannot read from some pearls"), g)
        else (.error (Error.keyNotFound key), g)) = _
    rw [tracks.result]
    cases (g.best lawful key).bind Record.value? with
    | some data => rfl
    | none => cases found.hasError <;> rfl
  · have visited : ∀ holder ∈ possibleRev (g.mayContain key) g.holders 0,
        holder.storage.isSome := by
      intro holder member
      exact running holder (mem_holders_of_possible member)
    -- No visited partition notes an error, by induction on the visits.
    have clean (sources : List (Holder engine)) (seen : Found (Option BobData))
        (all : ∀ holder ∈ sources, holder.storage.isSome) :
        (sources.foldl (fun seen holder => (g.getFrom key seen holder).1) seen).hasError =
          seen.hasError := by
      induction sources generalizing seen with
      | nil => rfl
      | cons holder rest ih =>
        rw [List.foldl_cons, ih _ fun other member => all other (List.mem_cons_of_mem _ member)]
        exact hasError_getFrom lawful (all holder List.mem_cons_self)
    exact clean _ _ visited

end Lawful

end Group

end Bob.Backend

/-
# What requests do to the records of groups

The groups of a node hold records. Requests add to them and take nothing away: with an
engine that keeps its promises, a group keeps its records whatever it is asked, and the
only new ones are those that the request writes. No such request meets an error for which
a controller would drop its groups. A put that answers without an error leaves its value,
and a read returns nothing but a value that a group holds.
-/

import Bob.Backend.Agreement
import Bob.Backend.LastWriter

namespace Bob.Backend

open Bob.Configs Bob.Math

variable {keySize : ℕ} {engine : StorageEngine keySize} {lawful : engine.Lawful}
  {allowed : BobKey keySize → Record → Prop} {key : BobKey keySize} {data : BobData}
  {bobMeta : BobMeta} {op : Operation} {makeDir : MakeDir}

/-! ## Groups -/

namespace Group

variable {g g' : Group engine} {config : StartTimestampConfig}

/-- Some partition of the group has the record. -/
def Holds (lawful : engine.Lawful) (g : Group engine) (key : BobKey keySize) (r : Record) : Prop :=
  ∃ holder ∈ g.holders, holder.Has lawful key r

/-- The group is known by the same names and keeps its records, and only records that are
allowed have been added. -/
structure Extends (lawful : engine.Lawful) (allowed : BobKey keySize → Record → Prop)
    (g g' : Group engine) : Prop where
  ident : g'.ident = g.ident
  reinitLock : g'.reinitLock = g.reinitLock
  kept : ∀ key r, g.Holds lawful key r → g'.Holds lawful key r
  added : ∀ key r, g'.Holds lawful key r → g.Holds lawful key r ∨ allowed key r

theorem Extends.refl (g : Group engine) : g.Extends lawful allowed g :=
  ⟨rfl, rfl, fun _ _ => id, fun _ _ => Or.inl⟩

theorem Extends.trans {a b c : Group engine} (first : a.Extends lawful allowed b)
    (second : b.Extends lawful allowed c) : a.Extends lawful allowed c where
  ident := second.ident.trans first.ident
  reinitLock := second.reinitLock.trans first.reinitLock
  kept := fun key r => second.kept key r ∘ first.kept key r
  added := fun key r held => (second.added key r held).elim (first.added key r) Or.inr

theorem Extends.vdiskId_eq (step : g.Extends lawful allowed g') : g'.vdiskId = g.vdiskId :=
  congrArg (·.1) step.ident

theorem Extends.canProcessOperation_eq (step : g.Extends lawful allowed g') (op : Operation) :
    g'.canProcessOperation op = g.canProcessOperation op := by
  obtain ⟨vdiskId, rest⟩ := Prod.mk.inj step.ident
  obtain ⟨nodeName, diskName⟩ := Prod.mk.inj rest
  unfold canProcessOperation
  rw [vdiskId, nodeName, diskName]

/-- The group serves requests, and it has the value. -/
structure Stores (lawful : engine.Lawful) (key : BobKey keySize) (data : BobData)
    (g : Group engine) : Prop where
  unlocked : g.reinitLock = false
  held : g.Holds lawful key (.value data)

theorem Stores.of_extends (stores : g.Stores lawful key data)
    (step : g.Extends lawful allowed g') : g'.Stores lawful key data :=
  ⟨step.reinitLock.trans stores.unlocked, step.kept _ _ stores.held⟩

/-- All records of the group are allowed. -/
def Within (lawful : engine.Lawful) (allowed : BobKey keySize → Record → Prop)
    (g : Group engine) : Prop :=
  ∀ key r, g.Holds lawful key r → allowed key r

theorem Within.of_extends (within : g.Within lawful allowed)
    (step : g.Extends lawful allowed g') : g'.Within lawful allowed :=
  fun key r held => (step.added key r held).elim (within key r) id

theorem within_new {settings : Settings} {vdiskId : VDiskId} {nodeName : NodeName}
    {diskName : DiskName} : (new settings vdiskId nodeName diskName : Group engine).Within lawful
      allowed := by
  rintro key r ⟨holder, member, -⟩
  cases member

/-! ### Writing -/

private theorem extends_of_grows {grown : ℕ → BobKey keySize → Record → Prop}
    {holders : List (Holder engine)}
    (related : List.Forall₂ (Grows lawful grown) g.holders holders)
    (within : ∀ start key r, grown start key r → allowed key r) :
    g.Extends lawful allowed { g with holders := holders } where
  ident := rfl
  reinitLock := rfl
  kept := by
    rintro key r ⟨holder, member, has⟩
    obtain ⟨new, hnew, grows⟩ := exists_mem_of_forall₂ related.flip member
    exact ⟨new, hnew, grows.kept key r has⟩
  added := by
    rintro key r ⟨holder, member, has⟩
    obtain ⟨old, hold, grows⟩ := exists_mem_of_forall₂ related member
    exact (grows.added key r has).imp (fun before => ⟨old, hold, before⟩) (within _ key r)

private theorem extends_getOrCreateActualHolder {timestamp i : ℕ} {holder : Holder engine}
    (result : g.getOrCreateActualHolder timestamp config = .ok (.ok ((i, holder), g'))) :
    g.Extends lawful allowed g' ∧ g'.holders[i]? = some holder := by
  rcases getOrCreateActualHolder_cases lawful result with
    ⟨found, rfl⟩ | ⟨rfl, rfl, -, -, -, -, has⟩
  · exact ⟨.refl _, (findActualHolder_spec found).1⟩
  refine ⟨⟨rfl, rfl, ?_, ?_⟩, by simp⟩
  · rintro key r ⟨old, member, held⟩
    exact ⟨old, List.mem_append_left _ member, held⟩
  -- a partition that is opened has what others have put into its directory
  · rintro key r ⟨new, member, held⟩
    rcases List.mem_append.mp member with before | last
    · exact Or.inl ⟨new, before, held⟩
    · rw [List.mem_singleton.mp last] at held
      obtain ⟨old, hold, -, before⟩ := (has key r).mp held
      exact Or.inl ⟨old, hold, before⟩

/-- A partition takes a put if it runs. -/
private theorem putCommon_cases (lawful : engine.Lawful) (holder : Holder engine)
    (key : BobKey keySize) (data : BobData) :
    (∃ written, putCommon holder key data = (.ok (), written) ∧
      Grows lawful (Puts key data holder.startTimestamp) holder written ∧
      written.Has lawful key (.value data)) ∨
    putCommon holder key data = (.error .vdiskIsNotReady, holder) := by
  cases running : holder.storage with
  | none =>
    right
    unfold putCommon Holder.write
    rw [running]
    rfl
  | some storage => exact Or.inl (exists_putCommon lawful key (by rw [running]; rfl) data)

/-- A put adds its value if it succeeds, and nothing if it does not. Its error does not
speak of a lost disk. -/
theorem put_extends (lawful : engine.Lawful) (allows : allowed key (.value data))
    {res : Except (Error keySize) Unit} (result : g.put key data config = .ok (res, g')) :
    g.Extends lawful allowed g' ∧ (res = .ok () → g'.Stores lawful key data) ∧
      ∀ e, res = .error e → e.isPossibleDiskDisconnection = false := by
  unfold put at result
  split_ifs at result with locked
  · cases result
    exact ⟨.refl _, by rintro ⟨⟩, by rintro e ⟨⟩; rfl⟩
  obtain ⟨found, hfound, result⟩ := bind_eq_ok_iff.mp result
  split at result
  · exact absurd hfound (getOrCreateActualHolder_ne_error lawful)
  rename_i index holder g₁
  obtain ⟨opened, stored⟩ := @extends_getOrCreateActualHolder _ _ lawful allowed _ _ _ _ _ _ hfound
  -- the group has its partition by now; what is left is the write
  rcases putCommon_cases lawful holder key data with ⟨written, hput, grows, has⟩ | hput
  · simp only [hput] at result
    cases result
    have grown : List.Forall₂ (Grows lawful (Puts key data holder.startTimestamp)) g₁.holders
        (g₁.holders.set index written) := forall₂_set Grows.refl stored grows
    have wrote : g₁.Extends lawful allowed (g₁.setHolder index written) := by
      refine extends_of_grows grown ?_
      rintro start other r ⟨-, rfl, rfl⟩
      exact allows
    refine ⟨opened.trans wrote, fun _ => ⟨?_, written, ?_, has⟩, by rintro e ⟨⟩⟩
    · exact opened.reinitLock.trans (Bool.eq_false_iff.mpr locked)
    · exact List.mem_set (List.getElem?_eq_some_iff.mp stored).1 written
  -- a partition that does not run is put back as it was
  · simp only [hput] at result
    cases result
    have same : g₁.setHolder index holder = g₁ := by
      obtain ⟨below, rfl⟩ := List.getElem?_eq_some_iff.mp stored
      rw [setHolder, List.set_getElem_self]
    rw [same]
    exact ⟨opened, by rintro ⟨⟩, by rintro e ⟨⟩; rfl⟩

/-- A partition marks at most the key, if it runs. -/
private theorem deleteCommon_cases (lawful : engine.Lawful) (holder : Holder engine)
    (key : BobKey keySize) (bobMeta : BobMeta) (forceDelete : Bool) :
    Grows lawful (Marks key bobMeta.timestamp.toNat) holder
        (deleteCommon holder key bobMeta forceDelete).2 ∧
      ∀ e, (deleteCommon holder key bobMeta forceDelete).1 = .error e →
        e.isPossibleDiskDisconnection = false := by
  cases running : holder.storage with
  | none =>
    have refused : deleteCommon holder key bobMeta forceDelete =
        (.error .vdiskIsNotReady, holder) := by
      unfold deleteCommon Holder.delete
      rw [running]
      rfl
    rw [refused]
    exact ⟨.refl holder, by rintro e ⟨⟩; rfl⟩
  | some storage =>
    obtain ⟨count, marked, deleted, grows, -⟩ :=
      exists_deleteCommon lawful key (by rw [running]; rfl) bobMeta forceDelete
    rw [deleted]
    exact ⟨grows, by rintro e ⟨⟩⟩

private theorem extends_deleteInHoldersBefore
    (allows : allowed key (.marker bobMeta.timestamp.toNat)) (lawful : engine.Lawful)
    (reference : ℕ) :
    g.Extends lawful allowed (g.deleteInHoldersBefore reference key bobMeta).2 := by
  -- whether a partition is passed over or visited, it gets at most the marker
  have visited : List.Forall₂ (Grows lawful (Marks key bobMeta.timestamp.toNat)) g.holders
      (g.deleteInHoldersBefore reference key bobMeta).2.holders := by
    refine forall₂_visitRev (fun _ holder _ _ => .refl holder) fun _ count holder _ _ => ?_
    have marked := (deleteCommon_cases lawful holder key bobMeta false).1
    split
    · rename_i same
      rwa [same] at marked
    · rename_i same
      rwa [same] at marked
  refine extends_of_grows visited ?_
  rintro start other r ⟨rfl, rfl⟩
  exact allows

/-- A delete adds at most its marker. -/
theorem delete_extends (lawful : engine.Lawful)
    (allows : allowed key (.marker bobMeta.timestamp.toNat)) {forceDelete : Bool}
    {res : Except (Error keySize) ℕ}
    (result : g.delete key bobMeta config forceDelete = .ok (res, g')) :
    g.Extends lawful allowed g' ∧ ∀ e, res = .error e → e.isPossibleDiskDisconnection = false := by
  unfold delete at result
  split_ifs at result with locked
  · cases result
    exact ⟨.refl _, by rintro e ⟨⟩; rfl⟩
  · obtain ⟨found, hfound, result⟩ := bind_eq_ok_iff.mp result
    split at result
    · exact absurd hfound (getOrCreateActualHolder_ne_error lawful)
    rename_i index holder g₁
    obtain ⟨opened, stored⟩ :=
      @extends_getOrCreateActualHolder _ _ lawful allowed _ _ _ _ _ _ hfound
    obtain ⟨grows, quiet⟩ := deleteCommon_cases lawful holder key bobMeta true
    -- the current partition first, then those before it
    have marked : g₁.Extends lawful allowed
        (g₁.setHolder index (deleteCommon holder key bobMeta true).2) := by
      refine extends_of_grows (forall₂_set Grows.refl stored grows) ?_
      rintro start other r ⟨rfl, rfl⟩
      exact allows
    dsimp only at result
    split at result
    · rename_i e failed
      cases result
      exact ⟨opened.trans marked, by rintro e ⟨⟩; exact quiet _ failed⟩
    · cases result
      exact ⟨opened.trans (marked.trans (extends_deleteInHoldersBefore allows lawful _)),
        by rintro e ⟨⟩⟩
  · cases result
    exact ⟨extends_deleteInHoldersBefore allows lawful _, by rintro e ⟨⟩⟩

/-! ### Reading -/

/-- A read returns a value that the group holds. -/
theorem holds_of_reads (lawful : engine.Lawful) (found : g.reads key = some data) :
    g.Holds lawful key (.value data) := by
  cases locked : g.reinitLock with
  | true =>
    rw [reads_of_locked locked] at found
    cases found
  | false =>
    -- a read returns the newest of what its partitions show
    rw [reads_eq_best lawful locked] at found
    obtain ⟨r, hbest, hvalue⟩ := Option.bind_eq_some_iff.mp found
    obtain ⟨holder, visited, looked⟩ := exists_of_searchNewest hbest
    cases r with
    | marker _ => cases hvalue
    | value data' =>
      cases hvalue
      exact ⟨holder, mem_holders_of_possible visited, (newestIn_eq_some looked).1⟩

/-- A group that holds one value for a key, and no other record, returns it. How far back
a read looks does not matter: until it has found something it skips nothing. -/
theorem Stores.reads_eq (stores : g.Stores lawful key data)
    (sole : ∀ r, g.Holds lawful key r → r = .value data) : g.reads key = some data := by
  obtain ⟨holder, member, has⟩ := stores.held
  rw [reads_eq_best lawful stores.unlocked]
  cases hbest : g.best lawful key with
  | none =>
    have missing := searchNewest_eq_none_iff.mp hbest holder (mem_possibleRev_of_has member has)
    exact absurd has (newestIn_eq_none missing _)
  | some r =>
    obtain ⟨source, visited, looked⟩ := exists_of_searchNewest hbest
    rw [sole r ⟨source, mem_holders_of_possible visited, (newestIn_eq_some looked).1⟩]
    rfl

end Group

/-! ## Controllers -/

namespace DiskController

variable {dc dc' dc'' : DiskController engine}

/-- The controller serves as before, its groups have been extended, and groups that were
added have only records that are allowed. -/
structure Extends (lawful : engine.Lawful) (allowed : BobKey keySize → Record → Prop)
    (dc dc' : DiskController engine) : Prop where
  vdisks : dc'.vdisks = dc.vdisks
  isAlien : dc'.isAlien = dc.isAlien
  state : dc'.state = dc.state
  groups : Extended (Group.Extends lawful allowed) (Group.Within lawful allowed) dc.groups
    dc'.groups

theorem Extends.of_groups {groups : List (Group engine)}
    (extended : Extended (Group.Extends lawful allowed) (Group.Within lawful allowed) dc.groups
      groups) : dc.Extends lawful allowed { dc with groups := groups } :=
  ⟨rfl, rfl, rfl, extended⟩

theorem Extends.refl (dc : DiskController engine) : dc.Extends lawful allowed dc :=
  .of_groups (.of_forall₂ (List.forall₂_same.mpr fun g _ => .refl g))

theorem Extends.trans (first : dc.Extends lawful allowed dc')
    (second : dc'.Extends lawful allowed dc'') : dc.Extends lawful allowed dc'' where
  vdisks := second.vdisks.trans first.vdisks
  isAlien := second.isAlien.trans first.isAlien
  state := second.state.trans first.state
  groups := first.groups.trans (fun _ _ _ => .trans) (fun _ _ step within => within.of_extends step)
    second.groups

theorem Extends.canProcessOperation_eq (step : dc.Extends lawful allowed dc') (op : Operation) :
    dc'.canProcessOperation op = dc.canProcessOperation op := by
  rw [canProcessOperation, canProcessOperation, step.vdisks, step.isAlien]

private theorem extends_setGroup {g g' : Group engine} {i : ℕ} (stored : dc.groups[i]? = some g)
    (step : g.Extends lawful allowed g') : dc.Extends lawful allowed (dc.setGroup i g') :=
  .of_groups (.of_forall₂ (forall₂_set .refl stored step))

private theorem processError_of_quiet {e : Error keySize}
    (quiet : e.isPossibleDiskDisconnection = false) : dc.processError e = dc :=
  if_neg (Bool.eq_false_iff.mp quiet)

/-- The group that serves a request of the normal store has the value. -/
def StoresAt (lawful : engine.Lawful) (op : Operation) (key : BobKey keySize) (data : BobData)
    (dc : DiskController engine) : Prop :=
  dc.state = .ready ∧ ∃ g i, findSingleGroup dc.groups op = some (g, i) ∧ g.Stores lawful key data

theorem StoresAt.of_extends (stores : dc.StoresAt lawful op key data)
    (step : dc.Extends lawful allowed dc') : dc'.StoresAt lawful op key data := by
  obtain ⟨ready, g, i, found, here⟩ := stores
  obtain ⟨g', found', step'⟩ :=
    step.groups.exists_firstMatch (fun _ _ same => same.canProcessOperation_eq op) found
  exact ⟨step.state.trans ready, g', i, found', here.of_extends step'⟩

/-- A group of the vdisk in the alien store has the value. -/
def StoresAlien (lawful : engine.Lawful) (vdiskId : VDiskId) (key : BobKey keySize)
    (data : BobData) (dc : DiskController engine) : Prop :=
  dc.state = .ready ∧ ∃ g ∈ dc.groups, g.vdiskId = vdiskId ∧ g.Stores lawful key data

theorem StoresAlien.of_extends {vdiskId : VDiskId} (stores : dc.StoresAlien lawful vdiskId key data)
    (step : dc.Extends lawful allowed dc') : dc'.StoresAlien lawful vdiskId key data := by
  obtain ⟨ready, g, member, same, here⟩ := stores
  obtain ⟨g', member', step'⟩ := step.groups.exists_mem member
  exact ⟨step.state.trans ready, g', member', step'.vdiskId_eq.trans same, here.of_extends step'⟩

/-! ### Writing -/

theorem put_extends (lawful : engine.Lawful) (allows : allowed key (.value data))
    {res : Except (Error keySize) Unit} (result : dc.put op key data = .ok (res, dc')) :
    dc.Extends lawful allowed dc' ∧ (res = .ok () → dc'.StoresAt lawful op key data) := by
  unfold put at result
  split_ifs at result with ready
  · split at result
    · rename_i g i found
      obtain ⟨⟨answer, g'⟩, hput, result⟩ := bind_eq_ok_iff.mp result
      obtain ⟨stored, accepts, -⟩ := firstMatch_eq_some_iff.mp found
      obtain ⟨step, stores, quiet⟩ := Group.put_extends lawful allows hput
      have placed := extends_setGroup stored step
      cases answer with
      | ok =>
        cases result
        refine ⟨placed, fun _ => ⟨ready, g', i, ?_, stores rfl⟩⟩
        -- the group is still the first that serves the operation
        exact firstMatch_set found ((step.canProcessOperation_eq op).trans accepts)
      | error e =>
        cases result
        rw [processError_of_quiet (quiet e rfl)]
        exact ⟨placed, by rintro ⟨⟩⟩
    · cases result
      exact ⟨.refl _, by rintro ⟨⟩⟩
  · cases result
    exact ⟨.refl _, by rintro ⟨⟩⟩

/-- The group for an alien write is one of the vdisk, and if it is new it is empty. -/
private theorem getOrCreatePearl_extends {g : Group engine} {i : ℕ}
    (result : dc.getOrCreatePearl makeDir op = .ok (.ok ((g, i), dc'))) :
    dc.Extends lawful allowed dc' ∧ dc'.groups[i]? = some g ∧ g.vdiskId = op.vdiskId := by
  unfold getOrCreatePearl at result
  split at result
  · rename_i found hfound
    cases result
    obtain ⟨stored, accepts, -⟩ := firstMatch_eq_some_iff.mp hfound
    refine ⟨.refl _, stored, ?_⟩
    -- by whichever name a group is matched, the vdisk has to match as well
    unfold Group.canProcessOperation at accepts
    split at accepts
    · simpa using (Bool.and_eq_true_iff.mp accepts).2
    · simpa using (Bool.and_eq_true_iff.mp accepts).1
  · split at result
    · cases result
    · rename_i node named
      dsimp only [Settings.createAlienGroup] at result
      split at result
      · cases result
      · rename_i group created
        cases result
        split at created
        · cases created
        · cases created
          exact ⟨.of_groups (.append_singleton .refl Group.within_new), by simp, rfl⟩

theorem putAlien_extends (lawful : engine.Lawful) (allows : allowed key (.value data))
    {res : Except (Error keySize) Unit}
    (result : dc.putAlien makeDir op key data = .ok (res, dc')) :
    dc.Extends lawful allowed dc' ∧
      (res = .ok () → dc'.StoresAlien lawful op.vdiskId key data) := by
  unfold putAlien at result
  split_ifs at result with ready
  · obtain ⟨found, hfound, result⟩ := bind_eq_ok_iff.mp result
    split at result
    · rename_i g i dc₁
      obtain ⟨⟨answer, g'⟩, hput, result⟩ := bind_eq_ok_iff.mp result
      obtain ⟨opened, stored, sameVdisk⟩ :=
        @getOrCreatePearl_extends _ _ lawful allowed _ _ _ _ _ _ hfound
      obtain ⟨step, stores, quiet⟩ := Group.put_extends lawful allows hput
      have placed := opened.trans (extends_setGroup stored step)
      cases answer with
      | ok =>
        cases result
        refine ⟨placed, fun _ => ⟨opened.state.trans ready, g', ?_, ?_, stores rfl⟩⟩
        · exact List.mem_set (List.getElem?_eq_some_iff.mp stored).1 g'
        · exact step.vdiskId_eq.trans sameVdisk
      | error e =>
        cases result
        rw [processError_of_quiet (quiet e rfl)]
        exact ⟨placed, by rintro ⟨⟩⟩
    · cases result
      exact ⟨.refl _, by rintro ⟨⟩⟩
  · cases result
    exact ⟨.refl _, by rintro ⟨⟩⟩

theorem delete_extends (lawful : engine.Lawful)
    (allows : allowed key (.marker bobMeta.timestamp.toNat)) {res : Except (Error keySize) ℕ}
    (result : dc.delete op key bobMeta = .ok (res, dc')) : dc.Extends lawful allowed dc' := by
  unfold DiskController.delete at result
  split_ifs at result with ready
  · split at result
    · rename_i g i found
      obtain ⟨⟨answer, g'⟩, deleted, result⟩ := bind_eq_ok_iff.mp result
      cases result
      exact extends_setGroup (firstMatch_eq_some_iff.mp found).1
        (Group.delete_extends lawful allows deleted).1
    · cases result
      exact .refl _
  · cases result
    exact .refl _

/-- The loop over the alien groups meets no error that would drop them. -/
private theorem deleteAlienFrom_extends (lawful : engine.Lawful)
    (allows : allowed key (.marker bobMeta.timestamp.toNat)) {groups groups' : List (Group engine)}
    {forceDelete : Bool} {done done' : AlienDelete keySize}
    (quiet : ∀ e ∈ done.processed, e.isPossibleDiskDisconnection = false)
    (result : deleteAlienFrom op key bobMeta forceDelete done groups = .ok (done', groups')) :
    List.Forall₂ (Group.Extends lawful allowed) groups groups' ∧
      ∀ e ∈ done'.processed, e.isPossibleDiskDisconnection = false := by
  induction groups generalizing done groups' with
  | nil =>
    cases result
    exact ⟨.nil, quiet⟩
  | cons g rest ih =>
    rw [deleteAlienFrom] at result
    -- the first case is that of groups dropped by an earlier error; there was none
    split_ifs at result with accepts dropped
    · obtain ⟨e, member, lost⟩ := List.any_eq_true.mp dropped
      rw [quiet e member] at lost
      cases lost
    · obtain ⟨⟨answer, g'⟩, deleted, result⟩ := bind_eq_ok_iff.mp result
      obtain ⟨⟨done₁, rest'⟩, looped, result⟩ := bind_eq_ok_iff.mp result
      cases result
      obtain ⟨step, quietHere⟩ := Group.delete_extends lawful allows deleted
      obtain ⟨steps, quietLater⟩ := ih (by
        cases answer with
        | ok count => exact quiet
        | error e =>
          intro other member
          rcases List.mem_append.mp member with before | last
          · exact quiet other before
          · rw [List.mem_singleton.mp last]
            exact quietHere e rfl) looped
      exact ⟨.cons step steps, quietLater⟩
    · obtain ⟨⟨done₁, rest'⟩, looped, result⟩ := bind_eq_ok_iff.mp result
      cases result
      obtain ⟨steps, quietLater⟩ := ih quiet looped
      exact ⟨.cons (.refl g) steps, quietLater⟩

private theorem foldl_processError_of_quiet {errors : List (Error keySize)}
    (quiet : ∀ e ∈ errors, e.isPossibleDiskDisconnection = false) :
    errors.foldl processError dc = dc := by
  induction errors with
  | nil => rfl
  | cons e rest ih =>
    rw [List.foldl_cons, processError_of_quiet (quiet e List.mem_cons_self)]
    exact ih fun other member => quiet other (List.mem_cons_of_mem _ member)

theorem deleteAlien_extends (lawful : engine.Lawful)
    (allows : allowed key (.marker bobMeta.timestamp.toNat)) {forceDelete : Bool}
    {res : Except (Error keySize) ℕ}
    (result : dc.deleteAlien makeDir op key bobMeta forceDelete = .ok (res, dc')) :
    dc.Extends lawful allowed dc' := by
  unfold deleteAlien at result
  split_ifs at result with ready lonely
  · obtain ⟨found, hfound, result⟩ := bind_eq_ok_iff.mp result
    split at result
    · rename_i g i dc₁
      obtain ⟨⟨answer, g'⟩, deleted, result⟩ := bind_eq_ok_iff.mp result
      obtain ⟨opened, stored, -⟩ := @getOrCreatePearl_extends _ _ lawful allowed _ _ _ _ _ _ hfound
      obtain ⟨step, quiet⟩ := Group.delete_extends lawful allows deleted
      have placed := opened.trans (extends_setGroup stored step)
      cases answer with
      | ok count =>
        cases result
        exact placed
      | error e =>
        cases result
        rw [processError_of_quiet (quiet e rfl)]
        exact placed
    · cases result
      exact .refl _
  · obtain ⟨⟨done, groups⟩, looped, result⟩ := bind_eq_ok_iff.mp result
    obtain ⟨steps, quiet⟩ := deleteAlienFrom_extends lawful allows (by rintro e ⟨⟩) looped
    dsimp only at result
    rw [foldl_processError_of_quiet quiet] at result
    have extended : dc.Extends lawful allowed { dc with groups := groups } :=
      .of_groups (.of_forall₂ steps)
    split at result
    · cases result
      exact extended
    · cases result
      exact extended
  · cases result
    exact .refl _

/-! ### Reading -/

/-- A read of aliens returns a value that one of the groups holds. -/
private theorem holds_of_getAlienFrom (lawful : engine.Lawful) {groups : List (Group engine)}
    {result : Option BobData} (found : (getAlienFrom op key result groups).1 = some data) :
    result = some data ∨ ∃ g ∈ groups, g.Holds lawful key (.value data) := by
  induction groups generalizing result with
  | nil => exact Or.inl found
  | cons g rest ih =>
    rw [getAlienFrom] at found
    split_ifs at found with accepts
    · dsimp only at found
      rcases ih found with taken | ⟨other, member, held⟩
      -- the newer of two values wins; either way it is one that was read
      · split at taken
        · rename_i value answered
          split_ifs at taken
          · cases taken
            refine Or.inr ⟨g, List.mem_cons_self, Group.holds_of_reads lawful ?_⟩
            rw [Group.reads, answered]
            rfl
          · exact Or.inl taken
        · exact Or.inl taken
      · exact Or.inr ⟨other, List.mem_cons_of_mem _ member, held⟩
    · dsimp only at found
      rcases ih found with taken | ⟨other, member, held⟩
      · exact Or.inl taken
      · exact Or.inr ⟨other, List.mem_cons_of_mem _ member, held⟩

/-- What a read of a controller returns is held by one of its groups. -/
theorem holds_of_get (lawful : engine.Lawful) (found : (dc.get op key).1 = .ok data) :
    ∃ g ∈ dc.groups, g.Holds lawful key (.value data) := by
  unfold get at found
  split_ifs at found with ready
  · split at found
    · rename_i g i located
      refine ⟨g, List.mem_of_getElem? (firstMatch_eq_some_iff.mp located).1,
        Group.holds_of_reads lawful ?_⟩
      dsimp only at found
      rw [Group.reads, found]
      rfl
    · cases found

theorem holds_of_getAlien (lawful : engine.Lawful) (found : (dc.getAlien op key).1 = .ok data) :
    ∃ g ∈ dc.groups, g.Holds lawful key (.value data) := by
  unfold getAlien at found
  split_ifs at found with ready
  · dsimp only at found
    split at found
    · rename_i value taken
      cases found
      rcases holds_of_getAlienFrom lawful taken with none | held
      · cases none
      · exact held
    · cases found

end DiskController

end Bob.Backend

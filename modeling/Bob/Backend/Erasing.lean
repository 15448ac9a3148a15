/-
# Deletes that outdate every copy

A delete is newer than all copies of its key in a group. If it is forced, it leaves its
marker in one partition. If it is not, it marks the key where it is present, and since no
copy is in a partition that starts after it, no partition keeps a copy as its newest
record. In either case the group hides the key from then on, as long as it answers with
its newest record. The same holds for the groups of a controller and of a whole store
that the delete is sent to; the others stay as they are.
-/

import Bob.Math.Stepwise
import Bob.Backend.Agreement
import Bob.Backend.AlienGroups
import Bob.Backend.LastWriter

namespace Bob.Backend

open Bob.Configs Bob.Math

variable {keySize : ℕ} {engine : StorageEngine keySize}

/-- A conditional delete of a key that is not present leaves the newest record as it is. -/
def StorageEngine.Lawful.Steady (lawful : engine.Lawful) : Prop :=
  ∀ s key timestamp s' count, ¬ lawful.Present s key →
    engine.delete s key timestamp true = .ok (s', count) →
      lawful.newest s' key = lawful.newest s key

theorem logEngine.steady : (logEngine.lawful keySize).Steady := by
  intro log key timestamp log' count absent deleted
  have unchanged : (logEngine keySize).delete log key timestamp true = .ok (log, 0) :=
    if_pos (by simpa using Bool.eq_false_iff.mpr absent)
  cases unchanged.symm.trans deleted
  rfl

/-! ## Groups -/

namespace Group

variable {lawful : engine.Lawful} {key : BobKey keySize} {timestamp : ℕ} {bobMeta : BobMeta}
  {g g' : Group engine} {config : StartTimestampConfig} {forceDelete : Bool}
  {res : Except (Error keySize) ℕ}

/-- All partitions run, and every copy of the key is older than the timestamp and not in a
partition that starts after it. -/
structure Outdated (lawful : engine.Lawful) (key : BobKey keySize) (timestamp : ℕ)
    (g : Group engine) : Prop where
  unlocked : g.reinitLock = false
  running : ∀ holder ∈ g.holders, holder.storage.isSome
  early : ∀ holder ∈ g.holders, ∀ data, holder.Has lawful key (.value data) →
    holder.startTimestamp ≤ data.bobMeta.timestamp.toNat
  older : ∀ holder ∈ g.holders, ∀ data, holder.Has lawful key (.value data) →
    data.bobMeta.timestamp.toNat < timestamp

/-- A group whose history has only older writes of the key. -/
theorem outdated_of_history {periods : List Duration} {ops : List (GroupOp keySize)}
    (history : History periods ops g)
    (older : ∀ op ∈ ops, op.key = key → op.timestamp < timestamp) :
    g.Outdated lawful key timestamp where
  unlocked := (history.represents lawful).unlocked
  running := (history.represents lawful).running
  early := fun holder member data has => history.early lawful holder member key data has
  older := by
    intro holder member data has
    obtain ⟨op, hop, same, wrote⟩ := (history.represents lawful).sound holder member key _ has
    have before := older op hop same
    rwa [GroupOp.timestamp, wrote] at before

/-- The marker of the delete is in some partition, or no partition has a copy as its
newest record. -/
def Erased (lawful : engine.Lawful) (key : BobKey keySize) (timestamp : ℕ) (g : Group engine) :
    Prop :=
  (∃ holder ∈ g.holders, holder.Has lawful key (.marker timestamp)) ∨
    ∀ holder ∈ g.holders, ∀ data, newestIn lawful key holder ≠ some (.value data)

/-- A group that answers with data answers with a newest record. -/
def AnswersNewest (lawful : engine.Lawful) (key : BobKey keySize) (g : Group engine) : Prop :=
  ∀ data, g.reads key = some data → ∀ holder ∈ g.holders, ∀ r, holder.Has lawful key r →
    r.timestamp ≤ data.bobMeta.timestamp.toNat

/-- What a read returns is the newest record of some partition. -/
private theorem exists_newestIn_of_reads (unlocked : g.reinitLock = false) {data : BobData}
    (found : g.reads key = some data) :
    ∃ holder ∈ g.holders, newestIn lawful key holder = some (.value data) := by
  rw [reads_eq_best lawful unlocked] at found
  obtain ⟨r, hbest, hvalue⟩ := Option.bind_eq_some_iff.mp found
  obtain ⟨holder, visited, looked⟩ := exists_of_searchNewest hbest
  refine ⟨holder, mem_holders_of_possible visited, ?_⟩
  cases r with
  | value data' =>
    cases hvalue
    exact looked
  | marker _ => cases hvalue

/-- Without a step, a group answers with its newest record. -/
theorem answersNewest_of_noStep (unlocked : g.reinitLock = false)
    (noStep : g.safeTimestampStep = none) : g.AnswersNewest lawful key := by
  intro data found holder member r has
  rw [reads_eq_best lawful unlocked] at found
  obtain ⟨best, hbest, hvalue⟩ := Option.bind_eq_some_iff.mp found
  have asksAll : g.asks = fun _ _ => true := by
    funext holder max
    simp only [asks, shouldCheckHolder, noStep]
  rw [Group.best, asksAll] at hbest
  cases best with
  | marker _ => cases hvalue
  | value data' =>
    cases hvalue
    have visited := mem_possibleRev_of_has member has
    cases looked : newestIn lawful key holder with
    | none => exact absurd has (newestIn_eq_none looked r)
    | some newest =>
      calc r.timestamp
        _ ≤ newest.timestamp := (newestIn_eq_some looked).2 r has
        _ ≤ data.bobMeta.timestamp.toNat :=
          (isNewest_of_searchNewest hbest).newest holder visited newest looked

/-- An erased group hides its outdated copies. -/
theorem Outdated.reads_eq_none (outdated : g.Outdated lawful key timestamp)
    (erased : g.Erased lawful key timestamp) (answers : g.AnswersNewest lawful key) :
    g.reads key = none := by
  by_contra found
  obtain ⟨data, found⟩ := Option.ne_none_iff_exists'.mp found
  obtain ⟨holder, member, looked⟩ := @exists_newestIn_of_reads _ _ lawful _ _ outdated.unlocked _
    found
  rcases erased with ⟨marked, hmarked, marker⟩ | hidden
  · have newest : timestamp ≤ data.bobMeta.timestamp.toNat :=
      answers data found marked hmarked _ marker
    have older := outdated.older holder member data (newestIn_eq_some looked).1
    omega
  · exact hidden holder member data looked

/-! ### Deleting -/

private theorem Outdated.getOrCreateActualHolder {time i : ℕ} {holder : Holder engine}
    (outdated : g.Outdated lawful key timestamp)
    (result : g.getOrCreateActualHolder time config = .ok (.ok ((i, holder), g'))) :
    g'.Outdated lawful key timestamp := by
  rcases getOrCreateActualHolder_cases lawful result with
    ⟨-, rfl⟩ | ⟨rfl, -, running, -, -, -, has⟩
  · exact outdated
  have both {P : Holder engine → Prop} (old : ∀ h ∈ g.holders, P h) (new : P holder) :
      ∀ h ∈ g.holders ++ [holder], P h := by
    intro h member
    rcases List.mem_append.mp member with before | last
    · exact old h before
    · rwa [List.mem_singleton.mp last]
  refine ⟨outdated.unlocked, both outdated.running running, both outdated.early ?_,
    both outdated.older ?_⟩
  -- the new partition has only what partitions with its start have
  · intro data here
    obtain ⟨old, hold, same, hasOld⟩ := (has key _).mp here
    exact same ▸ outdated.early old hold data hasOld
  · intro data here
    obtain ⟨old, hold, -, hasOld⟩ := (has key _).mp here
    exact outdated.older old hold data hasOld

private theorem Outdated.grow {time : ℕ} {holders : List (Holder engine)}
    (outdated : g.Outdated lawful key timestamp)
    (grown : List.Forall₂ (Grows lawful (MarksUpTo key time)) g.holders holders) :
    Outdated lawful key timestamp { g with holders := holders } := by
  -- markers are the only records that are added
  have source (holder : Holder engine) (member : holder ∈ holders) (data : BobData)
      (has : holder.Has lawful key (.value data)) : ∃ old ∈ g.holders,
        old.startTimestamp = holder.startTimestamp ∧ old.Has lawful key (.value data) := by
    obtain ⟨old, hold, grows⟩ := exists_mem_of_forall₂ grown member
    refine ⟨old, hold, grows.startTimestamp.symm, ?_⟩
    rcases grows.added key _ has with before | ⟨-, -, ⟨⟩⟩
    exact before
  refine ⟨outdated.unlocked, fun holder member => ?_, fun holder member data has => ?_,
    fun holder member data has => ?_⟩
  · obtain ⟨old, hold, grows⟩ := exists_mem_of_forall₂ grown member
    exact grows.running (outdated.running old hold)
  · obtain ⟨old, hold, same, hasOld⟩ := source holder member data has
    exact same ▸ outdated.early old hold data hasOld
  · obtain ⟨old, hold, -, hasOld⟩ := source holder member data has
    exact outdated.older old hold data hasOld

/-- A conditional delete leaves no older copy as the newest record of a partition. -/
private theorem newestIn_deleteCommon_ne (steady : lawful.Steady) {holder : Holder engine}
    (running : holder.storage.isSome)
    (older : ∀ data, holder.Has lawful key (.value data) →
      data.bobMeta.timestamp.toNat < bobMeta.timestamp.toNat) (data : BobData) :
    newestIn lawful key (deleteCommon holder key bobMeta false).2 ≠ some (.value data) := by
  intro looked
  obtain ⟨storage, hstorage⟩ := Option.isSome_iff_exists.mp running
  by_cases present : lawful.Present storage key
  · -- the marker is there, and it is newer than the copy
    obtain ⟨count, marked, hmarked, grows, marks⟩ :=
      exists_deleteCommon lawful key running bobMeta false
    rw [hmarked] at looked
    obtain ⟨has, newest⟩ := newestIn_eq_some looked
    have marker : bobMeta.timestamp.toNat ≤ data.bobMeta.timestamp.toNat :=
      newest _ (marks (Or.inr ⟨storage, hstorage, present⟩))
    rcases grows.added key _ has with before | ⟨-, ⟨⟩⟩
    have := older data before
    omega
  · obtain ⟨storage', count, deleted, -⟩ :=
      lawful.exists_delete storage key bobMeta.timestamp.toNat
    have same : (deleteCommon holder key bobMeta false).2.storage = some storage' := by
      simp only [deleteCommon, Holder.delete, hstorage, Bool.not_false, deleted]
    rw [newestIn, same, Option.bind_some, steady _ _ _ _ _ present deleted] at looked
    exact present (lawful.present_of_value looked)

/-- A delete that outdates every copy erases them, and it does not fail. -/
theorem Outdated.delete (steady : lawful.Steady)
    (outdated : g.Outdated lawful key bobMeta.timestamp.toNat)
    (result : g.delete key bobMeta config forceDelete = .ok (res, g')) :
    (∃ count, res = .ok count) ∧ g'.Outdated lawful key bobMeta.timestamp.toNat ∧
      g'.Erased lawful key bobMeta.timestamp.toNat := by
  cases forceDelete with
  | true =>
    obtain ⟨i, holder, g₁, holders, ok, rfl, found, grown, final, hfinal, marker, -⟩ :=
      delete_forced_cases lawful outdated.unlocked outdated.running result
    exact ⟨ok, (outdated.getOrCreateActualHolder found).grow grown,
      Or.inl ⟨final, hfinal, marker⟩⟩
  | false =>
    rw [delete_unforced_eq outdated.unlocked] at result
    cases result
    have marked := @forall₂_deleteInHoldersBefore _ _ g lawful key outdated.running _ bobMeta le_rfl
    refine ⟨⟨_, rfl⟩, outdated.grow (marked.imp fun _ _ => And.left), Or.inr ?_⟩
    intro holder member data looked
    obtain ⟨old, hold, grows, visited⟩ := exists_mem_of_forall₂ marked member
    -- a partition with a copy starts before the delete, so it was visited
    have has : old.Has lawful key (.value data) := by
      rcases grows.added key _ (newestIn_eq_some looked).1 with before | ⟨-, -, ⟨⟩⟩
      exact before
    have before : old.startTimestamp < bobMeta.timestamp.toNat :=
      lt_of_le_of_lt (outdated.early old hold data has) (outdated.older old hold data has)
    rw [visited, if_pos before] at looked
    exact newestIn_deleteCommon_ne steady (outdated.running old hold) (outdated.older old hold)
      data looked

/-- The group is known by the same names, and if it was erased it still is. -/
structure Evolves (lawful : engine.Lawful) (key : BobKey keySize) (timestamp : ℕ)
    (g g' : Group engine) : Prop where
  ident : g'.ident = g.ident
  erased : g.Erased lawful key timestamp → g'.Erased lawful key timestamp

theorem Evolves.refl (g : Group engine) : g.Evolves lawful key timestamp g := ⟨rfl, id⟩

theorem Evolves.trans {a b c : Group engine} (first : a.Evolves lawful key timestamp b)
    (second : b.Evolves lawful key timestamp c) : a.Evolves lawful key timestamp c :=
  ⟨second.ident.trans first.ident, second.erased ∘ first.erased⟩

/-- Which requests a group accepts depends on what it is known by. -/
theorem Evolves.canProcessOperation_eq (evolves : g.Evolves lawful key timestamp g')
    (op : Operation) : g'.canProcessOperation op = g.canProcessOperation op := by
  obtain ⟨vdiskId, rest⟩ := Prod.mk.inj evolves.ident
  obtain ⟨nodeName, diskName⟩ := Prod.mk.inj rest
  unfold canProcessOperation
  rw [vdiskId, nodeName, diskName]

/-- A group is picked by the names that it keeps. -/
theorem Erased.of_evolves {picks : NodeName → Prop} {vdiskId : VDiskId}
    (erased : g.vdiskId = vdiskId → picks g.nodeName → g.Erased lawful key timestamp)
    (evolves : g.Evolves lawful key timestamp g') (same : g'.vdiskId = vdiskId)
    (picked : picks g'.nodeName) : g'.Erased lawful key timestamp := by
  obtain ⟨sameId, rest⟩ := Prod.mk.inj evolves.ident
  obtain ⟨sameNode, -⟩ := Prod.mk.inj rest
  rw [sameId] at same
  rw [sameNode] at picked
  exact evolves.erased (erased same picked)

end Group

/-! ## Controllers -/

namespace DiskController

variable {lawful : engine.Lawful} {key : BobKey keySize} {timestamp : ℕ} {bobMeta : BobMeta}
  {dc dc' dc'' : DiskController engine} {op : Operation}

def Outdated (lawful : engine.Lawful) (key : BobKey keySize) (timestamp : ℕ)
    (dc : DiskController engine) : Prop :=
  ∀ g ∈ dc.groups, g.Outdated lawful key timestamp

/-- The controller serves as before, its groups are kept, and groups that were added have
nothing to hide. -/
structure Evolves (lawful : engine.Lawful) (key : BobKey keySize) (timestamp : ℕ)
    (dc dc' : DiskController engine) : Prop where
  vdisks : dc'.vdisks = dc.vdisks
  isAlien : dc'.isAlien = dc.isAlien
  state : dc'.state = dc.state
  groups : Extended (Group.Evolves lawful key timestamp) (Group.Erased lawful key timestamp)
    dc.groups dc'.groups

theorem Evolves.of_groups {groups : List (Group engine)}
    (extended : Extended (Group.Evolves lawful key timestamp) (Group.Erased lawful key timestamp)
      dc.groups groups) :
    dc.Evolves lawful key timestamp { dc with groups := groups } :=
  ⟨rfl, rfl, rfl, extended⟩

theorem Evolves.refl (dc : DiskController engine) : dc.Evolves lawful key timestamp dc :=
  .of_groups (.of_forall₂ (List.forall₂_same.mpr fun g _ => .refl g))

theorem Evolves.trans (first : dc.Evolves lawful key timestamp dc')
    (second : dc'.Evolves lawful key timestamp dc'') : dc.Evolves lawful key timestamp dc'' where
  vdisks := second.vdisks.trans first.vdisks
  isAlien := second.isAlien.trans first.isAlien
  state := second.state.trans first.state
  groups := first.groups.trans (fun _ _ _ => .trans) (fun _ _ evolves => evolves.erased)
    second.groups

theorem Evolves.canProcessOperation_eq (evolves : dc.Evolves lawful key timestamp dc')
    (op : Operation) : dc'.canProcessOperation op = dc.canProcessOperation op := by
  rw [canProcessOperation, canProcessOperation, evolves.vdisks, evolves.isAlien]

/-- The group that serves a request of the normal store has the key erased. -/
def ErasedAt (lawful : engine.Lawful) (key : BobKey keySize) (timestamp : ℕ) (op : Operation)
    (dc : DiskController engine) : Prop :=
  dc.state = .ready → ∀ g i, findSingleGroup dc.groups op = some (g, i) →
    g.Erased lawful key timestamp

theorem ErasedAt.of_evolves (erased : dc.ErasedAt lawful key timestamp op)
    (evolves : dc.Evolves lawful key timestamp dc') : dc'.ErasedAt lawful key timestamp op := by
  intro ready g' i found
  rcases evolves.groups.fresh_or_firstMatch (fun _ _ same => same.canProcessOperation_eq op) found
    with fresh | ⟨g, found, same⟩
  · exact fresh
  · exact same.erased (erased (evolves.state ▸ ready) g i found)

/-- The groups of a vdisk whose nodes are picked have the key erased. -/
def ErasedFor (lawful : engine.Lawful) (key : BobKey keySize) (timestamp : ℕ) (vdiskId : VDiskId)
    (picks : NodeName → Prop) (dc : DiskController engine) : Prop :=
  dc.state = .ready → ∀ g ∈ dc.groups, g.vdiskId = vdiskId → picks g.nodeName →
    g.Erased lawful key timestamp

theorem ErasedFor.of_evolves {vdiskId : VDiskId} {picks : NodeName → Prop}
    (erased : dc.ErasedFor lawful key timestamp vdiskId picks)
    (evolves : dc.Evolves lawful key timestamp dc') :
    dc'.ErasedFor lawful key timestamp vdiskId picks := by
  intro ready g' member same picked
  rcases evolves.groups.fresh_or_exists member with fresh | ⟨g, hg, evolves'⟩
  · exact fresh
  · exact Group.Erased.of_evolves (erased (evolves.state ▸ ready) g hg) evolves' same picked

/-! ### Deleting -/

section Delete

variable (steady : lawful.Steady) (outdated : dc.Outdated lawful key bobMeta.timestamp.toNat)
include steady outdated

/-- A delete in one group of the controller. -/
private theorem setGroup_of_delete {g g' : Group engine} {i : ℕ} {config : StartTimestampConfig}
    {forceDelete : Bool} {res : Except (Error keySize) ℕ} (stored : dc.groups[i]? = some g)
    (deleted : g.delete key bobMeta config forceDelete = .ok (res, g')) :
    (dc.setGroup i g').Outdated lawful key bobMeta.timestamp.toNat ∧
      dc.Evolves lawful key bobMeta.timestamp.toNat (dc.setGroup i g') := by
  obtain ⟨-, outdated', erased⟩ := (outdated g (List.mem_of_getElem? stored)).delete steady deleted
  refine ⟨fun other member => ?_, .of_groups (.of_forall₂ (forall₂_set .refl stored ?_))⟩
  · rcases List.mem_or_eq_of_mem_set member with before | rfl
    · exact outdated other before
    · exact outdated'
  · exact ⟨Group.ident_delete deleted, fun _ => erased⟩

/-- A delete in the normal store erases the key from the group that serves it. -/
theorem delete_erases {res : Except (Error keySize) ℕ}
    (result : dc.delete op key bobMeta = .ok (res, dc')) :
    dc'.Outdated lawful key bobMeta.timestamp.toNat ∧
      dc.Evolves lawful key bobMeta.timestamp.toNat dc' ∧
      dc'.ErasedAt lawful key bobMeta.timestamp.toNat op := by
  unfold DiskController.delete at result
  split_ifs at result with ready
  · split at result
    · rename_i g i found
      obtain ⟨⟨answer, g'⟩, deleted, result⟩ := bind_eq_ok_iff.mp result
      cases result
      have stored := (firstMatch_eq_some_iff.mp found).1
      obtain ⟨outdated', evolves⟩ := setGroup_of_delete steady outdated stored deleted
      refine ⟨outdated', evolves, fun _ other j served => ?_⟩
      -- the same group is found again
      rcases evolves.groups.fresh_or_firstMatch (fun _ _ same => same.canProcessOperation_eq op)
        served with fresh | ⟨before, found', -⟩
      · exact fresh
      · cases found.symm.trans found'
        have here := (firstMatch_eq_some_iff.mp served).1
        rw [setGroup, List.getElem?_set_self (List.getElem?_eq_some_iff.mp stored).1] at here
        cases here
        exact ((outdated g (List.mem_of_getElem? stored)).delete steady deleted).2.2
    · rename_i missing
      cases result
      refine ⟨outdated, .refl _, fun _ g i found => ?_⟩
      cases missing.symm.trans found
  · cases result
    exact ⟨outdated, .refl _, fun ready' => absurd ready' ready⟩

end Delete

/-- The loop over the alien groups erases the key from each group that accepts the
request, and meets no error. -/
private theorem deleteAlienFrom_erases (steady : lawful.Steady)
    {groups groups' : List (Group engine)}
    (outdated : ∀ g ∈ groups, g.Outdated lawful key bobMeta.timestamp.toNat)
    {forceDelete : Bool} {done done' : AlienDelete keySize} (clean : done.processed = [])
    (result : deleteAlienFrom op key bobMeta forceDelete done groups = .ok (done', groups')) :
    done'.processed = [] ∧
      List.Forall₂ (fun g g' => g'.Outdated lawful key bobMeta.timestamp.toNat ∧
        g.Evolves lawful key bobMeta.timestamp.toNat g' ∧
        (g'.canProcessOperation op = true → g'.Erased lawful key bobMeta.timestamp.toNat))
        groups groups' := by
  induction groups generalizing done groups' with
  | nil =>
    cases result
    exact ⟨clean, .nil⟩
  | cons g rest ih =>
    have here := outdated g List.mem_cons_self
    have later := fun other member => outdated other (List.mem_cons_of_mem g member)
    rw [deleteAlienFrom] at result
    by_cases accepts : g.canProcessOperation op = true
    · have notDropped : ¬ done.dropped = true := by simp [AlienDelete.dropped, clean]
      simp only [if_pos accepts, if_neg notDropped] at result
      obtain ⟨⟨answer, g'⟩, deleted, result⟩ := bind_eq_ok_iff.mp result
      obtain ⟨⟨count, rfl⟩, outdated', erased⟩ := here.delete steady deleted
      obtain ⟨⟨done₁, rest'⟩, looped, result⟩ := bind_eq_ok_iff.mp result
      cases result
      obtain ⟨clean', related⟩ := @ih rest' later
        ⟨done.result + count, done.err, done.processed⟩ clean looped
      exact ⟨clean', .cons ⟨outdated', ⟨Group.ident_delete deleted, fun _ => erased⟩,
        fun _ => erased⟩ related⟩
    · rw [if_neg accepts] at result
      obtain ⟨⟨done₁, rest'⟩, looped, result⟩ := bind_eq_ok_iff.mp result
      cases result
      obtain ⟨clean', related⟩ := ih later clean looped
      exact ⟨clean', .cons ⟨here, .refl g, fun accepted => absurd accepted accepts⟩ related⟩

/-- A delete in the alien store erases the key from all groups of its node and vdisk. -/
theorem deleteAlien_erases (steady : lawful.Steady)
    (outdated : dc.Outdated lawful key bobMeta.timestamp.toNat) {makeDir : MakeDir}
    {vdiskId : VDiskId} {node : NodeName} {forceDelete : Bool} {res : Except (Error keySize) ℕ}
    (result : dc.deleteAlien makeDir ((Operation.newAlien vdiskId).setRemoteNodeName node) key
      bobMeta forceDelete = .ok (res, dc')) :
    dc'.Outdated lawful key bobMeta.timestamp.toNat ∧
      dc.Evolves lawful key bobMeta.timestamp.toNat dc' ∧
      dc'.ErasedFor lawful key bobMeta.timestamp.toNat vdiskId (· = node) := by
  unfold deleteAlien at result
  split_ifs at result with ready lonely
  · -- no group accepts the request, so a new one takes the marker
    have refused : ∀ g ∈ dc.groups,
        ¬ g.canProcessOperation ((Operation.newAlien vdiskId).setRemoteNodeName node) = true := by
      simpa [List.filter_eq_nil_iff] using (Bool.and_eq_true_iff.mp lonely).2
    obtain ⟨found, hfound, result⟩ := bind_eq_ok_iff.mp result
    split at result
    · rename_i g i dc₁
      obtain ⟨⟨answer, g'⟩, deleted, result⟩ := bind_eq_ok_iff.mp result
      rcases getOrCreatePearl_cases rfl hfound with ⟨there, -⟩ | ⟨-, new, rfl, rfl⟩
      · obtain ⟨here, accepts, -⟩ := firstMatch_eq_some_iff.mp there
        exact absurd accepts (refused g (List.mem_of_getElem? here))
      have empty : g.Outdated lawful key bobMeta.timestamp.toNat := by
        rw [new]
        exact ⟨rfl, by simp [Group.new], by simp [Group.new], by simp [Group.new]⟩
      obtain ⟨⟨count, rfl⟩, outdated', erased⟩ := empty.delete steady deleted
      cases result
      have placed : setGroup { dc with groups := dc.groups ++ [g] } dc.groups.length g' =
          { dc with groups := dc.groups ++ [g'] } := by
        simp [setGroup]
      rw [placed]
      refine ⟨fun other member => ?_, .of_groups (.append_singleton .refl erased),
        fun _ other member same picked => ?_⟩
      · rcases List.mem_append.mp member with before | last
        · exact outdated other before
        · rwa [List.mem_singleton.mp last]
      · rcases List.mem_append.mp member with before | last
        · exact absurd (canProcessOperation_alien_iff.mpr (Prod.ext picked same))
            (refused other before)
        · rwa [List.mem_singleton.mp last]
    · cases result
      refine ⟨outdated, .refl _, fun _ g member same picked => ?_⟩
      exact absurd (canProcessOperation_alien_iff.mpr (Prod.ext picked same)) (refused g member)
  · obtain ⟨⟨done, groups⟩, looped, result⟩ := bind_eq_ok_iff.mp result
    obtain ⟨clean, related⟩ := deleteAlienFrom_erases steady outdated rfl looped
    dsimp only at result
    rw [clean, List.foldl_nil] at result
    have spec : Outdated lawful key bobMeta.timestamp.toNat { dc with groups := groups } ∧
        dc.Evolves lawful key bobMeta.timestamp.toNat { dc with groups := groups } ∧
        ErasedFor lawful key bobMeta.timestamp.toNat vdiskId (· = node)
          { dc with groups := groups } := by
      refine ⟨fun g member => ?_, .of_groups (.of_forall₂ (related.imp fun _ _ all => all.2.1)),
        fun _ g member same picked => ?_⟩
      · obtain ⟨old, -, outdated', -⟩ := exists_mem_of_forall₂ related member
        exact outdated'
      · obtain ⟨old, -, -, -, erased⟩ := exists_mem_of_forall₂ related member
        exact erased (canProcessOperation_alien_iff.mpr (Prod.ext picked same))
    split at result
    · cases result
      exact spec
    · cases result
      exact spec
  · cases result
    exact ⟨outdated, .refl _, fun ready' => absurd ready' ready⟩

end DiskController

/-! ## The stores of a node -/

namespace Pearl

variable {lawful : engine.Lawful} {key : BobKey keySize} {timestamp : ℕ} {bobMeta : BobMeta}
  {p p' : Pearl engine} {op : Operation} {vdiskId : VDiskId} {picks : NodeName → Prop}

/-- The groups of all stores of the node. -/
def groups (p : Pearl engine) : List (Group engine) :=
  p.diskControllers.flatMap (·.groups) ++ p.alienDiskController.groups

theorem mem_groups_of_mem {dc : DiskController engine} {g : Group engine}
    (served : dc ∈ p.diskControllers) (member : g ∈ dc.groups) : g ∈ p.groups :=
  List.mem_append_left _ (List.mem_flatMap.mpr ⟨dc, served, member⟩)

def Outdated (lawful : engine.Lawful) (key : BobKey keySize) (timestamp : ℕ) (p : Pearl engine) :
    Prop :=
  ∀ g ∈ p.groups, g.Outdated lawful key timestamp

theorem outdated_iff : p.Outdated lawful key timestamp ↔
    (∀ dc ∈ p.diskControllers, dc.Outdated lawful key timestamp) ∧
      p.alienDiskController.Outdated lawful key timestamp := by
  simp only [Outdated, groups, DiskController.Outdated, List.mem_append, List.mem_flatMap,
    or_imp, forall_and, forall_exists_index, and_imp]
  refine and_congr_left' ⟨fun all dc served g => all g dc served, fun all g dc served => ?_⟩
  exact all dc served g

structure Evolves (lawful : engine.Lawful) (key : BobKey keySize) (timestamp : ℕ)
    (p p' : Pearl engine) : Prop where
  diskControllers : List.Forall₂ (DiskController.Evolves lawful key timestamp)
    p.diskControllers p'.diskControllers
  alien : p.alienDiskController.Evolves lawful key timestamp p'.alienDiskController

theorem Evolves.refl (p : Pearl engine) : p.Evolves lawful key timestamp p :=
  ⟨List.forall₂_same.mpr fun dc _ => .refl dc, .refl _⟩

instance : IsPreorder (Pearl engine) (Evolves lawful key timestamp) where
  refl := .refl
  trans := fun _ _ _ first second =>
    ⟨forall₂_trans (fun _ _ _ => .trans) first.diskControllers second.diskControllers,
      first.alien.trans second.alien⟩

/-- The group on a disk that serves an operation has the key erased. -/
def ErasedAt (lawful : engine.Lawful) (key : BobKey keySize) (timestamp : ℕ) (op : Operation)
    (p : Pearl engine) : Prop :=
  ∀ dc i, findController p.diskControllers op = some (dc, i) →
    dc.ErasedAt lawful key timestamp op

theorem stable_erasedAt :
    Stable (Evolves lawful key timestamp) (ErasedAt lawful key timestamp op) := by
  intro p p' evolves erased dc' i found
  rcases (Extended.of_forall₂ evolves.diskControllers : Extended _ (fun _ => False) _ _
    ).fresh_or_firstMatch (fun _ _ same => same.canProcessOperation_eq op) found with
    fresh | ⟨dc, found, same⟩
  · exact fresh.elim
  · exact (erased dc i found).of_evolves same

/-- The alien groups of a vdisk whose nodes are picked have the key erased. -/
def ErasedFor (lawful : engine.Lawful) (key : BobKey keySize) (timestamp : ℕ) (vdiskId : VDiskId)
    (picks : NodeName → Prop) (p : Pearl engine) : Prop :=
  p.alienDiskController.canProcessOperation (.newAlien vdiskId) = true →
    p.alienDiskController.ErasedFor lawful key timestamp vdiskId picks

theorem stable_erasedFor : Stable (Evolves lawful key timestamp)
    (ErasedFor lawful key timestamp vdiskId picks) := by
  intro p p' evolves erased accepts
  rw [evolves.alien.canProcessOperation_eq] at accepts
  exact (erased accepts).of_evolves evolves.alien

/-! ### Deleting -/

variable {makeDir : MakeDir} {mapper : Virtual}

theorem leads_delete (steady : lawful.Steady) (op : Operation) :
    Leads (Outdated lawful key bobMeta.timestamp.toNat)
      (Evolves lawful key bobMeta.timestamp.toNat)
      (ErasedAt lawful key bobMeta.timestamp.toNat op)
      ((storage makeDir : BackendStorage (StateT (Pearl engine) (Except Panic)) keySize).delete op
        key bobMeta) := by
  intro p res p' outdated result
  obtain ⟨disks, alien⟩ := outdated_iff.mp outdated
  change p.delete op key bobMeta = .ok (res, p') at result
  unfold delete at result
  split at result
  · rename_i dc i found
    obtain ⟨⟨answer, dc'⟩, deleted, result⟩ := bind_eq_ok_iff.mp result
    cases result
    have stored := (firstMatch_eq_some_iff.mp found).1
    obtain ⟨outdated', evolves, erased⟩ :=
      DiskController.delete_erases steady (disks dc (List.mem_of_getElem? stored)) deleted
    have evolves' : p.Evolves lawful key bobMeta.timestamp.toNat (p.setController i dc') :=
      ⟨forall₂_set .refl stored evolves, .refl _⟩
    refine ⟨outdated_iff.mpr ⟨fun other member => ?_, alien⟩, evolves', fun other j served => ?_⟩
    · rcases List.mem_or_eq_of_mem_set member with before | rfl
      · exact disks other before
      · exact outdated'
    · -- the same controller is found again
      rcases (Extended.of_forall₂ evolves'.diskControllers : Extended _ (fun _ => False) _ _
        ).fresh_or_firstMatch (fun _ _ same => same.canProcessOperation_eq op) served with
        fresh | ⟨before, found', -⟩
      · exact fresh.elim
      · cases found.symm.trans found'
        have here := (firstMatch_eq_some_iff.mp served).1
        rw [setController, List.getElem?_set_self (List.getElem?_eq_some_iff.mp stored).1] at here
        cases here
        exact erased
  · rename_i missing
    cases result
    refine ⟨outdated, .refl _, fun dc i found => ?_⟩
    cases missing.symm.trans found

theorem leads_deleteAlien (steady : lawful.Steady) (vdiskId : VDiskId) (node : NodeName)
    (forceDelete : Bool) :
    Leads (Outdated lawful key bobMeta.timestamp.toNat)
      (Evolves lawful key bobMeta.timestamp.toNat)
      (ErasedFor lawful key bobMeta.timestamp.toNat vdiskId (· = node))
      ((storage makeDir : BackendStorage (StateT (Pearl engine) (Except Panic)) keySize).deleteAlien
        ((Operation.newAlien vdiskId).setRemoteNodeName node) key bobMeta forceDelete) := by
  intro p res p' outdated result
  obtain ⟨disks, alien⟩ := outdated_iff.mp outdated
  change p.deleteAlien makeDir _ key bobMeta forceDelete = .ok (res, p') at result
  unfold deleteAlien at result
  split_ifs at result with accepts
  · obtain ⟨⟨answer, dc'⟩, deleted, result⟩ := bind_eq_ok_iff.mp result
    cases result
    obtain ⟨outdated', evolves, erased⟩ := DiskController.deleteAlien_erases steady alien deleted
    exact ⟨outdated_iff.mpr ⟨disks, outdated'⟩,
      ⟨List.forall₂_same.mpr fun dc _ => .refl dc, evolves⟩, fun _ => erased⟩
  · cases result
    -- an alien store that refuses deletes refuses reads as well
    exact ⟨outdated, .refl _, fun accepts' => absurd accepts' accepts⟩

/-- A delete of a target node erases the key on all its disks for the key. -/
theorem leads_delete_local (steady : lawful.Steady) {paths : Option (List DiskPath)}
    (route : mapper.getOperation key = .ok (vdiskId, paths)) :
    Leads (Outdated lawful key bobMeta.timestamp.toNat)
      (Evolves lawful key bobMeta.timestamp.toNat)
      (fun p : Pearl engine => ∀ path ∈ paths.getD [],
        p.ErasedAt lawful key bobMeta.timestamp.toNat (.newLocal vdiskId path))
      (Backend.delete (storage makeDir) mapper key bobMeta .newLocal) := by
  unfold Backend.delete
  rw [liftM_bind_eq route]
  cases paths with
  | none => exact (Leads.pure _).weaken fun _ _ _ absent => absurd absent List.not_mem_nil
  | some paths =>
    refine Leads.foldlM _ (fun result path _ => ?_) fun _ _ => stable_erasedAt
    exact (leads_delete steady _).bind_left (fun answer => by cases answer <;> exact .pure _)
      stable_erasedAt

/-- An alien delete erases the key from the groups of all its target nodes, whichever it
forces. -/
theorem leads_delete_alien (steady : lawful.Steady) {paths : Option (List DiskPath)}
    (route : mapper.getOperation key = .ok (vdiskId, paths)) {nodes : List Node}
    (targets : mapper.getTargetNodesForKey key = .ok nodes) (forced : List NodeName) :
    Leads (Outdated lawful key bobMeta.timestamp.toNat)
      (Evolves lawful key bobMeta.timestamp.toNat)
      (fun p : Pearl engine => ∀ node ∈ nodes,
        p.ErasedFor lawful key bobMeta.timestamp.toNat vdiskId (· = node.name))
      (Backend.delete (storage makeDir) mapper key bobMeta (.newAlien forced)) := by
  unfold Backend.delete
  rw [liftM_bind_eq route]
  have alien : (BobDeleteOptions.newAlien forced).isAlien = true := rfl
  dsimp only
  rw [if_pos alien, liftM_bind_eq targets]
  refine Leads.bind_left (Leads.foldlM _ (fun errors node _ => ?_) fun _ _ => stable_erasedFor)
    (fun errors => ?_) (Stable.forall_mem fun _ _ => stable_erasedFor)
  · exact (leads_deleteAlien steady vdiskId node.name _).bind_left
      (fun answer => by cases answer <;> exact .pure _) stable_erasedFor
  · split <;> exact .pure _

/-! ### Reading -/

/-- Every group of the node answers with its newest record. -/
def AnswersNewest (lawful : engine.Lawful) (key : BobKey keySize) (p : Pearl engine) : Prop :=
  ∀ g ∈ p.groups, g.AnswersNewest lawful key

section Hidden

variable (outdated : p.Outdated lawful key timestamp) (answers : p.AnswersNewest lawful key)
include outdated answers

/-- A disk from which the key is erased does not read it. -/
theorem reads_eq_none (erased : p.ErasedAt lawful key timestamp op) : p.reads op key = none := by
  unfold reads get
  split
  · rename_i dc i found
    have served := List.mem_of_getElem? (firstMatch_eq_some_iff.mp found).1
    dsimp only
    unfold DiskController.get
    split_ifs with ready
    · split
      · rename_i g j located
        have member := List.mem_of_getElem? (firstMatch_eq_some_iff.mp located).1
        have listed := mem_groups_of_mem served member
        exact (outdated g listed).reads_eq_none (erased dc i found ready g j located)
          (answers g listed)
      · rfl
    · rfl
  · rfl

/-- An alien store from which the key is erased has no values for it. -/
theorem alienValues_eq_nil
    (erased : p.ErasedFor lawful key timestamp vdiskId fun _ => True) :
    p.alienValues (.newAlien vdiskId) key = [] := by
  unfold alienValues DiskController.alienValues
  split_ifs with accepts ready
  · refine List.filterMap_eq_nil_iff.mpr fun g member => ?_
    obtain ⟨listed, picked⟩ := List.mem_filter.mp member
    have here : g ∈ p.groups := List.mem_append_right _ listed
    have same : g.vdiskId = vdiskId := of_decide_eq_true picked
    exact (outdated g here).reads_eq_none (erased accepts ready g listed same trivial)
      (answers g here)
  · rfl
  · rfl

end Hidden

end Pearl

end Bob.Backend

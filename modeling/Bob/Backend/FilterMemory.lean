/-
# The memory of the filters at a start

As the partitions of a node are opened, a hook adds up the memory of their filters. When
the sum passes a limit, it offloads the filters of the partitions that end first until the
sum is below the limit again or no partition is left.

The hook keeps the partitions in a set that compares them by their end only. Partitions of
different vdisks often end at the same time, and the set takes only one of them. The memory
of the others is counted, but they are never offloaded.
-/

import Mathlib.Algebra.Order.BigOperators.Group.List
import Mathlib.Algebra.Order.Group.Nat
import Mathlib.Data.List.Infix
import Mathlib.Data.List.Induction
import Mathlib.Data.List.Nodup
import Bob.Common.Checked
import Bob.Math.KeyedSet

namespace Bob.Backend

open Bob.Math

namespace FilterMemory

/-- A partition as the hook keeps it. -/
structure SimpleHolder where
  /-- The storage, by its address. -/
  storage : ℕ
  /-- The end of the partition. -/
  timestamp : ℕ
  deriving DecidableEq, Repr

/-- The hook. Sizes are of 64 bits. -/
structure Hooks where
  holders : KeyedSet SimpleHolder.timestamp
  allocatedSize : UInt64
  bloomFilterMemoryLimit : Option UInt64
  /-- What has been offloaded so far. -/
  offloaded : List SimpleHolder

section Model

-- the memory that the filters of a storage take until they are offloaded
variable (memory : ℕ → UInt64)

namespace Hooks

def new (limit : Option UInt64) : Hooks := ⟨.empty, 0, limit, []⟩

/-- Offload the filters of a partition, which frees all of their memory. -/
def offload (s : Hooks) (holder : SimpleHolder) : Hooks :=
  { s with
    allocatedSize := saturatingSub s.allocatedSize (memory holder.storage)
    holders := s.holders.remove holder
    offloaded := s.offloaded ++ [holder] }

/-- The loop of `storage_prepared`, for a number of turns. Each turn makes the set smaller. -/
def offloadLoop (limit : UInt64) : ℕ → Hooks → Hooks
  | 0, s => s
  | turns + 1, s =>
    if s.allocatedSize > limit then
      match s.holders.first with
      | some holder => offloadLoop limit turns (s.offload memory holder)
      | none => s
    else s

/-- A partition is added to the set and its memory to the sum, which may wrap. -/
def add (s : Hooks) (holder : SimpleHolder) : Hooks :=
  { s with
    holders := s.holders.insert holder
    allocatedSize := s.allocatedSize + memory holder.storage }

def storagePrepared (s : Hooks) (holder : SimpleHolder) : Hooks :=
  let s := s.add memory holder
  match s.bloomFilterMemoryLimit with
  | some limit => offloadLoop memory limit s.holders.elems.length s
  | none => s

/-- The hook after the storages of some partitions have been prepared. -/
def after (limit : Option UInt64) (prepared : List SimpleHolder) : Hooks :=
  prepared.foldl (storagePrepared memory) (.new limit)

end Hooks

/-- The total memory of the filters of some partitions. -/
def total (holders : List SimpleHolder) : ℕ := (holders.map fun h => (memory h.storage).toNat).sum

/-- The partitions that have not been offloaded. -/
def Hooks.remaining (s : Hooks) (prepared : List SimpleHolder) : List SimpleHolder :=
  prepared.filter fun h => h ∉ s.offloaded

/-- The partitions that cannot be offloaded any more, because the set does not have them. -/
def Hooks.lost (s : Hooks) (prepared : List SimpleHolder) : List SimpleHolder :=
  (s.remaining prepared).filter fun h => h ∉ s.holders.elems

/-- The set has a partition with the end of this one, and does not take it. -/
def Hooks.hasEnd (s : Hooks) (holder : SimpleHolder) : Bool :=
  s.holders.elems.any fun other => other.timestamp = holder.timestamp

/-- What is asked of the hook once some storages are prepared. -/
structure LimitKept (s : Hooks) (prepared : List SimpleHolder) : Prop where
  limit : ∀ limit, s.bloomFilterMemoryLimit = some limit →
    s.allocatedSize ≤ limit ∨ ∀ h ∈ prepared, h ∈ s.offloaded
  size : s.allocatedSize.toNat = total memory (s.remaining prepared)

/-- What the hook has room for before a call: the sum fits, and what cannot be offloaded is
within the limit, with this partition if it ends as one of the set. -/
structure Admits (s : Hooks) (prepared : List SimpleHolder) (holder : SimpleHolder) : Prop where
  fits : s.allocatedSize.toNat + (memory holder.storage).toNat < 2 ^ 64
  lost : ∀ limit, s.bloomFilterMemoryLimit = some limit →
    total memory (s.lost prepared) +
      (if s.hasEnd holder then (memory holder.storage).toNat else 0) ≤ limit.toNat

end Model

variable {memory : ℕ → UInt64} {s : Hooks} {h holder : SimpleHolder}
  {prepared : List SimpleHolder} {limit : UInt64}

theorem toNat_saturatingSub (a b : UInt64) : (saturatingSub a b).toNat = a.toNat - b.toNat := by
  unfold saturatingSub
  split_ifs with le
  · exact UInt64.toNat_sub_of_le _ _ le
  · rw [UInt64.le_iff_toNat_le] at le
    rw [Nat.sub_eq_zero_of_le (by omega)]
    rfl

/-! ## What is offloaded -/

/-- The partitions of the set have been prepared and not been offloaded. -/
structure Accounts (s : Hooks) (prepared : List SimpleHolder) : Prop where
  tracked : ∀ h ∈ s.holders.elems, h ∈ prepared ∧ h ∉ s.offloaded
  offloaded : ∀ h ∈ s.offloaded, h ∈ prepared

namespace Accounts

theorem new (limit : Option UInt64) : Accounts (.new limit) [] :=
  ⟨fun _ member => (nomatch member), fun _ member => (nomatch member)⟩

theorem add (accounts : Accounts s prepared) (fresh : h ∉ prepared) :
    Accounts (s.add memory h) (prepared ++ [h]) where
  tracked other member := by
    rw [List.mem_append, List.mem_singleton]
    rcases KeyedSet.mem_insert_iff.mp member with old | ⟨rfl, -⟩
    · exact ⟨.inl (accounts.tracked other old).1, (accounts.tracked other old).2⟩
    · exact ⟨.inr rfl, fun gone => fresh (accounts.offloaded _ gone)⟩
  offloaded other gone := List.mem_append_left _ (accounts.offloaded other gone)

theorem offload (accounts : Accounts s prepared) (first : s.holders.first = some holder) :
    Accounts (s.offload memory holder) prepared where
  tracked other member := by
    obtain ⟨old, otherKey⟩ := List.mem_filter.mp member
    obtain ⟨known, kept⟩ := accounts.tracked other old
    refine ⟨known, fun gone => ?_⟩
    rcases List.mem_append.mp gone with before | now
    · exact kept before
    · -- the one that is removed now is not in the set any more
      rw [List.mem_singleton.mp now] at otherKey
      simp at otherKey
  offloaded other gone := by
    rcases List.mem_append.mp gone with before | now
    · exact accounts.offloaded other before
    · rw [List.mem_singleton.mp now]
      exact (accounts.tracked holder (KeyedSet.mem_of_first first)).1

/-- Offloading a partition takes its memory out of the total. -/
theorem total_offload (memory : ℕ → UInt64) (accounts : Accounts s prepared)
    (distinct : prepared.Nodup) (first : s.holders.first = some holder) :
    total memory (s.remaining prepared) = (memory holder.storage).toNat +
      total memory ((s.offload memory holder).remaining prepared) := by
  obtain ⟨known, kept⟩ := accounts.tracked holder (KeyedSet.mem_of_first first)
  have remains : holder ∈ s.remaining prepared :=
    List.mem_filter.mpr ⟨known, decide_eq_true kept⟩
  have erased : (s.offload memory holder).remaining prepared =
      (s.remaining prepared).erase holder := by
    have once : (s.remaining prepared).Nodup := List.Nodup.filter _ distinct
    rw [once.erase_eq_filter, Hooks.remaining, Hooks.remaining, List.filter_filter]
    refine List.filter_congr fun other _ => ?_
    rw [Bool.eq_iff_iff]
    simp [Hooks.offload, and_comm]
  rw [erased]
  exact (List.sum_map_erase _ remains).symm

/-- A partition that is added brings its memory. -/
theorem total_add (memory : ℕ → UInt64) (accounts : Accounts s prepared) (fresh : h ∉ prepared) :
    total memory ((s.add memory h).remaining (prepared ++ [h])) =
      total memory (s.remaining prepared) + (memory h.storage).toNat := by
  have kept : h ∉ (s.add memory h).offloaded := fun gone => fresh (accounts.offloaded h gone)
  have appended : (s.add memory h).remaining (prepared ++ [h]) = s.remaining prepared ++ [h] := by
    rw [Hooks.remaining, List.filter_append, List.filter_cons, if_pos (decide_eq_true kept)]
    rfl
  simp [appended, total]

end Accounts

/-! ## The loop -/

/-- What every turn keeps holds when the loop ends. -/
theorem offloadLoop_keeps (inv : Hooks → Prop)
    (turn : ∀ s holder, inv s → limit < s.allocatedSize → s.holders.first = some holder →
      inv (s.offload memory holder)) (turns : ℕ) (start : inv s) :
    inv (s.offloadLoop memory limit turns) := by
  induction turns generalizing s with
  | zero => exact start
  | succ turns ih =>
    unfold Hooks.offloadLoop
    split_ifs with exceeds
    · split
      · rename_i holder first
        exact ih (turn s holder start exceeds first)
      · exact start
    · exact start

/-- With a turn for each partition of the set, the loop ends below the limit or with an
empty set. -/
theorem offloadLoop_ends (turns : ℕ) (enough : s.holders.elems.length ≤ turns) :
    (s.offloadLoop memory limit turns).allocatedSize ≤ limit ∨
      (s.offloadLoop memory limit turns).holders.elems = [] := by
  induction turns generalizing s with
  | zero => exact .inr (List.eq_nil_of_length_eq_zero (Nat.le_zero.mp enough))
  | succ turns ih =>
    unfold Hooks.offloadLoop
    split_ifs with exceeds
    · split
      · rename_i holder first
        refine ih ?_
        rw [KeyedSet.elems_of_first first, List.length_cons] at enough
        exact Nat.le_of_succ_le_succ enough
      · rename_i none
        exact .inr (KeyedSet.first_eq_none_iff.mp none)
    · exact .inl (UInt64.not_lt.mp exceeds)

/-- The sum is the memory of what has not been offloaded. -/
def Balanced (memory : ℕ → UInt64) (s : Hooks) (prepared : List SimpleHolder) : Prop :=
  s.allocatedSize.toNat = total memory (s.remaining prepared)

/-- The sum has wrapped. It is too small, and stays so. -/
def Wrapped (memory : ℕ → UInt64) (s : Hooks) (prepared : List SimpleHolder) : Prop :=
  total memory (s.remaining prepared) = s.allocatedSize.toNat + 2 ^ 64 ∨
    s.allocatedSize.toNat = 0 ∧ 0 < total memory (s.remaining prepared)

theorem Wrapped.not_balanced (wrapped : Wrapped memory s prepared) :
    ¬ Balanced memory s prepared := by
  unfold Balanced
  rcases wrapped with wrapped | wrapped <;> omega

theorem Balanced.offload (balanced : Balanced memory s prepared)
    (accounts : Accounts s prepared) (distinct : prepared.Nodup)
    (first : s.holders.first = some holder) :
    Balanced memory (s.offload memory holder) prepared := by
  have split := accounts.total_offload memory distinct first
  have sum : (s.offload memory holder).allocatedSize.toNat =
      s.allocatedSize.toNat - (memory holder.storage).toNat := toNat_saturatingSub _ _
  unfold Balanced at balanced ⊢
  omega

theorem Wrapped.offload (wrapped : Wrapped memory s prepared) (exceeds : limit < s.allocatedSize)
    (accounts : Accounts s prepared) (distinct : prepared.Nodup)
    (first : s.holders.first = some holder) :
    Wrapped memory (s.offload memory holder) prepared := by
  have split := accounts.total_offload memory distinct first
  have sum : (s.offload memory holder).allocatedSize.toNat =
      s.allocatedSize.toNat - (memory holder.storage).toNat := toNat_saturatingSub _ _
  have small := (memory holder.storage).toNat_lt
  have positive := UInt64.lt_iff_toNat_lt.mp exceeds
  unfold Wrapped at wrapped ⊢
  omega

/-! ## One call -/

/-- What adding the partition establishes and every turn keeps holds after the call. -/
theorem storagePrepared_keeps (inv : Hooks → Prop) (start : inv (s.add memory h))
    (turn : ∀ limit s holder, inv s → limit < s.allocatedSize → s.holders.first = some holder →
      inv (s.offload memory holder)) :
    inv (s.storagePrepared memory h) := by
  unfold Hooks.storagePrepared
  dsimp only
  split
  · exact offloadLoop_keeps inv (turn _) _ start
  · exact start

theorem limit_storagePrepared :
    (s.storagePrepared memory h).bloomFilterMemoryLimit = s.bloomFilterMemoryLimit :=
  storagePrepared_keeps (fun t => t.bloomFilterMemoryLimit = s.bloomFilterMemoryLimit) rfl
    fun _ _ _ same _ _ => same

/-- A call ends below the limit or with an empty set. -/
theorem storagePrepared_ends (limited : s.bloomFilterMemoryLimit = some limit) :
    (s.storagePrepared memory h).allocatedSize ≤ limit ∨
      (s.storagePrepared memory h).holders.elems = [] := by
  have limited : (s.add memory h).bloomFilterMemoryLimit = some limit := limited
  unfold Hooks.storagePrepared
  dsimp only
  rw [limited]
  exact offloadLoop_ends _ (le_refl _)

theorem fresh_of_nodup (distinct : (prepared ++ [h]).Nodup) : h ∉ prepared := by
  rw [List.nodup_append] at distinct
  exact fun member => distinct.2.2 h member h List.mem_cons_self rfl

theorem lost_eq_filter (s : Hooks) (prepared : List SimpleHolder) :
    s.lost prepared = prepared.filter fun h => h ∉ s.holders.elems ∧ h ∉ s.offloaded := by
  simp only [Hooks.lost, Hooks.remaining, List.filter_filter, Bool.decide_and]

/-- What is lost is lost for good, and no turn of the loop adds to it. -/
theorem lost_offload (first : s.holders.first = some holder) :
    (s.offload memory holder).lost prepared = s.lost prepared := by
  have split := KeyedSet.elems_of_first first
  rw [lost_eq_filter, lost_eq_filter]
  refine List.filter_congr fun other _ => decide_eq_decide.mpr ?_
  have gone : other ∈ (s.offload memory holder).offloaded ↔
      other ∈ s.offloaded ∨ other = holder := by
    simp [Hooks.offload]
  rw [split, List.mem_cons, gone]
  change (other ∉ (s.holders.remove holder).elems ∧ _) ↔ _
  tauto

/-- A partition that is added is lost at once if the set does not take it. -/
theorem lost_add (accounts : Accounts s prepared) (fresh : h ∉ prepared) :
    (s.add memory h).lost (prepared ++ [h]) =
      s.lost prepared ++ if s.hasEnd h then [h] else [] := by
  have kept : h ∉ (s.add memory h).offloaded := fun gone => fresh (accounts.offloaded h gone)
  have untracked : h ∉ s.holders.elems := fun member => fresh (accounts.tracked h member).1
  have tracked {other : SimpleHolder} : other ∈ (s.add memory h).holders.elems ↔
      other ∈ s.holders.elems ∨ other = h ∧ s.hasEnd h = false := by
    simp [Hooks.add, KeyedSet.mem_insert_iff, Hooks.hasEnd]
  rw [lost_eq_filter, lost_eq_filter, List.filter_append, List.filter_singleton]
  congr 1
  · refine List.filter_congr fun other member => decide_eq_decide.mpr ?_
    have different : other ≠ h := fun same => fresh (same ▸ member)
    rw [tracked]
    simp [different, Hooks.add]
  · have lost : (h ∉ (s.add memory h).holders.elems ∧ h ∉ (s.add memory h).offloaded) ↔
        s.hasEnd h = true := by
      rw [tracked]
      simp [untracked, kept]
    simp only [lost, Bool.decide_eq_true]
    cases s.hasEnd h <;> rfl

theorem total_lost_storagePrepared (accounts : Accounts s prepared) (fresh : h ∉ prepared) :
    total memory ((s.storagePrepared memory h).lost (prepared ++ [h])) =
      total memory (s.lost prepared) +
        if s.hasEnd h then (memory h.storage).toNat else 0 := by
  have same : (s.storagePrepared memory h).lost (prepared ++ [h]) =
      (s.add memory h).lost (prepared ++ [h]) :=
    storagePrepared_keeps (fun t => t.lost (prepared ++ [h]) = _) rfl
      fun _ _ _ same _ first => (lost_offload first).trans same
  rw [same, lost_add accounts fresh, total, List.map_append, List.sum_append]
  split_ifs <;> simp [total]

theorem Accounts.storagePrepared (accounts : Accounts s prepared)
    (distinct : (prepared ++ [h]).Nodup) :
    Accounts (s.storagePrepared memory h) (prepared ++ [h]) :=
  storagePrepared_keeps (Accounts · (prepared ++ [h])) (accounts.add (fresh_of_nodup distinct))
    fun _ _ _ accounts _ first => accounts.offload first

/-- After a call the sum is right if it has not wrapped. -/
theorem balanced_storagePrepared_iff (accounts : Accounts s prepared)
    (distinct : (prepared ++ [h]).Nodup) (balanced : Balanced memory s prepared) :
    Balanced memory (s.storagePrepared memory h) (prepared ++ [h]) ↔
      s.allocatedSize.toNat + (memory h.storage).toNat < 2 ^ 64 := by
  have fresh := fresh_of_nodup distinct
  have added := accounts.total_add memory fresh
  have sum : (s.add memory h).allocatedSize.toNat =
      (s.allocatedSize.toNat + (memory h.storage).toNat) % 2 ^ 64 := UInt64.toNat_add _ _
  have small := (memory h.storage).toNat_lt
  have smaller := s.allocatedSize.toNat_lt
  unfold Balanced at balanced
  constructor
  · intro right
    by_contra wraps
    have wrapped : Wrapped memory (s.add memory h) (prepared ++ [h]) := by
      refine .inl ?_
      omega
    have after := storagePrepared_keeps
      (fun t => Accounts t (prepared ++ [h]) ∧ Wrapped memory t (prepared ++ [h]))
      ⟨accounts.add fresh, wrapped⟩ fun _ _ _ inv exceeds first =>
        ⟨inv.1.offload first, inv.2.offload exceeds inv.1 distinct first⟩
    exact after.2.not_balanced right
  · intro fits
    have start : Balanced memory (s.add memory h) (prepared ++ [h]) := by
      unfold Balanced
      omega
    have after := storagePrepared_keeps
      (fun t => Accounts t (prepared ++ [h]) ∧ Balanced memory t (prepared ++ [h]))
      ⟨accounts.add fresh, start⟩ fun _ _ _ inv _ first =>
        ⟨inv.1.offload first, inv.2.offload inv.1 distinct first⟩
    exact after.2

theorem total_filter_le {p : SimpleHolder → Bool} {holders : List SimpleHolder} :
    total memory (holders.filter p) ≤ total memory holders :=
  (List.filter_sublist.map _).sum_le_sum fun _ _ => Nat.zero_le _

/-- Where the sum is right, the limit is kept just when what cannot be offloaded is within
it. -/
theorem limitKept_iff (balanced : Balanced memory s prepared)
    (ends : ∀ limit, s.bloomFilterMemoryLimit = some limit →
      s.allocatedSize ≤ limit ∨ s.holders.elems = []) :
    LimitKept memory s prepared ↔ ∀ limit, s.bloomFilterMemoryLimit = some limit →
      total memory (s.lost prepared) ≤ limit.toNat := by
  constructor
  · intro kept limit limited
    rcases kept.limit limit limited with within | all
    · calc total memory (s.lost prepared)
          ≤ total memory (s.remaining prepared) := total_filter_le
        _ = s.allocatedSize.toNat := balanced.symm
        _ ≤ limit.toNat := UInt64.le_iff_toNat_le.mp within
    · -- nothing remains that could be lost
      have none : s.lost prepared = [] := by
        refine List.filter_eq_nil_iff.mpr fun h member => ?_
        obtain ⟨known, kept⟩ := List.mem_filter.mp member
        exact absurd (all h known) (of_decide_eq_true kept)
      rw [none]
      exact Nat.zero_le _
  · intro within
    refine ⟨fun limit limited => ?_, balanced⟩
    rcases ends limit limited with below | empty
    · exact .inl below
    · -- what remains is lost
      have all : s.lost prepared = s.remaining prepared := by
        refine List.filter_eq_self.mpr fun h _ => ?_
        simp [empty]
      have bound := within limit limited
      rw [all, ← balanced] at bound
      exact .inl (UInt64.le_iff_toNat_le.mpr bound)

/-- The limit is kept by a call exactly if the hook has room for the partition. -/
theorem limitKept_storagePrepared_iff (accounts : Accounts s prepared)
    (distinct : (prepared ++ [h]).Nodup) (balanced : Balanced memory s prepared) :
    LimitKept memory (s.storagePrepared memory h) (prepared ++ [h]) ↔
      Admits memory s prepared h := by
  have sum := balanced_storagePrepared_iff accounts distinct balanced
  have limits (right : Balanced memory (s.storagePrepared memory h) (prepared ++ [h])) :=
    limitKept_iff right fun limit limited =>
      storagePrepared_ends (limit_storagePrepared.symm.trans limited)
  simp only [limit_storagePrepared,
    total_lost_storagePrepared accounts (fresh_of_nodup distinct)] at limits
  constructor
  · intro kept
    exact ⟨sum.mp kept.size, (limits kept.size).mp kept⟩
  · rintro ⟨fits, lost⟩
    exact (limits (sum.mpr fits)).mpr lost

/-! ## All calls -/

/-- The hook after the calls so far. -/
theorem after_concat (limit : Option UInt64) :
    Hooks.after memory limit (prepared ++ [h]) =
      (Hooks.after memory limit prepared).storagePrepared memory h := by
  simp [Hooks.after]

theorem accounts_after (limit : Option UInt64) (distinct : prepared.Nodup) :
    Accounts (Hooks.after memory limit prepared) prepared := by
  induction prepared using List.reverseRecOn with
  | nil => exact .new limit
  | append_singleton prepared h ih =>
    rw [after_concat]
    exact (ih (List.Nodup.of_append_left distinct)).storagePrepared distinct

/-- For distinct partitions, the limit is kept after every call exactly if the hook had room for
each of them before. -/
theorem limit_kept_iff (memory : ℕ → UInt64) (limit : Option UInt64)
    (prepared : List SimpleHolder) (distinct : (prepared.map (·.storage)).Nodup) :
    (∀ before, before <+: prepared →
      LimitKept memory (Hooks.after memory limit before) before) ↔
      ∀ before h, before ++ [h] <+: prepared →
        Admits memory (Hooks.after memory limit before) before h := by
  have distinct : prepared.Nodup := .of_map _ distinct
  clear * - distinct
  induction prepared using List.reverseRecOn with
  | nil =>
    refine iff_of_true (fun before early => ?_) (fun before h early => ?_)
    · cases List.prefix_nil.mp early
      exact ⟨fun _ _ => .inr nofun, rfl⟩
    · simp at early
  | append_singleton prepared h ih =>
    have ih := ih (List.Nodup.of_append_left distinct)
    have split : (∀ before, before <+: prepared ++ [h] →
        LimitKept memory (Hooks.after memory limit before) before) ↔
        (∀ before, before <+: prepared →
          LimitKept memory (Hooks.after memory limit before) before) ∧
        LimitKept memory (Hooks.after memory limit (prepared ++ [h])) (prepared ++ [h]) := by
      simp only [List.prefix_concat_iff, or_imp, forall_and, forall_eq, and_comm]
    have calls : (∀ before other, before ++ [other] <+: prepared ++ [h] →
        Admits memory (Hooks.after memory limit before) before other) ↔
        (∀ before other, before ++ [other] <+: prepared →
          Admits memory (Hooks.after memory limit before) before other) ∧
        Admits memory (Hooks.after memory limit prepared) prepared h := by
      simp only [List.prefix_concat_iff, or_imp, forall_and, and_comm, List.append_singleton_inj,
        and_imp, forall_eq]
    rw [split, calls]
    -- if the calls before have kept the limit, it is up to the last one
    refine Iff.trans (and_congr_right fun kept => ?_) (and_congr_left' ih)
    rw [after_concat]
    exact limitKept_storagePrepared_iff (accounts_after limit (.of_append_left distinct)) distinct
      (kept _ (List.prefix_refl _)).size

/-! A small filter and a large one, and a limit between their sizes. -/

def smallAndLarge : ℕ → UInt64
  | 0 => 1
  | _ => 100

/-- The partitions end at different times, and both are offloaded. -/
theorem different_ends_keep_the_limit :
    LimitKept smallAndLarge (Hooks.after smallAndLarge (some 50) [⟨0, 86400⟩, ⟨1, 172800⟩])
      [⟨0, 86400⟩, ⟨1, 172800⟩] := by
  refine (limit_kept_iff smallAndLarge (some 50) [⟨0, 86400⟩, ⟨1, 172800⟩] (by decide)).mpr
    ?_ _ (List.prefix_refl _)
  intro before h early
  obtain ⟨rfl, rfl⟩ | ⟨rfl, rfl⟩ : before = [] ∧ h = ⟨0, 86400⟩ ∨
      before = [⟨0, 86400⟩] ∧ h = ⟨1, 172800⟩ := by
    rcases before with _ | ⟨first, _ | ⟨second, rest⟩⟩ <;> simp_all
  all_goals exact ⟨by decide, fun l limited => by cases limited; decide⟩

/-- The partitions end at one time. The set has the small filter only, and when it is
offloaded the large one is left. -/
theorem equal_ends_pass_the_limit :
    ∃ s, Hooks.after smallAndLarge (some 50) [⟨0, 86400⟩, ⟨1, 86400⟩] = s ∧
      s.allocatedSize = 100 ∧ s.holders.elems = [] ∧ s.offloaded = [⟨0, 86400⟩] ∧
      ¬ LimitKept smallAndLarge s [⟨0, 86400⟩, ⟨1, 86400⟩] := by
  refine ⟨_, rfl, rfl, rfl, rfl, fun kept => ?_⟩
  rcases kept.limit 50 rfl with within | all
  · exact absurd within (by decide)
  · exact absurd (all ⟨1, 86400⟩ (by decide)) (by decide)

end FilterMemory

end Bob.Backend

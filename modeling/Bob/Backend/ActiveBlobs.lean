/-
# Closing active blobs

A cleaner closes the active blobs of partitions that are past and have not been written to
for a while, as far as a group has too many of them. Up to a hard limit it closes any of
them, and up to a soft limit only those that are not small.

It lists the blobs with the small ones last and takes from the end. So the small ones are
closed first. As long as one of them is left, the loop for the soft limit stops at once and
the large ones stay open.
-/

import Mathlib.Data.List.Sort
import Mathlib.Data.List.Nodup
import Bob.Math.PopWhile
import Bob.Math.Sequencing
import Bob.Common.Checked

namespace Bob.Backend

open Bob.Math

namespace ActiveBlobs

/-! ## Partitions -/

/-- A storage, with the number of records in its active blob. -/
structure Storage where
  activeBlob : Option ℕ
  deriving DecidableEq, Repr

structure Holder where
  endTimestamp : ℕ
  lastModification : ℕ
  maxDataInBlob : ℕ
  /-- The storage, unless it is starting. -/
  storage : Option Storage
  deriving DecidableEq, Repr

def maxTimeSinceLastWriteSec : ℕ := 10

def smallRecordsCountMul : ℕ := 10

namespace Holder

def hasActiveBlob (holder : Holder) : Bool := holder.storage.any fun storage =>
  storage.activeBlob.isSome

def isOutdated (holder : Holder) (now : ℕ) : Bool := now > holder.endTimestamp

/-- The clock may be behind the last modification, and then the difference overflows. -/
def noModificationsRecently (holder : Holder) (now : ℕ) : Except Panic Bool := do
  let elapsed ← checkedSub now holder.lastModification
  return elapsed > maxTimeSinceLastWriteSec

def activeBlobIsSmall (holder : Holder) : Option Bool :=
  holder.storage.bind fun storage => storage.activeBlob.map fun count =>
    count * smallRecordsCountMul % 2 ^ 64 < holder.maxDataInBlob

def closeActiveBlob (holder : Holder) : Holder :=
  { holder with storage := holder.storage.map fun _ => ⟨none⟩ }

end Holder

/-! ## The call -/

/-- A partition, and its position in the group. -/
abbrev Ref := Holder × ℕ

/-- What the first loop has found so far. -/
structure Scan where
  totalOpenBlobs : ℕ
  close : List Ref

def scanStep (now : ℕ) (scan : Scan) (ref : Ref) : Except Panic Scan := do
  if ref.1.hasActiveBlob then
    let scan := { scan with totalOpenBlobs := scan.totalOpenBlobs + 1 }
    if ref.1.isOutdated now then
      if ← ref.1.noModificationsRecently now then
        return { scan with close := scan.close ++ [ref] }
      else return scan
    else return scan
  else return scan

/-- The order of `sort_by_priority`. An entry has its position in the list of flags. -/
def priority (isSmall : List Bool) (x y : Ref × ℕ) : Ordering :=
  match isSmall.getD x.2 false, isSmall.getD y.2 false with
  | true, false => .gt
  | false, true => .lt
  | _, _ => compare x.1.1.endTimestamp y.1.1.endTimestamp

/-- An entry does not come behind another one. -/
def NotBehind (isSmall : List Bool) (x y : Ref × ℕ) : Prop := priority isSmall x y ≠ .gt

instance (isSmall : List Bool) : DecidableRel (NotBehind isSmall) :=
  fun _ _ => inferInstanceAs (Decidable (_ ≠ _))

def sortByPriority (close : List (Ref × ℕ)) (isSmall : List Bool) : List (Ref × ℕ) :=
  close.insertionSort (NotBehind isSmall)

def closeAt (holders : List Holder) (positions : List ℕ) : List Holder :=
  holders.zipIdx.map fun ref => if ref.2 ∈ positions then ref.1.closeActiveBlob else ref.1

/-- The loops for the two limits. They pop from the end of the vector, so it is turned round
here. Returns the entries that are closed. -/
def closeLoops (isSmall : List Bool) (soft hard : ℕ) (close : List (Ref × ℕ)) :
    List (Ref × ℕ) × List (Ref × ℕ) :=
  let (byHard, close) := popWhile (fun close => hard < close.length) close.reverse
  let (bySoft, close) := popWhile (fun close => soft < close.length &&
    close.head?.any fun entry => !isSmall.getD entry.2 false) close
  (byHard ++ bySoft, close)

def closeUnneededActiveBlobs (holders : List Holder) (now soft hard : ℕ) :
    Except Panic (List Holder) := do
  let scan ← holders.zipIdx.foldlM (scanStep now) ⟨0, []⟩
  let others ← checkedSub scan.totalOpenBlobs scan.close.length
  let isSmall := scan.close.map fun ref => ref.1.activeBlobIsSmall.getD false
  let close := sortByPriority scan.close.zipIdx isSmall
  let (closed, _) := closeLoops isSmall (soft - others) (hard - others) close
  return closeAt holders (closed.map fun entry => entry.1.2)

/-! ## What is asked of the call -/

/-- The partition has an active blob that may be closed. -/
def Closable (now : ℕ) (holder : Holder) : Bool :=
  holder.hasActiveBlob && holder.isOutdated now &&
    decide (holder.lastModification + maxTimeSinceLastWriteSec < now)

/-- The number of active blobs that may not be closed. -/
def others (now : ℕ) (holders : List Holder) : ℕ :=
  holders.countP fun holder => holder.hasActiveBlob && !Closable now holder

/-- The call returns, closes closable blobs only, keeps to the hard limit, and above the soft
limit leaves small blobs only. -/
def KeepsLimits (holders : List Holder) (now soft hard : ℕ) : Prop :=
  ∃ after, closeUnneededActiveBlobs holders now soft hard = .ok after ∧
    List.Forall₂ (fun old new => new = old ∨ Closable now old = true ∧ new = old.closeActiveBlob)
      holders after ∧
    (after.filter (Closable now)).length ≤ hard - others now holders ∧
    (soft - others now holders < (after.filter (Closable now)).length →
      ∀ holder ∈ after.filter (Closable now), holder.activeBlobIsSmall = some true)

/-! ## The first loop -/

/-- Of the past partitions with an active blob, none was modified after the clock. -/
def Timely (now : ℕ) (holder : Holder) : Prop :=
  holder.hasActiveBlob = true → holder.isOutdated now = true → holder.lastModification ≤ now

section Scan

variable {now : ℕ} {scan : Scan} {refs : List Ref} {holder : Holder}

theorem noModificationsRecently_eq_ok_iff {recent : Bool} :
    holder.noModificationsRecently now = .ok recent ↔
      holder.lastModification ≤ now ∧
        recent = decide (holder.lastModification + maxTimeSinceLastWriteSec < now) := by
  simp only [Holder.noModificationsRecently, bind_eq_ok_iff, checkedSub_eq_ok_iff]
  constructor
  · rintro ⟨_, ⟨le, rfl⟩, answer⟩
    refine ⟨le, (Except.ok.inj answer).symm.trans (decide_eq_decide.mpr ?_)⟩
    omega
  · rintro ⟨le, rfl⟩
    refine ⟨_, ⟨le, rfl⟩, congrArg Except.ok (decide_eq_decide.mpr ?_)⟩
    omega

/-- What one turn of the loop adds, if it does not overflow. -/
def Scan.next (now : ℕ) (scan : Scan) (ref : Ref) : Scan where
  totalOpenBlobs := scan.totalOpenBlobs + if ref.1.hasActiveBlob then 1 else 0
  close := scan.close ++ if Closable now ref.1 then [ref] else []

theorem scanStep_eq_ok_iff (scan : Scan) (ref : Ref) (result : Scan) :
    scanStep now scan ref = .ok result ↔ Timely now ref.1 ∧ scan.next now ref = result := by
  obtain ⟨total, close⟩ := scan
  unfold scanStep Timely Scan.next Closable
  cases ref.1.hasActiveBlob with
  | false => simp [pure, Except.pure]
  | true =>
    cases ref.1.isOutdated now with
    | false => simp [pure, Except.pure]
    | true =>
      simp only [if_true, bind_eq_ok_iff, noModificationsRecently_eq_ok_iff, Bool.true_and,
        true_implies]
      constructor
      · rintro ⟨_, ⟨le, rfl⟩, done⟩
        refine ⟨le, ?_⟩
        split_ifs at done ⊢ <;> simpa [pure, Except.pure] using done
      · rintro ⟨le, rfl⟩
        refine ⟨_, ⟨le, rfl⟩, ?_⟩
        split_ifs <;> simp [pure, Except.pure]

/-- The loop counts the active blobs and keeps those that may be closed. -/
theorem foldl_next : refs.foldl (Scan.next now) scan =
    ⟨scan.totalOpenBlobs + refs.countP (·.1.hasActiveBlob),
      scan.close ++ refs.filter (Closable now ·.1)⟩ := by
  induction refs generalizing scan with
  | nil => simp
  | cons ref refs ih =>
    rw [List.foldl_cons, ih, List.countP_cons, List.filter_cons, Scan.next]
    dsimp only
    rw [Nat.add_assoc, Nat.add_comm (if ref.1.hasActiveBlob then 1 else 0), List.append_assoc]
    split_ifs <;> rfl

end Scan

/-! ## The order -/

/-- The active blob is small, as the flags say. -/
def small (ref : Ref) : Bool := ref.1.activeBlobIsSmall.getD false

section Order

variable {isSmall : List Bool} {x y z : Ref × ℕ} {refs : List Ref}

theorem notBehind_iff : NotBehind isSmall x y ↔
    (isSmall.getD x.2 false = true → isSmall.getD y.2 false = true) ∧
      (isSmall.getD x.2 false = isSmall.getD y.2 false →
        x.1.1.endTimestamp ≤ y.1.1.endTimestamp) := by
  unfold NotBehind priority
  cases isSmall.getD x.2 false <;> cases isSmall.getD y.2 false <;> simp [compare_le_iff_le]

theorem notBehind_total : NotBehind isSmall x y ∨ NotBehind isSmall y x := by
  rw [notBehind_iff, notBehind_iff]
  grind

theorem notBehind_trans (first : NotBehind isSmall x y) (second : NotBehind isSmall y z) :
    NotBehind isSmall x z := by
  rw [notBehind_iff] at first second ⊢
  generalize isSmall.getD x.2 false = smallX at first ⊢
  generalize isSmall.getD y.2 false = smallY at first second
  generalize isSmall.getD z.2 false = smallZ at second ⊢
  refine ⟨second.1 ∘ first.1, fun same => ?_⟩
  -- if the outer flags agree, the one between them does too
  have sameX : smallX = smallY := by
    cases smallX <;> cases smallY <;> simp_all
  exact (first.2 sameX).trans (second.2 (sameX.symm.trans same))

theorem sortByPriority_perm (close : List (Ref × ℕ)) (isSmall : List Bool) :
    (sortByPriority close isSmall).Perm close := List.perm_insertionSort _ _

theorem pairwise_sortByPriority (close : List (Ref × ℕ)) (isSmall : List Bool) :
    (sortByPriority close isSmall).Pairwise (NotBehind isSmall) := by
  have : Std.Total (NotBehind isSmall) := ⟨fun _ _ => notBehind_total⟩
  have : IsTrans _ (NotBehind isSmall) := ⟨fun _ _ _ => notBehind_trans⟩
  exact List.pairwise_insertionSort (NotBehind isSmall) close

/-- The flag of an entry is that of its blob. -/
theorem getD_small {entry : Ref × ℕ} (member : entry ∈ refs.zipIdx) :
    (refs.map small).getD entry.2 false = small entry.1 := by
  have found := List.mem_zipIdx_iff_getElem?.mp member
  rw [List.getD_eq_getElem?_getD, List.getElem?_map, found]
  rfl

end Order

/-! ## The loops for the limits -/

section Loops

variable {p : Ref × ℕ → Bool} {l : List (Ref × ℕ)} {soft hard : ℕ}

/-- If the first entry is not one with `p`, none is. -/
theorem not_of_head {x : Ref × ℕ} (first : (x :: l).Pairwise fun x y => p y = true → p x = true)
    (px : p x = false) : ∀ y ∈ x :: l, (!p y) = true := by
  intro y member
  rw [Bool.not_eq_true']
  rcases List.mem_cons.mp member with rfl | later
  · exact px
  · refine Bool.eq_false_iff.mpr fun py => ?_
    exact absurd ((List.pairwise_cons.mp first).1 y later py) (Bool.eq_false_iff.mp px)

/-- The loops over a list that has the entries with `p` first. Either one of these is left
and all others are, or only others are left and at most `soft` of them. -/
theorem loops_leave (first : l.Pairwise fun x y => p y = true → p x = true) :
    let left := (popWhile (fun l => soft < l.length && l.head?.any (!p ·))
      (popWhile (fun l => hard < l.length) l).2).2
    (l.countP (!p ·) < min l.length hard ∧ left.length = min l.length hard ∧
        ((∀ x ∈ left, p x = true) ↔ l.countP (!p ·) = 0)) ∨
      (min l.length hard ≤ l.countP (!p ·) ∧ left.length ≤ soft ∧
        left.length ≤ min l.length hard) := by
  intro left
  have kept : (popWhile (fun l => hard < l.length) l).2 = l.drop (l.length - hard) :=
    popWhile_length hard l
  have size : (l.drop (l.length - hard)).length = min l.length hard := by
    rw [List.length_drop]
    omega
  have bound : left.length ≤ (l.drop (l.length - hard)).length := by
    rw [← kept]
    exact length_popWhile_le_length _ _
  have total := congrArg (List.countP (!p ·)) (List.take_append_drop (l.length - hard) l)
  rw [List.countP_append] at total
  rw [← List.take_append_drop (l.length - hard) l, List.pairwise_append] at first
  obtain ⟨-, within, across⟩ := first
  -- what is left depends on the top after the first loop
  cases top : l.drop (l.length - hard) with
  | nil =>
    rw [top, List.length_nil] at size bound
    exact .inr ⟨by omega, by omega, by omega⟩
  | cons x rest =>
    rw [top] at size bound total within across
    cases px : p x with
    | true =>
      have stays : left = x :: rest := by
        change (popWhile _ _).2 = _
        rw [kept, top, popWhile_of_stop (by simp [px])]
      have before : (l.take (l.length - hard)).countP (!p ·) = 0 := by
        refine List.countP_eq_zero.mpr fun y member => ?_
        simp [across y member x List.mem_cons_self px]
      have fewer : (x :: rest).countP (!p ·) ≤ rest.length := by
        rw [List.countP_cons_of_neg (by simp [px])]
        exact List.countP_le_length
      rw [List.length_cons] at size
      refine .inl ⟨by omega, by rw [stays, List.length_cons, size], ?_⟩
      rw [stays, ← total, before, Nat.zero_add, List.countP_eq_zero]
      simp
    | false =>
      have none : ∀ y ∈ x :: rest, (!p y) = true := not_of_head within px
      have all : (x :: rest).countP (!p ·) = (x :: rest).length := List.countP_eq_length.mpr none
      refine .inr ⟨by omega, ?_, by omega⟩
      change (popWhile _ _).2.length ≤ _
      rw [kept, top]
      exact length_popWhile_le none

end Loops

/-! ## What is closed -/

section Close

variable {now : ℕ} {holders : List Holder} {refs : List Ref} {closed left : List (Ref × ℕ)}
  {positions : List ℕ}

theorem not_closable_closeActiveBlob (holder : Holder) :
    Closable now holder.closeActiveBlob = false := by
  have none : holder.closeActiveBlob.hasActiveBlob = false := by
    cases opened : holder.storage <;>
      simp [Holder.closeActiveBlob, Holder.hasActiveBlob, opened]
  rw [Closable, none, Bool.false_and, Bool.false_and]

/-- The closable blobs that stay open are those that were not closed. -/
theorem filter_closeAt :
    (closeAt holders positions).filter (Closable now) =
      ((holders.zipIdx.filter (Closable now ·.1)).filter (·.2 ∉ positions)).map (·.1) := by
  have kept : ∀ ref : Ref,
      Closable now (if ref.2 ∈ positions then ref.1.closeActiveBlob else ref.1) =
        (decide (ref.2 ∉ positions) && Closable now ref.1) := by
    intro ref
    split_ifs with gone <;> simp [gone, not_closable_closeActiveBlob]
  rw [closeAt, List.filter_map, List.filter_filter]
  simp only [Function.comp_def, kept]
  refine List.map_congr_left fun ref member => ?_
  have stays := (List.mem_filter.mp member).2
  rw [Bool.and_eq_true, decide_eq_true_eq] at stays
  exact if_neg stays.1

/-- Of the references, those that are left are not closed. -/
theorem filter_not_closed (distinct : (refs.map (·.2)).Nodup)
    (split : (closed ++ left).Perm refs.zipIdx) :
    (refs.filter (·.2 ∉ closed.map (·.1.2))).Perm (left.map (·.1)) := by
  have parts : (closed.map (·.1) ++ left.map (·.1)).Perm refs := by
    have mapped := split.map (·.1)
    rwa [List.map_append, List.zipIdx_map_fst] at mapped
  have apart := (parts.map (·.2)).nodup_iff.mpr distinct
  rw [List.map_append, List.map_map, List.map_map, List.nodup_append] at apart
  have gone : (closed.map (·.1)).filter (·.2 ∉ closed.map (·.1.2)) = [] := by
    refine List.filter_eq_nil_iff.mpr fun ref member => ?_
    obtain ⟨entry, inClosed, rfl⟩ := List.mem_map.mp member
    simpa using ⟨_, _, inClosed⟩
  have stays : (left.map (·.1)).filter (·.2 ∉ closed.map (·.1.2)) = left.map (·.1) := by
    refine List.filter_eq_self.mpr fun ref member => decide_eq_true fun closedToo => ?_
    obtain ⟨entry, inLeft, rfl⟩ := List.mem_map.mp member
    exact apart.2.2 _ closedToo _ (List.mem_map_of_mem inLeft) rfl
  have filtered := parts.symm.filter (·.2 ∉ closed.map (·.1.2))
  rwa [List.filter_append, gone, List.nil_append, stays] at filtered

/-- Only what is closed changes. -/
theorem forall₂_closeAt (only : ∀ ref ∈ holders.zipIdx, ref.2 ∈ positions →
      Closable now ref.1 = true) :
    List.Forall₂ (fun old new => new = old ∨ Closable now old = true ∧ new = old.closeActiveBlob)
      holders (closeAt holders positions) := by
  have pairwise : List.Forall₂ (fun (old new : Ref) =>
      (if new.2 ∈ positions then new.1.closeActiveBlob else new.1) = old.1 ∨
        Closable now old.1 = true ∧
          (if new.2 ∈ positions then new.1.closeActiveBlob else new.1) = old.1.closeActiveBlob)
      holders.zipIdx holders.zipIdx := by
    refine List.forall₂_same.mpr fun ref member => ?_
    split_ifs with gone
    · exact .inr ⟨only ref member gone, rfl⟩
    · exact .inl rfl
  rw [closeAt, List.forall₂_map_right_iff]
  nth_rewrite 1 [← List.zipIdx_map_fst 0 holders]
  rw [List.forall₂_map_left_iff]
  exact pairwise

end Close

/-! ## The limits -/

/-- The references to the partitions whose blobs may be closed. -/
def closableRefs (now : ℕ) (holders : List Holder) : List Ref :=
  holders.zipIdx.filter (Closable now ·.1)

/-- The flag of an entry for these. -/
def flag (now : ℕ) (holders : List Holder) (entry : Ref × ℕ) : Bool :=
  ((closableRefs now holders).map small).getD entry.2 false

/-- The sorted entries from the end. -/
def stack (now : ℕ) (holders : List Holder) : List (Ref × ℕ) :=
  (sortByPriority (closableRefs now holders).zipIdx
    ((closableRefs now holders).map small)).reverse

/-- What the loops close and leave. -/
def loops (now : ℕ) (holders : List Holder) (soft hard : ℕ) :
    List (Ref × ℕ) × List (Ref × ℕ) :=
  closeLoops ((closableRefs now holders).map small) (soft - others now holders)
    (hard - others now holders)
    (sortByPriority (closableRefs now holders).zipIdx ((closableRefs now holders).map small))

/-- How many closable blobs are large. -/
def large (now : ℕ) (holders : List Holder) : ℕ :=
  (closableRefs now holders).countP (!small ·)

section Limits

variable {now soft hard : ℕ} {holders after : List Holder}

theorem countP_zipIdx {α : Type} (l : List α) (p : α → Bool) :
    l.zipIdx.countP (p ·.1) = l.countP p := by
  nth_rewrite 2 [← List.zipIdx_map_fst 0 l]
  rw [List.countP_map]
  rfl

/-- The blobs that may not be closed are those that the first loop has left out. -/
theorem countP_eq_add_others :
    holders.countP (·.hasActiveBlob) =
      (closableRefs now holders).length + others now holders := by
  have active : (holders.filter (Closable now)).countP (·.hasActiveBlob) =
      (holders.filter (Closable now)).length := by
    refine List.countP_eq_length.mpr fun holder member => ?_
    have closable := (List.mem_filter.mp member).2
    rw [Closable, Bool.and_eq_true, Bool.and_eq_true] at closable
    exact closable.1.1
  rw [List.countP_eq_countP_filter_add holders _ (Closable now), active, List.countP_filter,
    closableRefs, ← List.countP_eq_length_filter, ← List.countP_eq_length_filter, countP_zipIdx,
    others]

theorem closeUnneededActiveBlobs_eq_ok_iff :
    closeUnneededActiveBlobs holders now soft hard = .ok after ↔
      (∀ holder ∈ holders, Timely now holder) ∧
        closeAt holders ((loops now holders soft hard).1.map (·.1.2)) = after := by
  have timely : (∀ ref ∈ holders.zipIdx, Timely now ref.1) ↔
      ∀ holder ∈ holders, Timely now holder := by
    nth_rewrite 2 [← List.zipIdx_map_fst 0 holders]
    rw [List.forall_mem_map]
  have counted : holders.zipIdx.countP (·.1.hasActiveBlob) = holders.countP (·.hasActiveBlob) :=
    countP_zipIdx _ _
  have rest : (closableRefs now holders).length + others now holders -
      (closableRefs now holders).length = others now holders := Nat.add_sub_cancel_left ..
  simp only [closeUnneededActiveBlobs, bind_eq_ok_iff, foldlM_eq_ok_iff scanStep_eq_ok_iff,
    foldl_next, timely, checkedSub_eq_ok_iff, Nat.zero_add, List.nil_append, counted]
  constructor
  · rintro ⟨_, ⟨early, rfl⟩, _, ⟨-, rfl⟩, done⟩
    refine ⟨early, ?_⟩
    rw [← closableRefs, @countP_eq_add_others now, rest] at done
    exact Except.ok.inj done
  · rintro ⟨early, rfl⟩
    refine ⟨_, ⟨early, rfl⟩, _, ⟨?_, rfl⟩, ?_⟩
    · rw [← closableRefs, @countP_eq_add_others now]
      exact Nat.le_add_right _ _
    · rw [← closableRefs, @countP_eq_add_others now, rest]
      rfl

theorem stack_perm : (stack now holders).Perm (closableRefs now holders).zipIdx :=
  (List.reverse_perm _).trans (sortByPriority_perm _ _)

theorem flag_eq {entry : Ref × ℕ} (member : entry ∈ stack now holders) :
    flag now holders entry = small entry.1 :=
  getD_small (stack_perm.mem_iff.mp member)

theorem length_stack : (stack now holders).length = holders.countP (Closable now) := by
  rw [stack_perm.length_eq, List.length_zipIdx, closableRefs, ← List.countP_eq_length_filter,
    countP_zipIdx]

theorem countP_stack : (stack now holders).countP (!flag now holders ·) = large now holders := by
  rw [List.countP_congr fun entry member => by rw [flag_eq member], stack_perm.countP_eq]
  exact countP_zipIdx _ (!small ·)

/-- From the end, the small ones come first. -/
theorem pairwise_stack : (stack now holders).Pairwise fun x y =>
    flag now holders y = true → flag now holders x = true :=
  List.pairwise_reverse.mpr ((pairwise_sortByPriority _ _).imp fun behind =>
    (notBehind_iff.mp behind).1)

/-- The loops go over the stack in turn. -/
theorem loops_append :
    (loops now holders soft hard).1 ++ (loops now holders soft hard).2 = stack now holders := by
  unfold loops closeLoops
  dsimp only
  rw [List.append_assoc, popWhile_append, popWhile_append, stack]

theorem loops_perm :
    ((loops now holders soft hard).1 ++ (loops now holders soft hard).2).Perm
      (closableRefs now holders).zipIdx := by
  rw [loops_append]
  exact stack_perm

/-- The blobs that stay open are those that the loops leave. -/
theorem filter_after_perm :
    ((closeAt holders ((loops now holders soft hard).1.map (·.1.2))).filter (Closable now)).Perm
      ((loops now holders soft hard).2.map (·.1.1)) := by
  have positions : (holders.zipIdx.map (·.2)).Nodup := by
    rw [List.zipIdx_map_snd]
    exact List.nodup_range'
  have distinct : ((closableRefs now holders).map (·.2)).Nodup :=
    positions.sublist (List.filter_sublist.map _)
  have stays := (filter_not_closed distinct (@loops_perm now soft hard holders)).map (·.1)
  rw [List.map_map] at stays
  rw [filter_closeAt]
  exact stays

/-- Only closable blobs are closed. -/
theorem closable_of_closed {ref : Ref} (member : ref ∈ holders.zipIdx)
    (gone : ref.2 ∈ (loops now holders soft hard).1.map (·.1.2)) :
    Closable now ref.1 = true := by
  obtain ⟨entry, closed, same⟩ := List.mem_map.mp gone
  have listed : entry ∈ (closableRefs now holders).zipIdx :=
    loops_perm.mem_iff.mp (List.mem_append_left _ closed)
  have closable : entry.1 ∈ closableRefs now holders := by
    rw [← List.zipIdx_map_fst 0 (closableRefs now holders)]
    exact List.mem_map_of_mem listed
  obtain ⟨inside, answer⟩ := List.mem_filter.mp closable
  -- the position determines the partition
  have here := List.mem_zipIdx_iff_getElem?.mp member
  have there := List.mem_zipIdx_iff_getElem?.mp inside
  rw [same] at there
  rwa [Option.some.inj (here.symm.trans there)]

/-- What the loops leave is within the hard limit. Above the soft limit only small blobs are
left, unless there are large ones and more is left than they are. -/
theorem loops_leave_iff :
    (loops now holders soft hard).2.length ≤ hard - others now holders ∧
      ((soft - others now holders < (loops now holders soft hard).2.length →
        ∀ entry ∈ (loops now holders soft hard).2, small entry.1 = true) ↔
      large now holders = 0 ∨
        min (holders.countP (Closable now)) (hard - others now holders) ≤
          max (soft - others now holders) (large now holders)) := by
  have flags : (∀ entry ∈ (loops now holders soft hard).2, flag now holders entry = true) ↔
      ∀ entry ∈ (loops now holders soft hard).2, small entry.1 = true := by
    refine forall₂_congr fun entry member => ?_
    rw [flag_eq (@loops_append now soft hard holders ▸ List.mem_append_right _ member)]
  have outcome := @loops_leave (flag now holders) _ (soft - others now holders)
    (hard - others now holders) pairwise_stack
  rw [length_stack, countP_stack] at outcome
  rcases outcome with ⟨mixed, kept, all⟩ | ⟨onlyLarge, few, bound⟩
  · replace kept : (loops now holders soft hard).2.length = _ := kept
    replace all : (∀ entry ∈ (loops now holders soft hard).2, flag now holders entry = true) ↔ _ :=
      all
    rw [← flags, all, kept]
    exact ⟨min_le_right _ _, by omega⟩
  · replace few : (loops now holders soft hard).2.length ≤ _ := few
    replace bound : (loops now holders soft hard).2.length ≤ _ := bound
    refine ⟨bound.trans (min_le_right _ _), iff_of_true (fun more => ?_) ?_⟩
    · omega
    · exact .inr (onlyLarge.trans (le_max_right _ _))

/-- The limits are kept exactly if no difference overflows, and there are no large blobs or
what the hard limit leaves is within the soft limit or not more than they are. -/
theorem limits_kept_iff (holders : List Holder) (now soft hard : ℕ) :
    KeepsLimits holders now soft hard ↔ (∀ holder ∈ holders, Timely now holder) ∧
      (large now holders = 0 ∨
        min (holders.countP (Closable now)) (hard - others now holders) ≤
          max (soft - others now holders) (large now holders)) := by
  obtain ⟨within, above⟩ := @loops_leave_iff now soft hard holders
  have stays := @filter_after_perm now soft hard holders
  have isSmall : (∀ holder ∈ (closeAt holders ((loops now holders soft hard).1.map
      (·.1.2))).filter (Closable now), holder.activeBlobIsSmall = some true) ↔
      ∀ entry ∈ (loops now holders soft hard).2, small entry.1 = true := by
    simp only [stays.mem_iff, List.forall_mem_map, small, Option.getD_eq_iff, Bool.false_eq_true,
      and_false, or_false]
  unfold KeepsLimits
  simp only [closeUnneededActiveBlobs_eq_ok_iff]
  constructor
  · rintro ⟨after, ⟨timely, rfl⟩, -, -, soft⟩
    refine ⟨timely, above.mp ?_⟩
    rwa [stays.length_eq, List.length_map, isSmall] at soft
  · rintro ⟨timely, limits⟩
    refine ⟨_, ⟨timely, rfl⟩, forall₂_closeAt fun ref member gone => closable_of_closed member gone,
      ?_, ?_⟩
    · rwa [stays.length_eq, List.length_map]
    · rw [stays.length_eq, List.length_map, isSmall]
      exact above.mpr limits

end Limits

/-! A past partition with many records in its active blob and one with a single record. -/

def manyRecords : Holder := ⟨86400, 86000, 1000, some ⟨some 500⟩⟩

def oneRecord : Holder := ⟨172800, 172000, 1000, some ⟨some 1⟩⟩

/-- With a soft limit of one both stay open, and one of them is large. If a partition was
modified after the time of the clock, the difference overflows. -/
theorem large_blob_stays_open :
    closeUnneededActiveBlobs [manyRecords, oneRecord] 200000 1 2 = .ok [manyRecords, oneRecord] ∧
      ¬ KeepsLimits [manyRecords, oneRecord] 200000 1 2 ∧
      closeUnneededActiveBlobs [{ manyRecords with lastModification := 200001 }] 200000 1 2 =
        .error ⟨"attempt to subtract with overflow"⟩ := by
  have stays : closeUnneededActiveBlobs [manyRecords, oneRecord] 200000 1 2 =
      .ok [manyRecords, oneRecord] := by decide
  refine ⟨stays, ?_, by decide⟩
  rintro ⟨after, returned, -, -, onlySmall⟩
  cases Except.ok.inj (stays.symm.trans returned)
  exact absurd (onlySmall (by decide) manyRecords (by decide)) (by decide)

end ActiveBlobs

end Bob.Backend

/-
# Counting over a window of consecutive numbers

Numbers are folded into the ranks below `a` with two moduli: by `m` where the
remainder is a rank, by `a` otherwise. Over any window as long as the least common
multiple of the two, every rank comes up equally often. The remainders by `m` alone
favour no rank; among the numbers with a given remainder by `a`, those whose remainder
by `m` is a rank are as many as the numbers with one given remainder by `m`, so folding
the others by `a` favours none either.
-/

import Mathlib.Algebra.BigOperators.Group.Finset.Basic
import Mathlib.Algebra.Order.BigOperators.Group.Finset
import Mathlib.Data.Int.CardIntervalMod
import Mathlib.Data.List.Rotate
import Mathlib.Data.Nat.Periodic

namespace Bob.Math

/-- How many of the `len` numbers from `start` on have the property. -/
def countFrom (start len : ℕ) (p : ℕ → Prop) [DecidablePred p] : ℕ :=
  ((Finset.Ico start (start + len)).filter p).card

theorem countFrom_congr {start len : ℕ} {p q : ℕ → Prop} [DecidablePred p] [DecidablePred q]
    (same : ∀ o, p o ↔ q o) : countFrom start len p = countFrom start len q := by
  simp only [countFrom, same]

/-- The rank of a number. -/
def foldMod (m a o : ℕ) : ℕ := if o % m < a then o % m else o % a

variable {m a : ℕ}

theorem foldMod_lt (pos : 0 < a) (o : ℕ) : foldMod m a o < a := by
  unfold foldMod
  split_ifs with small
  · exact small
  · exact Nat.mod_lt o pos

theorem periodic_foldMod : Function.Periodic (foldMod m a) (Nat.lcm m a) := by
  intro o
  have byM : (o + Nat.lcm m a) % m = o % m := by
    rw [Nat.add_mod, Nat.mod_eq_zero_of_dvd (Nat.dvd_lcm_left m a), Nat.add_zero, Nat.mod_mod]
  have byA : (o + Nat.lcm m a) % a = o % a := by
    rw [Nat.add_mod, Nat.mod_eq_zero_of_dvd (Nat.dvd_lcm_right m a), Nat.add_zero, Nat.mod_mod]
  simp only [foldMod, byM, byA]

/-- A property of ranks comes up as often in every window of this length. -/
theorem countFrom_foldMod (start : ℕ) (p : ℕ → Prop) [DecidablePred p] :
    countFrom start (Nat.lcm m a) (fun o => p (foldMod m a o)) =
      ((Finset.range (Nat.lcm m a)).filter fun o => p (foldMod m a o)).card := by
  have periodic : Function.Periodic (fun o => p (foldMod m a o)) (Nat.lcm m a) := fun o =>
    congrArg p (periodic_foldMod o)
  rw [countFrom, Nat.filter_Ico_card_eq_of_periodic _ _ _ periodic,
    Nat.count_eq_card_filter_range]

/-! ## One rank -/

/-- Below a multiple of `k`, every remainder by `k` comes up equally often. -/
theorem card_mod_eq {k len r : ℕ} (pos : 0 < k) (whole : k ∣ len) :
    ((Finset.range len).filter fun o => o % k = r % k).card = len / k := by
  have counted := @Nat.count_modEq_card len k pos r
  rw [Nat.mod_eq_zero_of_dvd whole, if_neg (Nat.not_lt_zero _), Nat.add_zero,
    Nat.count_eq_card_filter_range] at counted
  exact counted

/-- Among the numbers with remainder `r` by `a`, those whose remainder by `m` is a rank. -/
private def both (m a r : ℕ) : Finset ℕ :=
  (Finset.range (Nat.lcm m a)).filter fun o => o % a = r ∧ o % m < a

/-- A number below the least common multiple is determined by its two remainders, and the
remainders that occur together are those that agree modulo the greatest common divisor. -/
private theorem card_both {r : ℕ} (le : a ≤ m) (rank : r < a) :
    (both m a r).card = Nat.lcm m a / m := by
  have posA : 0 < a := Nat.zero_lt_of_lt rank
  have posM : 0 < m := posA.trans_le le
  have compatible : (both m a r).card =
      ((Finset.range a).filter fun s => s % Nat.gcd m a = r % Nat.gcd m a).card := by
    refine Finset.card_bij (fun o _ => o % m) ?_ ?_ ?_
    · intro o member
      obtain ⟨-, byA, small⟩ := Finset.mem_filter.mp member
      refine Finset.mem_filter.mpr ⟨Finset.mem_range.mpr small, ?_⟩
      rw [Nat.mod_mod_of_dvd _ (Nat.gcd_dvd_left m a), ← byA,
        Nat.mod_mod_of_dvd _ (Nat.gcd_dvd_right m a)]
    · intro o hmem o' hmem' same
      obtain ⟨below, byA, -⟩ := Finset.mem_filter.mp hmem
      obtain ⟨below', byA', -⟩ := Finset.mem_filter.mp hmem'
      have congruent : o ≡ o' [MOD Nat.lcm m a] := Nat.mod_lcm same (byA.trans byA'.symm)
      exact congruent.eq_of_lt_of_lt (Finset.mem_range.mp below) (Finset.mem_range.mp below')
    · intro s member
      obtain ⟨small, agree⟩ := Finset.mem_filter.mp member
      have small : s < a := Finset.mem_range.mp small
      let o := Nat.chineseRemainder' (n := m) (m := a) agree
      have below : o.1 < Nat.lcm m a := Nat.chineseRemainder'_lt_lcm _ posM.ne' posA.ne'
      have byM : o.1 % m = s := Eq.trans o.2.1 (Nat.mod_eq_of_lt (small.trans_le le))
      have byA : o.1 % a = r := Eq.trans o.2.2 (Nat.mod_eq_of_lt rank)
      have ranked : o.1 % m < a := by rwa [byM]
      exact ⟨o.1, Finset.mem_filter.mpr ⟨Finset.mem_range.mpr below, byA, ranked⟩, byM⟩
  have product : Nat.lcm m a = m * (a / Nat.gcd m a) :=
    Nat.mul_div_assoc m (Nat.gcd_dvd_right m a)
  rw [compatible, card_mod_eq (Nat.gcd_pos_of_pos_left a posM) (Nat.gcd_dvd_right m a), product,
    Nat.mul_div_cancel_left _ posM]

/-- In a window as long as the least common multiple, every rank comes up equally often. -/
theorem countFrom_foldMod_eq {r : ℕ} (le : a ≤ m) (rank : r < a) (start : ℕ) :
    countFrom start (Nat.lcm m a) (fun o => foldMod m a o = r) = Nat.lcm m a / a := by
  have posA : 0 < a := Nat.zero_lt_of_lt rank
  have posM : 0 < m := posA.trans_le le
  rw [countFrom_foldMod start fun s => s = r]
  let byM := (Finset.range (Nat.lcm m a)).filter fun o => o % m = r
  let byA := (Finset.range (Nat.lcm m a)).filter fun o => o % a = r
  have cardM : byM.card = Nat.lcm m a / m := by
    have counted := card_mod_eq (r := r) posM (Nat.dvd_lcm_left m a)
    rwa [Nat.mod_eq_of_lt (rank.trans_le le)] at counted
  have cardA : byA.card = Nat.lcm m a / a := by
    have counted := card_mod_eq (r := r) posA (Nat.dvd_lcm_right m a)
    rwa [Nat.mod_eq_of_lt rank] at counted
  have inside : both m a r ⊆ byA := by
    intro o member
    obtain ⟨below, remainder, -⟩ := Finset.mem_filter.mp member
    exact Finset.mem_filter.mpr ⟨below, remainder⟩
  -- a number of rank `r` is folded by `m`, or by `a` with a remainder by `m` that is no rank
  have parts : (Finset.range (Nat.lcm m a)).filter (fun o => foldMod m a o = r) =
      byM ∪ byA \ both m a r := by
    ext o
    simp only [byM, byA, both, Finset.mem_union, Finset.mem_sdiff, Finset.mem_filter]
    unfold foldMod
    by_cases small : o % m < a
    · simp only [small, if_true, and_true]
      tauto
    · have other : o % m ≠ r := fun same => small (same ▸ rank)
      simp [small, other]
  have disjoint : Disjoint byM (byA \ both m a r) := by
    rw [Finset.disjoint_left]
    intro o inM inRest
    obtain ⟨below, remainder⟩ := Finset.mem_filter.mp inM
    obtain ⟨inA, notBoth⟩ := Finset.mem_sdiff.mp inRest
    exact notBoth (Finset.mem_filter.mpr ⟨below, (Finset.mem_filter.mp inA).2, remainder ▸ rank⟩)
  calc ((Finset.range (Nat.lcm m a)).filter fun o => foldMod m a o = r).card
    _ = byM.card + (byA \ both m a r).card := by rw [parts, Finset.card_union_of_disjoint disjoint]
    _ = byM.card + (byA.card - (both m a r).card) := by rw [Finset.card_sdiff_of_subset inside]
    _ = byA.card := by
      rw [card_both le rank, ← cardM]
      have := Finset.card_le_card inside
      rw [card_both le rank, ← cardM] at this
      omega
    _ = Nat.lcm m a / a := cardA

/-! ## Consecutive ranks -/

/-- Going on from a rank around the circle of ranks reaches one rank from one other. -/
private theorem add_mod_eq_iff {f j r : ℕ} (hf : f < a) (hj : j ≤ a) (hr : r < a) :
    (f + j) % a = r ↔ f = (r + (a - j)) % a := by
  have forward : (f + j) % a = r ↔ f + j ≡ r [MOD a] := by
    rw [Nat.ModEq, Nat.mod_eq_of_lt hr]
  have back : f = (r + (a - j)) % a ↔ f + a ≡ r + (a - j) [MOD a] := by
    rw [Nat.ModEq, Nat.add_mod_right, Nat.mod_eq_of_lt hf]
  have sum : f + a = f + j + (a - j) := by omega
  rw [forward, back, sum]
  exact ⟨fun same => same.add_right _, fun same => Nat.ModEq.add_right_cancel' _ same⟩

/-- In such a window, every rank is equally often among the `count` ranks that follow on the
rank of the number. -/
theorem countFrom_consecutive {r count : ℕ} (le : a ≤ m) (rank : r < a) (few : count ≤ a)
    (start : ℕ) :
    countFrom start (Nat.lcm m a) (fun o => ∃ j < count, (foldMod m a o + j) % a = r) =
      count * (Nat.lcm m a / a) := by
  have posA : 0 < a := Nat.zero_lt_of_lt rank
  let reached (j : ℕ) : Finset ℕ := (Finset.Ico start (start + Nat.lcm m a)).filter fun o =>
    (foldMod m a o + j) % a = r
  have each (j : ℕ) (hj : j ∈ Finset.range count) : (reached j).card = Nat.lcm m a / a := by
    have small : j ≤ a := (Finset.mem_range.mp hj).le.trans few
    rw [← countFrom_foldMod_eq le (Nat.mod_lt (r + (a - j)) posA) start]
    exact countFrom_congr fun o => add_mod_eq_iff (foldMod_lt posA o) small rank
  have disjoint : Set.PairwiseDisjoint ↑(Finset.range count) reached := by
    intro j hj k hk different
    rw [Function.onFun, Finset.disjoint_left]
    intro o inJ inK
    have same : foldMod m a o + j ≡ foldMod m a o + k [MOD a] :=
      Eq.trans (Finset.mem_filter.mp inJ).2 (Finset.mem_filter.mp inK).2.symm
    exact different (Nat.ModEq.eq_of_lt_of_lt (Nat.ModEq.add_left_cancel' _ same)
      ((Finset.mem_range.mp hj).trans_le few) ((Finset.mem_range.mp hk).trans_le few))
  have union : (Finset.Ico start (start + Nat.lcm m a)).filter
      (fun o => ∃ j < count, (foldMod m a o + j) % a = r) =
        (Finset.range count).biUnion reached := by
    ext o
    simp only [reached, Finset.mem_filter, Finset.mem_biUnion, Finset.mem_range]
    exact ⟨fun ⟨inside, j, hj, here⟩ => ⟨j, hj, inside, here⟩,
      fun ⟨j, hj, inside, here⟩ => ⟨inside, j, hj, here⟩⟩
  rw [countFrom, union, Finset.card_biUnion disjoint, Finset.sum_congr rfl each,
    Finset.sum_const, Finset.card_range, smul_eq_mul]

/-- The elements that follow on a position around a list, each by its own position. -/
theorem mem_take_rotate_iff {α : Type*} {l : List α} {x : α} {i rank count : ℕ}
    (distinct : l.Nodup) (here : l[i]? = some x) (few : count ≤ l.length) :
    x ∈ (l.rotate rank).take count ↔ ∃ j < count, (rank + j) % l.length = i := by
  have inside : i < l.length := (List.getElem?_eq_some_iff.mp here).1
  have position (j : ℕ) (hj : j < l.length) :
      (l.rotate rank)[j]? = some x ↔ (rank + j) % l.length = i := by
    rw [List.getElem?_rotate hj, ← here, Nat.add_comm,
      List.getElem?_inj (Nat.mod_lt _ (Nat.zero_lt_of_lt hj)) distinct]
  rw [List.mem_iff_getElem?]
  refine exists_congr fun j => ?_
  rw [List.getElem?_take]
  by_cases hj : j < count
  · rw [if_pos hj, position j (hj.trans_le few)]
    exact (and_iff_right hj).symm
  · rw [if_neg hj]
    exact iff_of_false nofun fun taken => hj taken.1

end Bob.Math

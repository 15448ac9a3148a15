/-
# Little-endian values

Bytes with the least significant one first are the digits of a number in base 256.
Putting two texts of bytes one after the other shifts the second, so two numbers of the
same width are compared by their upper parts first, and by their lower parts only if the
upper parts are equal. A loop that goes down the parts and stops at the first difference
therefore compares the numbers, however wide the parts are.

A number is written in a given width, which loses what does not fit.
-/

import Mathlib.Data.Nat.Digits.Lemmas
import Bob.Math.Sequencing

namespace Bob.Math

/-- The number with these bytes, the least significant first. -/
def leValue (bytes : List UInt8) : ℕ := Nat.ofDigits 256 (bytes.map UInt8.toNat)

@[simp] theorem leValue_nil : leValue [] = 0 := rfl

theorem leValue_cons {byte : UInt8} {bytes : List UInt8} :
    leValue (byte :: bytes) = byte.toNat + 256 * leValue bytes :=
  Nat.ofDigits_cons

@[simp] theorem leValue_singleton {byte : UInt8} : leValue [byte] = byte.toNat := by
  rw [leValue_cons, leValue_nil, Nat.mul_zero, Nat.add_zero]

theorem leValue_append {low high : List UInt8} :
    leValue (low ++ high) = leValue low + 256 ^ low.length * leValue high := by
  rw [leValue, List.map_append, Nat.ofDigits_append, List.length_map]
  rfl

private theorem digit_lt {bytes : List UInt8} : ∀ digit ∈ bytes.map UInt8.toNat, digit < 256 := by
  intro digit member
  obtain ⟨byte, -, rfl⟩ := List.mem_map.mp member
  exact byte.toNat_lt

theorem leValue_lt {bytes : List UInt8} : leValue bytes < 256 ^ bytes.length := by
  rw [← List.length_map (f := UInt8.toNat)]
  exact Nat.ofDigits_lt_base_pow_length (by decide) digit_lt

/-- Bytes of the same number and of the same width are the same. -/
theorem eq_of_leValue_eq {x y : List UInt8} (width : x.length = y.length)
    (same : leValue x = leValue y) : x = y := by
  have digits : x.map UInt8.toNat = y.map UInt8.toNat :=
    Nat.ofDigits_inj_of_len_eq (by decide) (by simpa using width) digit_lt digit_lt same
  exact List.map_injective_iff.mpr (fun _ _ => UInt8.toNat_inj.mp) digits

theorem lt_pow_min_iff {n a b : ℕ} : n < 256 ^ min a b ↔ n < 256 ^ a ∧ n < 256 ^ b := by
  rcases Nat.le_total a b with le | le
  · rw [Nat.min_eq_left le]
    exact ⟨fun small => ⟨small, small.trans_le (Nat.pow_le_pow_right (by decide) le)⟩, And.left⟩
  · rw [Nat.min_eq_right le]
    exact ⟨fun small => ⟨small.trans_le (Nat.pow_le_pow_right (by decide) le), small⟩, And.right⟩

/-! ## Zeros at the top -/

theorem leValue_eq_zero_iff {bytes : List UInt8} :
    leValue bytes = 0 ↔ ∀ byte ∈ bytes, byte = 0 := by
  induction bytes with
  | nil => simp
  | cons byte rest ih =>
    rw [leValue_cons, List.forall_mem_cons, ← ih, ← UInt8.toNat_inj, UInt8.toNat_zero]
    omega

/-- A number fits in a width just when the bytes beyond it are zero. -/
theorem leValue_lt_iff {bytes : List UInt8} {width : ℕ} :
    leValue bytes < 256 ^ width ↔ ∀ byte ∈ bytes.drop width, byte = 0 := by
  rcases Nat.le_total bytes.length width with short | long
  · rw [List.drop_of_length_le short]
    exact iff_of_true (leValue_lt.trans_le (Nat.pow_le_pow_right (by decide) short)) (by simp)
  · have width_take : (bytes.take width).length = width := List.length_take_of_le long
    have low : leValue (bytes.take width) < 256 ^ width := by
      have bound := @leValue_lt (bytes.take width)
      rwa [width_take] at bound
    have split : leValue bytes =
        leValue (bytes.take width) + 256 ^ width * leValue (bytes.drop width) := by
      have joined := @leValue_append (bytes.take width) (bytes.drop width)
      rwa [List.take_append_drop, width_take] at joined
    rw [split, ← leValue_eq_zero_iff]
    constructor
    · intro small
      by_contra positive
      have carried := Nat.le_mul_of_pos_right (256 ^ width) (Nat.pos_of_ne_zero positive)
      omega
    · intro zero
      rw [zero]
      omega

/-- Zeros beyond a width and bytes that are cut off there do not change the number. -/
theorem leValue_take_append_zeros {bytes : List UInt8} {width count : ℕ}
    (fits : leValue bytes < 256 ^ width) :
    leValue (bytes.take width ++ List.replicate count 0) = leValue bytes := by
  have zeros : leValue (List.replicate count 0) = 0 :=
    leValue_eq_zero_iff.mpr fun byte member => List.eq_of_mem_replicate member
  have cut : leValue (bytes.drop width) = 0 := leValue_eq_zero_iff.mpr (leValue_lt_iff.mp fits)
  have joined := @leValue_append (bytes.take width) (bytes.drop width)
  rw [List.take_append_drop, cut] at joined
  rw [leValue_append, zeros, joined]

/-! ## Writing a number -/

/-- The lowest bytes of a number, the least significant first. -/
def leBytes : ℕ → ℕ → List UInt8
  | 0, _ => []
  | width + 1, n => UInt8.ofNat n :: leBytes width (n / 256)

@[simp] theorem length_leBytes (width n : ℕ) : (leBytes width n).length = width := by
  induction width generalizing n with
  | zero => rfl
  | succ width ih => rw [leBytes, List.length_cons, ih]

theorem leValue_leBytes {width n : ℕ} (fits : n < 256 ^ width) : leValue (leBytes width n) = n := by
  induction width generalizing n with
  | zero => simpa [leBytes, eq_comm] using fits
  | succ width ih =>
    have rest : n / 256 < 256 ^ width := Nat.div_lt_of_lt_mul (by rwa [← Nat.pow_succ'])
    rw [leBytes, leValue_cons, ih rest, UInt8.toNat_ofNat']
    exact Nat.mod_add_div n 256

/-- What is written in its own width is read back. -/
theorem leBytes_leValue {width : ℕ} {bytes : List UInt8} (length : bytes.length = width) :
    leBytes width (leValue bytes) = bytes := by
  refine eq_of_leValue_eq (by rw [length_leBytes, length]) (leValue_leBytes ?_)
  rw [← length]
  exact leValue_lt

/-! ## Comparing from the top -/

/-- The upper part decides, unless the upper parts are equal. -/
private theorem compare_add_mul {low low' high high' base : ℕ} (below : low < base)
    (below' : low' < base) :
    compare (low + base * high) (low' + base * high') =
      (compare high high').then (compare low low') := by
  rcases lt_trichotomy high high' with less | rfl | greater
  · have carried : base * (high + 1) ≤ base * high' := Nat.mul_le_mul_left base less
    rw [Nat.compare_eq_lt.mpr less, Ordering.lt_then, Nat.compare_eq_lt]
    rw [Nat.mul_succ] at carried
    omega
  · rw [Nat.compare_eq_eq.mpr rfl, Ordering.eq_then]
    simp only [Nat.compare_eq_ite_lt, Nat.add_lt_add_iff_right]
  · have carried : base * (high' + 1) ≤ base * high := Nat.mul_le_mul_left base greater
    rw [Nat.compare_eq_gt.mpr greater, Ordering.gt_then, Nat.compare_eq_gt]
    rw [Nat.mul_succ] at carried
    omega

theorem compare_leValue_append {low low' high high' : List UInt8}
    (width : low.length = low'.length) :
    compare (leValue (low ++ high)) (leValue (low' ++ high')) =
      (compare (leValue high) (leValue high')).then (compare (leValue low) (leValue low')) := by
  rw [leValue_append, leValue_append, width]
  refine compare_add_mul ?_ leValue_lt
  rw [← width]
  exact leValue_lt

variable {ε : Type*}

/-- Go down the positions below `n` and stop at the first that is not equal. -/
def compareDown (part : ℕ → Except ε Ordering) : ℕ → Except ε Ordering
  | 0 => .ok .eq
  | n + 1 => do
    match ← part n with
    | .eq => compareDown part n
    | ord => return ord

/-- The loop computes an order in which each position comes before all positions below. -/
theorem compareDown_eq_ok {part : ℕ → Except ε Ordering} {upTo : ℕ → Ordering} {n : ℕ}
    (empty : upTo 0 = .eq)
    (step : ∀ i < n, ∃ ord, part i = .ok ord ∧ upTo (i + 1) = ord.then (upTo i)) :
    compareDown part n = .ok (upTo n) := by
  induction n with
  | zero => rw [compareDown, empty]
  | succ n ih =>
    obtain ⟨ord, here, above⟩ := step n n.lt_succ_self
    have rest := ih fun i below => step i (below.trans n.lt_succ_self)
    rw [compareDown, above]
    refine bind_eq_ok_iff.mpr ⟨ord, here, ?_⟩
    cases ord with
    | eq => exact rest
    | lt | gt => rfl

end Bob.Math

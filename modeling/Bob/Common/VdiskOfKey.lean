/-
# The vdisk of a key

A key is read as a little-endian number, and its vdisk is that number modulo the number
of vdisks. The code never builds the number. It goes over the bytes once and keeps the
remainder so far and the remainder of the weight of the next byte. Both stay below the
number of vdisks, so on a machine of 64 bits nothing overflows however long the key is.
-/

import Bob.Math.LittleEndian
import Bob.Common.Checked
import Bob.Common.Routing

namespace Bob.Virtual

open Bob.Math

variable {keySize : ℕ}

/-- One byte of the remainder, with each operation checked. A shift that loses bits counts
as an overflow as well. -/
def checkedModStep (len : ℕ) (acc : ℕ × ℕ) (byte : UInt8) : Except Panic (ℕ × ℕ) := do
  let product ← fits "multiply" (acc.2 * byte.toNat)
  let sum ← fits "add" (acc.1 + product)
  let shifted ← fits "shift left" (acc.2 <<< 8)
  return (sum % len, shifted % len)

/-- `get_vdisk_id_by_mod` with each operation checked. -/
def checkedVdiskIdByMod (key : BobKey keySize) (len : ℕ) : Except Panic ℕ := do
  if len = 0 ∧ 0 < keySize then
    throw ⟨"attempt to calculate the remainder with a divisor of zero"⟩
  let acc ← key.bytes.toList.foldlM (checkedModStep len) (0, 1)
  return acc.1

section Step

variable {len : ℕ} {acc : ℕ × ℕ} {byte : UInt8} {bytes : List UInt8}

/-- The remainder so far and the weight of the next byte leave room for one more step. -/
structure Reduced (len : ℕ) (acc : ℕ × ℕ) : Prop where
  rem_lt : acc.1 < len
  /-- The first weight is one even if there is a single vdisk. -/
  weight_le : acc.2 ≤ len

theorem reduced_start (pos : 1 ≤ len) : Reduced len (0, 1) := ⟨pos, pos⟩

theorem reduced_modStep (pos : 1 ≤ len) : Reduced len (modStep len acc byte) :=
  ⟨Nat.mod_lt _ pos, (Nat.mod_lt _ pos).le⟩

/-- In a step from reduced values no operation overflows. -/
theorem Reduced.checkedModStep_eq (reduced : Reduced len acc) (small : len ≤ 2 ^ 32) :
    checkedModStep len acc byte = .ok (modStep len acc byte) := by
  have weight : acc.2 ≤ 2 ^ 32 := reduced.weight_le.trans small
  have product : acc.2 * byte.toNat ≤ 2 ^ 32 * 255 :=
    Nat.mul_le_mul weight (Nat.le_of_lt_succ byte.toNat_lt)
  have rem := reduced.rem_lt
  have shifted : acc.2 <<< 8 = acc.2 * 256 := Nat.shiftLeft_eq ..
  refine bind_eq_ok_iff.mpr ⟨_, fits_eq_ok (by omega), ?_⟩
  refine bind_eq_ok_iff.mpr ⟨_, fits_eq_ok (by omega), ?_⟩
  exact bind_eq_ok_iff.mpr ⟨_, fits_eq_ok (by omega), rfl⟩

/-- A run of checked steps is a run of plain ones. -/
theorem Reduced.foldlM_checkedModStep (reduced : Reduced len acc) (pos : 1 ≤ len)
    (small : len ≤ 2 ^ 32) :
    bytes.foldlM (checkedModStep len) acc = .ok (bytes.foldl (modStep len) acc) := by
  induction bytes generalizing acc with
  | nil => rfl
  | cons byte rest ih =>
    rw [List.foldlM_cons, reduced.checkedModStep_eq small]
    exact ih (reduced_modStep pos)

/-- Each byte adds its weight times its value, whatever has been reduced before. -/
theorem foldl_modStep_modEq :
    (bytes.foldl (modStep len) acc).1 ≡ acc.1 + acc.2 * leValue bytes [MOD len] := by
  induction bytes generalizing acc with
  | nil => exact Nat.ModEq.refl _
  | cons byte rest ih =>
    have weight : (acc.2 <<< 8) % len ≡ acc.2 * 256 [MOD len] := by
      rw [Nat.shiftLeft_eq]
      exact Nat.mod_modEq _ _
    have rem : (acc.1 + acc.2 * byte.toNat) % len ≡ acc.1 + acc.2 * byte.toNat [MOD len] :=
      Nat.mod_modEq _ _
    calc ((byte :: rest).foldl (modStep len) acc).1
        ≡ (acc.1 + acc.2 * byte.toNat) % len + (acc.2 <<< 8) % len * leValue rest [MOD len] := ih
      _ ≡ acc.1 + acc.2 * byte.toNat + acc.2 * 256 * leValue rest [MOD len] :=
        rem.add (weight.mul_right _)
      _ = acc.1 + acc.2 * leValue (byte :: rest) := by rw [leValue_cons]; ring

end Step

/-- The code computes the little-endian number modulo the number of vdisks. -/
theorem getVdiskIdByMod_eq (key : BobKey keySize) {len : ℕ} (pos : 1 ≤ len) :
    getVdiskIdByMod key len = .ok (leValue key.bytes.toList % len) := by
  obtain ⟨id, computed, below⟩ := getVdiskIdByMod_lt key pos
  have nonzero : ¬ (len = 0 ∧ 0 < keySize) := fun ⟨zero, _⟩ => by omega
  have value : id ≡ leValue key.bytes.toList [MOD len] := by
    rw [getVdiskIdByMod, if_neg nonzero] at computed
    rw [← Except.ok.inj computed]
    simpa using @foldl_modStep_modEq len (0, 1) key.bytes.toList
  rw [computed, ← value, Nat.mod_eq_of_lt below]

/-- The vdisk of a key is the little-endian number of its bytes modulo the number of
vdisks, and no operation on the way overflows 64 bits. -/
theorem vdisk_of_key_is_value_mod (key : BobKey keySize) {len : ℕ} (pos : 1 ≤ len)
    (small : len ≤ 2 ^ 32) :
    getVdiskIdByMod key len = .ok (leValue key.bytes.toList % len) ∧
      checkedVdiskIdByMod key len = .ok (leValue key.bytes.toList % len) := by
  have plain := getVdiskIdByMod_eq key pos
  have nonzero : ¬ (len = 0 ∧ 0 < keySize) := fun ⟨zero, _⟩ => by omega
  refine ⟨plain, ?_⟩
  rw [← plain, getVdiskIdByMod, checkedVdiskIdByMod, if_neg nonzero, if_neg nonzero,
    (reduced_start pos).foldlM_checkedModStep pos small]
  rfl

/-- The key `2 ^ 64 - 1` among three vdisks. -/
theorem vdisk_of_greatest_key :
    leValue (Vector.replicate 8 (255 : UInt8)).toList = 2 ^ 64 - 1 ∧
      getVdiskIdByMod ⟨Vector.replicate 8 255⟩ 3 =
        .ok (leValue (Vector.replicate 8 (255 : UInt8)).toList % 3) ∧
      checkedVdiskIdByMod ⟨Vector.replicate 8 255⟩ 3 =
        .ok (leValue (Vector.replicate 8 (255 : UInt8)).toList % 3) :=
  ⟨by decide, vdisk_of_key_is_value_mod ⟨Vector.replicate 8 255⟩ (by decide) (by decide)⟩

end Bob.Virtual

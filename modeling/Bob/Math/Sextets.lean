/-
# Bytes as groups of six bits

Three bytes are four groups of six bits, and the last byte or two of a text make a short
row of groups at its end. The groups are those of base64 with one exception: the third
group of a row has the lower half of the second byte in its lower bits, and the upper bits
of the third byte in its upper ones. They determine the bytes all the same.
-/

import Mathlib.Data.List.Basic
import Mathlib.Tactic.Common

namespace Bob.Math

/-- The groups of six bits of a text of bytes. -/
def sextets : List UInt8 → List ℕ
  | [] => []
  | [a] => [a.toNat / 4, a.toNat % 4 * 16]
  | [a, b] => [a.toNat / 4, a.toNat % 4 * 16 + b.toNat / 16, b.toNat % 16]
  | a :: b :: c :: rest =>
    a.toNat / 4 :: (a.toNat % 4 * 16 + b.toNat / 16) :: (b.toNat % 16 + c.toNat / 64 * 16) ::
      c.toNat % 64 :: sextets rest

theorem sextets_lt (bytes : List UInt8) : ∀ bits ∈ sextets bytes, bits < 64 := by
  induction bytes using sextets.induct with
  | case1 => simp [sextets]
  | case2 a =>
    have ha := a.toNat_lt
    simp only [sextets, List.forall_mem_cons]
    exact ⟨by omega, by omega, nofun⟩
  | case3 a b =>
    have ha := a.toNat_lt
    have hb := b.toNat_lt
    simp only [sextets, List.forall_mem_cons]
    exact ⟨by omega, by omega, by omega, nofun⟩
  | case4 a b c rest ih =>
    have ha := a.toNat_lt
    have hb := b.toNat_lt
    have hc := c.toNat_lt
    simp only [sextets, List.forall_mem_cons]
    exact ⟨by omega, by omega, by omega, by omega, ih⟩

theorem length_sextets (bytes : List UInt8) :
    (sextets bytes).length = (4 * bytes.length + 2) / 3 := by
  induction bytes using sextets.induct with
  | case1 | case2 | case3 => simp [sextets]
  | case4 a b c rest ih =>
    simp only [sextets, List.length_cons, ih]
    omega

/-- Texts of the same length with the same groups are the same. -/
theorem eq_of_sextets_eq {x y : List UInt8} (width : x.length = y.length)
    (same : sextets x = sextets y) : x = y := by
  have byte (a a' : UInt8) (value : a.toNat = a'.toNat) : a = a' := UInt8.toNat_inj.mp value
  induction x using sextets.induct generalizing y with
  | case1 => exact (List.length_eq_zero_iff.mp width.symm).symm
  | case2 a =>
    obtain ⟨a', rfl⟩ := List.length_eq_one_iff.mp width.symm
    have ha := a.toNat_lt
    have ha' := a'.toNat_lt
    simp only [sextets, List.cons.injEq, and_true] at same
    rw [byte a a' (by omega)]
  | case3 a b =>
    obtain ⟨a', b', rfl⟩ := List.length_eq_two.mp width.symm
    have ha := a.toNat_lt
    have ha' := a'.toNat_lt
    have hb := b.toNat_lt
    have hb' := b'.toNat_lt
    simp only [sextets, List.cons.injEq, and_true] at same
    rw [byte a a' (by omega), byte b b' (by omega)]
  | case4 a b c rest ih =>
    match y, width with
    | a' :: b' :: c' :: rest', width =>
      have ha := a.toNat_lt
      have ha' := a'.toNat_lt
      have hb := b.toNat_lt
      have hb' := b'.toNat_lt
      have hc := c.toNat_lt
      have hc' := c'.toNat_lt
      simp only [sextets, List.cons.injEq] at same
      obtain ⟨first, second, third, fourth, others⟩ := same
      rw [byte a a' (by omega), byte b b' (by omega),
        byte c c' (by omega), ih (by simpa using width) others]

end Bob.Math

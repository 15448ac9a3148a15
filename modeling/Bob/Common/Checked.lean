/-
# Operations that may overflow

A build with overflow checks aborts at an operation whose result does not fit. The
models compute with natural numbers and say by `fits` and `checkedSub` where that
happens. Where a build without the checks matters as well, they compute with machine
words and say by a `Build` which of the two it is.
-/

import Mathlib.Algebra.GroupWithZero.Nat
import Bob.Common.Types

namespace Bob

variable {operation : String} {a b result : ℕ}

/-- The result of an operation on 64 bits, or a panic if it does not fit. -/
def fits (operation : String) (result : ℕ) : Except Panic ℕ :=
  if result < 2 ^ 64 then .ok result else .error ⟨s!"attempt to {operation} with overflow"⟩

theorem fits_eq_ok (small : result < 2 ^ 64) : fits operation result = .ok result :=
  if_pos small

theorem fits_eq_ok_iff : fits operation a = .ok b ↔ a < 2 ^ 64 ∧ a = b := by
  unfold fits
  split_ifs with small
  · exact ⟨fun same => ⟨small, Except.ok.inj same⟩, fun both => congrArg _ both.2⟩
  · exact iff_of_false nofun fun both => small both.1

def checkedSub (a b : ℕ) : Except Panic ℕ :=
  if b ≤ a then .ok (a - b) else .error ⟨"attempt to subtract with overflow"⟩

theorem checkedSub_eq_ok_iff : checkedSub a b = .ok result ↔ b ≤ a ∧ a - b = result := by
  unfold checkedSub
  split_ifs with le <;> simp [le]

def saturatingSub (x y : UInt64) : UInt64 := if y ≤ x then x - y else 0

/-! ## Builds -/

/-- A build aborts where an operation overflows, or its result is wrapped. -/
inductive Build where
  | overflowChecks
  | release
  deriving DecidableEq, Repr

namespace Build

variable {build : Build} {x y z : UInt64}

def sub : Build → UInt64 → UInt64 → Except Panic UInt64
  | .overflowChecks, x, y =>
    if y ≤ x then .ok (x - y) else .error ⟨"attempt to subtract with overflow"⟩
  | .release, x, y => .ok (x - y)

def add : Build → UInt64 → UInt64 → Except Panic UInt64
  | .overflowChecks, x, y =>
    if x.toNat + y.toNat < 2 ^ 64 then .ok (x + y)
    else .error ⟨"attempt to add with overflow"⟩
  | .release, x, y => .ok (x + y)

theorem sub_eq_ok (le : y ≤ x) : build.sub x y = .ok (x - y) := by
  cases build
  · exact if_pos le
  · rfl

theorem add_eq_ok (fit : x.toNat + y.toNat < 2 ^ 64) : build.add x y = .ok (x + y) := by
  cases build
  · exact if_pos fit
  · rfl

theorem eq_add_of_add_eq_ok (computed : build.add x y = .ok z) :
    z = x + y ∧ (build = .overflowChecks → x.toNat + y.toNat < 2 ^ 64) := by
  cases build with
  | overflowChecks =>
    rw [add] at computed
    split_ifs at computed with fit
    exact ⟨(Except.ok.inj computed).symm, fun _ => fit⟩
  | release => exact ⟨(Except.ok.inj computed).symm, nofun⟩

/-- A difference that is not above what it is taken from did not overflow. -/
theorem le_of_sub_eq_ok (computed : build.sub x y = .ok z) (below : z ≤ x) :
    y ≤ x ∧ z = x - y := by
  cases build with
  | overflowChecks =>
    rw [sub] at computed
    split_ifs at computed with le
    exact ⟨le, (Except.ok.inj computed).symm⟩
  | release =>
    obtain rfl := Except.ok.inj computed
    refine ⟨?_, rfl⟩
    rw [UInt64.le_iff_toNat_le] at below ⊢
    rw [UInt64.toNat_sub] at below
    have := x.toNat_lt
    have := y.toNat_lt
    omega

end Build

end Bob

/-
# The order of keys

Indexes of blobs are sorted by key. The server and the recovery tool each have their own
comparison of keys, with loops over machine words where the size of the key allows it and
over bytes where it does not. All of them go from the last part to the first. They
compute one order, that of the little-endian numbers of the keys, so an index written by
one program can be searched by the other.
-/

import Bob.Math.LittleEndian
import Bob.Common.Types

namespace Bob.KeyOrder

open Bob.Math

/-! ## The comparisons -/

/-- `bytes[start..stop]` -/
def slice (bytes : List UInt8) (start stop : ℕ) : Except Panic (List UInt8) :=
  if stop ≤ bytes.length then .ok ((bytes.drop start).take (stop - start))
  else .error ⟨s!"range end index {stop} out of range for slice of length {bytes.length}"⟩

/-- `usize::from_le_bytes` of bytes that are first converted to an array of the size of a
word. -/
def wordOf (wordSize : ℕ) (bytes : List UInt8) : Except Panic ℕ :=
  if bytes.length = wordSize then .ok (leValue bytes)
  else .error ⟨"called `Result::unwrap()` on an `Err` value: TryFromSliceError(())"⟩

def wordAt (wordSize : ℕ) (bytes : List UInt8) (i : ℕ) : Except Panic ℕ := do
  let part ← slice bytes (i * wordSize) ((i + 1) * wordSize)
  wordOf wordSize part

def compareWords (wordSize : ℕ) (x y : List UInt8) (i : ℕ) : Except Panic Ordering := do
  let xPart ← wordAt wordSize x i
  let yPart ← wordAt wordSize y i
  return compare xPart yPart

def byteAt (bytes : List UInt8) (i : ℕ) : Except Panic UInt8 :=
  match bytes[i]? with
  | some byte => .ok byte
  | none => .error ⟨s!"index out of bounds: the len is {bytes.length} but the index is {i}"⟩

def compareBytes (x y : List UInt8) (i : ℕ) : Except Panic Ordering := do
  let xByte ← byteAt x i
  let yByte ← byteAt y i
  return compare xByte yByte

/-- The comparison of the server, built for keys of `keySize` bytes and a machine whose
words have `wordSize` bytes. -/
def leCmpKeys (keySize wordSize : ℕ) (x y : List UInt8) : Except Panic Ordering := do
  if keySize = wordSize then
    let xPart ← wordOf wordSize x
    let yPart ← wordOf wordSize y
    return compare xPart yPart
  else if keySize % wordSize = 0 then
    compareDown (compareWords wordSize x y) (keySize / wordSize)
  else
    compareDown (compareBytes x y) keySize

/-- The comparison of the recovery tool, which has no case of its own for a single word. -/
def Recovery.leCmpKeys (n wordSize : ℕ) (x y : List UInt8) : Except Panic Ordering :=
  if n % wordSize = 0 then compareDown (compareWords wordSize x y) (n / wordSize)
  else compareDown (compareBytes x y) n

/-! ## Going down the parts -/

section Parts

variable {wordSize n i : ℕ} {x y : List UInt8}

/-- The part of `x` in word `i`. -/
private def part (wordSize : ℕ) (x : List UInt8) (i : ℕ) : List UInt8 :=
  (x.drop (i * wordSize)).take wordSize

private theorem take_succ_mul :
    x.take ((i + 1) * wordSize) = x.take (i * wordSize) ++ part wordSize x i := by
  rw [Nat.succ_mul, List.take_add, part]

private theorem wordAt_eq (inside : (i + 1) * wordSize ≤ x.length) :
    wordAt wordSize x i = .ok (leValue (part wordSize x i)) := by
  have width : (i + 1) * wordSize - i * wordSize = wordSize := by
    rw [Nat.succ_mul, Nat.add_sub_cancel_left]
  have long : (part wordSize x i).length = wordSize := by
    rw [part, List.length_take, List.length_drop, Nat.min_eq_left]
    rw [Nat.succ_mul] at inside
    omega
  refine bind_eq_ok_iff.mpr ⟨part wordSize x i, ?_, if_pos long⟩
  rw [slice, if_pos inside, width, part]

/-- Comparing words from the last to the first compares the numbers they make up. -/
theorem compareDown_compareWords (longX : n * wordSize ≤ x.length)
    (longY : n * wordSize ≤ y.length) :
    compareDown (compareWords wordSize x y) n =
      .ok (compare (leValue (x.take (n * wordSize))) (leValue (y.take (n * wordSize)))) := by
  refine @compareDown_eq_ok _ _
    (fun i => compare (leValue (x.take (i * wordSize))) (leValue (y.take (i * wordSize)))) n ?_ ?_
  · simp
  · intro i below
    have inside : (i + 1) * wordSize ≤ n * wordSize := Nat.mul_le_mul_right wordSize below
    have lower : i * wordSize ≤ (i + 1) * wordSize := Nat.mul_le_mul_right wordSize i.le_succ
    refine ⟨compare (leValue (part wordSize x i)) (leValue (part wordSize y i)), ?_, ?_⟩
    · exact bind_eq_ok_iff.mpr ⟨_, wordAt_eq (inside.trans longX),
        bind_eq_ok_iff.mpr ⟨_, wordAt_eq (inside.trans longY), rfl⟩⟩
    · rw [take_succ_mul, take_succ_mul]
      apply compare_leValue_append
      rw [List.length_take, List.length_take, Nat.min_eq_left (lower.trans (inside.trans longX)),
        Nat.min_eq_left (lower.trans (inside.trans longY))]

private theorem byteAt_eq (inside : i < x.length) : byteAt x i = .ok x[i] := by
  rw [byteAt, List.getElem?_eq_getElem inside]

private theorem compare_toNat {a b : UInt8} : compare a b = compare a.toNat b.toNat := by
  simp only [compare, compareOfLessAndEq, UInt8.lt_iff_toNat_lt, UInt8.toNat_inj]

/-- So does comparing bytes. -/
theorem compareDown_compareBytes (longX : n ≤ x.length) (longY : n ≤ y.length) :
    compareDown (compareBytes x y) n =
      .ok (compare (leValue (x.take n)) (leValue (y.take n))) := by
  refine @compareDown_eq_ok _ _
    (fun i => compare (leValue (x.take i)) (leValue (y.take i))) n ?_ ?_
  · simp
  · intro i below
    have insideX : i < x.length := below.trans_le longX
    have insideY : i < y.length := below.trans_le longY
    refine ⟨compare x[i] y[i], ?_, ?_⟩
    · exact bind_eq_ok_iff.mpr ⟨_, byteAt_eq insideX,
        bind_eq_ok_iff.mpr ⟨_, byteAt_eq insideY, rfl⟩⟩
    · rw [← List.take_append_getElem insideX, ← List.take_append_getElem insideY,
        compare_leValue_append, leValue_singleton, leValue_singleton, compare_toNat]
      rw [List.length_take, List.length_take, Nat.min_eq_left insideX.le,
        Nat.min_eq_left insideY.le]

end Parts

/-! ## One order -/

section Order

variable {keySize wordSize : ℕ}

theorem Recovery.leCmpKeys_eq (x y : Vector UInt8 keySize) :
    Recovery.leCmpKeys keySize wordSize x.toList y.toList =
      .ok (compare (leValue x.toList) (leValue y.toList)) := by
  have wholeX : x.toList.take keySize = x.toList := List.take_of_length_le (by simp)
  have wholeY : y.toList.take keySize = y.toList := List.take_of_length_le (by simp)
  unfold Recovery.leCmpKeys
  split_ifs with divides
  · have width : keySize / wordSize * wordSize = keySize :=
      Nat.div_mul_cancel (Nat.dvd_of_mod_eq_zero divides)
    rw [compareDown_compareWords (by simp [width]) (by simp [width]), width, wholeX, wholeY]
  · rw [compareDown_compareBytes (by simp) (by simp), wholeX, wholeY]

theorem leCmpKeys_eq (x y : Vector UInt8 keySize) :
    leCmpKeys keySize wordSize x.toList y.toList =
      .ok (compare (leValue x.toList) (leValue y.toList)) := by
  unfold leCmpKeys
  split_ifs with single divides
  · -- the key is one word
    have word (z : Vector UInt8 keySize) : wordOf wordSize z.toList = .ok (leValue z.toList) :=
      if_pos (by rw [← single, Vector.length_toList])
    exact bind_eq_ok_iff.mpr ⟨_, word x, bind_eq_ok_iff.mpr ⟨_, word y, rfl⟩⟩
  · rw [← @Recovery.leCmpKeys_eq keySize wordSize, Recovery.leCmpKeys, if_pos divides]
  · rw [← @Recovery.leCmpKeys_eq keySize wordSize, Recovery.leCmpKeys, if_neg divides]

/-- The comparison returns, and `x` is not greater than `y`. -/
def KeyLE (keySize wordSize : ℕ) (x y : Vector UInt8 keySize) : Prop :=
  ∃ ord, leCmpKeys keySize wordSize x.toList y.toList = .ok ord ∧ ord ≠ .gt

theorem keyLE_iff {x y : Vector UInt8 keySize} :
    KeyLE keySize wordSize x y ↔ leValue x.toList ≤ leValue y.toList := by
  rw [KeyLE, leCmpKeys_eq]
  simp [Nat.compare_ne_gt]

/-- Keys of one size with one value are equal. -/
theorem leValue_toList_inj {x y : Vector UInt8 keySize} :
    leValue x.toList = leValue y.toList ↔ x = y := by
  constructor
  · intro same
    exact Vector.toList_inj.mp (eq_of_leValue_eq (by simp) same)
  · rintro rfl
    rfl

/-- For every size of keys and of words, both programs compare the little-endian numbers
of the keys. So their order is total, and only equal keys compare as equal. -/
theorem keys_are_ordered_by_value (keySize k : ℕ) :
    (∀ x y : Vector UInt8 keySize,
      leCmpKeys keySize (2 ^ k) x.toList y.toList =
        .ok (compare (leValue x.toList) (leValue y.toList)) ∧
      Recovery.leCmpKeys keySize (2 ^ k) x.toList y.toList =
        leCmpKeys keySize (2 ^ k) x.toList y.toList ∧
      (leCmpKeys keySize (2 ^ k) x.toList y.toList = .ok .eq ↔ x = y)) ∧
    (∀ x y, KeyLE keySize (2 ^ k) x y ∨ KeyLE keySize (2 ^ k) y x) ∧
    (∀ x y, KeyLE keySize (2 ^ k) x y → KeyLE keySize (2 ^ k) y x → x = y) ∧
    ∀ x y z, KeyLE keySize (2 ^ k) x y → KeyLE keySize (2 ^ k) y z → KeyLE keySize (2 ^ k) x z := by
  simp only [keyLE_iff]
  refine ⟨fun x y => ⟨leCmpKeys_eq x y, ?_, ?_⟩, fun x y => le_total _ _, fun x y le ge => ?_,
    fun x y z => le_trans⟩
  · rw [leCmpKeys_eq, Recovery.leCmpKeys_eq]
  · rw [leCmpKeys_eq, Except.ok.injEq, Nat.compare_eq_eq, leValue_toList_inj]
  · exact leValue_toList_inj.mp (le_antisymm le ge)

end Order

/-! ## The key types -/

/-- A key of the storage. Whatever it is made from is cut or filled to the size of keys. -/
structure Key (keySize : ℕ) where
  bytes : Vector UInt8 keySize
  deriving DecidableEq, Repr

namespace Key

variable {keySize : ℕ}

def partialCmp (wordSize : ℕ) (x y : Key keySize) : Except Panic (Option Ordering) :=
  (leCmpKeys keySize wordSize x.bytes.toList y.bytes.toList).map some

def cmp (wordSize : ℕ) (x y : Key keySize) : Except Panic Ordering := do
  match ← partialCmp wordSize x y with
  | some ord => return ord
  | none => .error ⟨"called `Option::unwrap()` on a `None` value"⟩

/-- Comparing keys never panics. -/
theorem cmp_eq (wordSize : ℕ) (x y : Key keySize) :
    cmp wordSize x y = .ok (compare (leValue x.bytes.toList) (leValue y.bytes.toList)) := by
  rw [cmp, partialCmp, leCmpKeys_eq]
  rfl

end Key

end Bob.KeyOrder

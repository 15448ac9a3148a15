/-
# Records as bytes

A storage keeps bytes: eight for the timestamp, the most significant first, and then the
data. What is written is read back, and any eight bytes or more are a record.

Fewer than eight bytes are not. Such a record can only come from a damaged blob. The
function that decodes it splits off eight bytes without looking at the length, which
aborts, so the error that it could return is never made.
-/

import Bob.Backend.Group
import Bob.Math.LittleEndian

namespace Bob

open Bob.Math Bob.Backend

variable {keySize : ℕ}

/-! ## The source -/

namespace BobData

def timestampLen : ℕ := 8

def toSerializedBytes (data : BobData) : List UInt8 :=
  (leBytes timestampLen data.bobMeta.timestamp.toNat).reverse ++ data.inner

/-- `Bytes::split_to`. -/
def splitTo (bytes : List UInt8) (at_ : ℕ) : Except Panic (List UInt8 × List UInt8) :=
  if at_ ≤ bytes.length then .ok (bytes.splitAt at_)
  else .error ⟨s!"split_to out of bounds: {at_} <= {bytes.length}"⟩

def fromSerializedBytes (bobData : List UInt8) : Except Panic (Except (Error keySize) BobData) := do
  let (tsBytes, bobData) ← splitTo bobData timestampLen
  if tsBytes.length = timestampLen then
    let timestamp := UInt64.ofNat (leValue tsBytes.reverse)
    return .ok ⟨bobData, ⟨timestamp⟩⟩
  else
    return .error (.storage "parse error: could not convert slice to array")

end BobData

/-- What a storage of bytes answers to a read of a key. -/
abbrev ByteStorage (keySize : ℕ) :=
  BobKey keySize → Except PearlError (ReadResult (List UInt8))

/-- `Holder::read`. There is no storage while it is starting. -/
def readSerialized (storage : Option (ByteStorage keySize)) (key : BobKey keySize) :
    Except Panic (Except (Error keySize) (ReadResult BobData)) :=
  match storage with
  | none => .ok (.error .vdiskIsNotReady)
  | some storage =>
    match storage key with
    | .error e => .ok (.error e.onAccess)
    | .ok (.found v) => do
      let decoded ← BobData.fromSerializedBytes v
      return decoded.map .found
    | .ok (.deleted ts) => .ok (.ok (.deleted ts))
    | .ok .notFound => .ok (.ok .notFound)

/-! ## Round trips -/

namespace BobData

theorem length_toSerializedBytes (data : BobData) :
    data.toSerializedBytes.length = timestampLen + data.inner.length := by
  rw [toSerializedBytes, List.length_append, List.length_reverse, length_leBytes]

/-- Bytes that are long enough are decoded. -/
theorem fromSerializedBytes_of_le {bytes : List UInt8} (long : timestampLen ≤ bytes.length) :
    (fromSerializedBytes bytes : Except Panic (Except (Error keySize) BobData)) =
      .ok (.ok ⟨bytes.drop timestampLen,
        ⟨UInt64.ofNat (leValue (bytes.take timestampLen).reverse)⟩⟩) := by
  have taken : (bytes.take timestampLen).length = timestampLen := List.length_take_of_le long
  rw [fromSerializedBytes, splitTo, if_pos long, List.splitAt_eq]
  exact if_pos taken

/-- Other bytes abort the node. -/
theorem fromSerializedBytes_of_lt {bytes : List UInt8} (short : bytes.length < timestampLen) :
    (fromSerializedBytes bytes : Except Panic (Except (Error keySize) BobData)) =
      .error ⟨s!"split_to out of bounds: {timestampLen} <= {bytes.length}"⟩ := by
  rw [fromSerializedBytes, splitTo, if_neg (Nat.not_le.mpr short)]
  rfl

theorem fromSerializedBytes_toSerializedBytes (data : BobData) :
    (fromSerializedBytes data.toSerializedBytes : Except Panic (Except (Error keySize) BobData)) =
      .ok (.ok data) := by
  have long : timestampLen ≤ data.toSerializedBytes.length := by
    rw [length_toSerializedBytes]
    exact Nat.le_add_right _ _
  have width : (leBytes timestampLen data.bobMeta.timestamp.toNat).reverse.length =
      timestampLen := by
    rw [List.length_reverse, length_leBytes]
  have small : data.bobMeta.timestamp.toNat < 256 ^ timestampLen :=
    data.bobMeta.timestamp.toNat_lt
  rw [fromSerializedBytes_of_le long, toSerializedBytes, List.drop_left' width,
    List.take_left' width, List.reverse_reverse, leValue_leBytes small, UInt64.ofNat_toNat]

theorem toSerializedBytes_of_le {bytes : List UInt8} (long : timestampLen ≤ bytes.length) :
    toSerializedBytes ⟨bytes.drop timestampLen,
      ⟨UInt64.ofNat (leValue (bytes.take timestampLen).reverse)⟩⟩ = bytes := by
  have width : (bytes.take timestampLen).reverse.length = timestampLen := by
    rw [List.length_reverse, List.length_take_of_le long]
  have small : leValue (bytes.take timestampLen).reverse < 2 ^ 64 := by
    have bound := @leValue_lt (bytes.take timestampLen).reverse
    rwa [width] at bound
  rw [toSerializedBytes]
  dsimp only
  rw [UInt64.toNat_ofNat_of_lt' small, leBytes_leValue width, List.reverse_reverse,
    List.take_append_drop]

end BobData

/-! ## Reading -/

theorem readSerialized_found {storage : ByteStorage keySize} {key : BobKey keySize}
    {bytes : List UInt8} (found : storage key = .ok (.found bytes)) :
    readSerialized (some storage) key =
      (BobData.fromSerializedBytes bytes).map (Except.map .found) := by
  simp only [readSerialized, found]
  rfl

/-- The bytes of an answer. -/
def serialize : ReadResult BobData → ReadResult (List UInt8)
  | .found data => .found data.toSerializedBytes
  | .deleted timestamp => .deleted timestamp
  | .notFound => .notFound

/-- Where the storage has the bytes of what was written, a read is that of the storage
without the bytes, and does not abort. -/
theorem readSerialized_eq_read {engine : StorageEngine keySize}
    {raw : engine.Storage → ByteStorage keySize}
    (written : ∀ storage key, raw storage key = (engine.read storage key).map serialize)
    (holder : Holder engine) (key : BobKey keySize) :
    readSerialized (holder.storage.map raw) key = .ok (holder.read key) := by
  cases ready : holder.storage with
  | none => simp only [Option.map_none, readSerialized, Holder.read, ready]
  | some storage =>
    have bytes := written storage key
    rw [Holder.read, ready, Option.map_some]
    dsimp only
    cases answer : engine.read storage key with
    | error e =>
      rw [answer] at bytes
      simp only [readSerialized, bytes, Except.map]
      rfl
    | ok result =>
      rw [answer] at bytes
      cases result with
      | found data =>
        rw [readSerialized_found bytes, BobData.fromSerializedBytes_toSerializedBytes]
        rfl
      | deleted _ | notFound =>
        simp only [readSerialized, bytes, Except.map, serialize]
        rfl

/-- Records are read back as they were written, bytes that are long enough are a record, and
others are reported as an error. -/
def RecordRight (keySize : ℕ) (bytes : List UInt8) : Prop :=
  (∀ data : BobData, (BobData.fromSerializedBytes data.toSerializedBytes :
      Except Panic (Except (Error keySize) BobData)) = .ok (.ok data)) ∧
  (BobData.timestampLen ≤ bytes.length → ∃ data : BobData, (BobData.fromSerializedBytes bytes :
      Except Panic (Except (Error keySize) BobData)) = .ok (.ok data) ∧
    data.toSerializedBytes = bytes) ∧
  (bytes.length < BobData.timestampLen → ∀ (storage : ByteStorage keySize) key,
    storage key = .ok (.found bytes) →
      ∃ e, readSerialized (some storage) key = .ok (.error e))

/-- All of this holds but the last: a record of fewer bytes aborts the read. -/
theorem recordRight_iff (bytes : List UInt8) :
    RecordRight keySize bytes ↔ BobData.timestampLen ≤ bytes.length := by
  constructor
  · rintro ⟨-, -, reported⟩
    by_contra short
    have few := Nat.not_le.mp short
    obtain ⟨e, read⟩ := reported few (fun _ => .ok (.found bytes)) ⟨Vector.replicate _ 0⟩ rfl
    rw [readSerialized_found rfl, BobData.fromSerializedBytes_of_lt few] at read
    cases read
  · intro long
    refine ⟨BobData.fromSerializedBytes_toSerializedBytes, fun _ => ?_, fun short => ?_⟩
    · exact ⟨_, BobData.fromSerializedBytes_of_le long, BobData.toSerializedBytes_of_le long⟩
    · exact absurd long (Nat.not_le.mpr short)

/-- Three bytes are left of a record. -/
theorem short_record_aborts_read :
    readSerialized (some fun _ => .ok (.found [1, 2, 3])) (⟨Vector.replicate 8 0⟩ : BobKey 8) =
        .error ⟨"split_to out of bounds: 8 <= 3"⟩ ∧
      ¬ RecordRight 8 [1, 2, 3] := by
  refine ⟨rfl, ?_⟩
  rintro ⟨-, -, reported⟩
  obtain ⟨e, read⟩ := reported (by decide) (fun _ => .ok (.found [1, 2, 3]))
    ⟨Vector.replicate 8 0⟩ rfl
  cases read

end Bob

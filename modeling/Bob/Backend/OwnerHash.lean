/-
# The hash in the name of a partition

A partition is named after its start and a hash of the node that owns it. The hash is the
SHA-256 value of the name of the node, written with a table of 64 letters, digits and
signs and cut to a configured length. No symbol of the table is an underscore, so a name
that was printed is taken apart into the same parts again, and a group that starts finds
the partitions it has made.

SHA-256 itself is a parameter. Nothing depends on what it computes.
-/

import Bob.Math.Sextets
import Bob.Backend.PartitionName

namespace Bob.Backend.OwnerHash

open Bob.Math

/-- `ASCII_TRANSLATION`: the codes of the digits, of the letters and of two signs. -/
def asciiTranslation : List UInt8 :=
  ((List.range 256).map UInt8.ofNat).filter fun i =>
    (i > 47 && i < 58) || (i > 64 && i < 91) || (i > 96 && i < 123) || i == 45 || i == 43

/-- `ASCII_TRANSLATION[bits as usize]` -/
def translate (bits : UInt8) : Except Panic UInt8 :=
  match asciiTranslation[bits.toNat]? with
  | some symbol => .ok symbol
  | none => .error ⟨s!"index out of bounds: the len is 64 but the index is {bits}"⟩

/-- The slices of three bytes. The last may be shorter. -/
def slices : List UInt8 → List (List UInt8)
  | [] => []
  | a :: b :: c :: rest => [a, b, c] :: slices rest
  | bytes => [bytes]

/-- The symbols of a slice. -/
def translateSlice (bytes : List UInt8) : Except Panic (List UInt8) := do
  match bytes with
  | [] => return []
  | first :: rest =>
    -- first 6 bits of first byte
    let one ← translate (first >>> 2)
    -- last 2 bits of first byte and first 4 bits of second byte
    let two ← translate (((first <<< 4) &&& (0b110000 : UInt8)) ||| (rest.headD 0 >>> 4))
    match rest with
    | [] => return [one, two]
    | second :: rest =>
      -- last 4 bits of second byte and first 2 bits of third byte
      let three ← translate
        ((second &&& (0b1111 : UInt8)) ||| ((rest.headD 0 >>> 2) &&& (0b110000 : UInt8)))
      match rest with
      | [] => return [one, two, three]
      | third :: _ =>
        -- last 6 bits of third byte
        let four ← translate (third &&& 0b111111)
        return [one, two, three, four]

/-- The text of a hash value. -/
def hashText (hash : List UInt8) (hashCharsCount : UInt32) : Except Panic String := do
  let hex ← (slices hash).mapM translateSlice
  let hex := hex.flatten.take hashCharsCount.toNat
  match String.fromUTF8? ⟨hex.toArray⟩ with
  | some text => return text
  | none => .error ⟨"called `Result::unwrap()` on an `Err` value: FromUtf8Error"⟩

def getOwnerNodeHash (digest : String → Vector UInt8 32) (ownerNodeIdentifier : String)
    (hashCharsCount : UInt32) : Except Panic String :=
  hashText (digest ownerNodeIdentifier).toList hashCharsCount

/-! ## Symbols -/

/-- The symbol of six bits. -/
def symbol (bits : ℕ) : UInt8 := asciiTranslation.getD bits 0

/-- The six bits of a symbol. -/
def value (c : Char) : ℕ := asciiTranslation.idxOf (UInt8.ofNat c.toNat)

private theorem symbol_spec : ∀ bits < 64, asciiTranslation[bits]? = some (symbol bits) ∧
    (symbol bits).toNat < 128 ∧ Char.ofNat (symbol bits).toNat ≠ '_' ∧
    value (Char.ofNat (symbol bits).toNat) = bits := by
  decide +kernel

private theorem translate_eq {bits : UInt8} {value : ℕ} (same : bits.toNat = value)
    (small : value < 64) : translate bits = .ok (symbol value) := by
  rw [translate, same, (symbol_spec value small).1]

section Bits

variable {a b c : UInt8}

private theorem upper_six : (a >>> 2).toNat = a.toNat / 4 := by
  rw [UInt8.toNat_shiftRight]
  exact Nat.shiftRight_eq_div_pow _ 2

private theorem lower_two : ((a <<< 4) &&& 0b110000).toNat = (a.toNat % 4) <<< 4 := by
  have each : ∀ n < 256, ((n <<< 4) % 256) &&& 48 = (n % 4) <<< 4 := by decide +kernel
  rw [UInt8.toNat_and, UInt8.toNat_shiftLeft]
  exact each a.toNat a.toNat_lt

private theorem upper_two : (c >>> 2 &&& 0b110000).toNat = (c.toNat / 64) <<< 4 := by
  have each : ∀ n < 256, (n >>> 2) &&& 48 = (n / 64) <<< 4 := by decide +kernel
  rw [UInt8.toNat_and, UInt8.toNat_shiftRight]
  exact each c.toNat c.toNat_lt

private theorem upper_four : (b >>> 4).toNat = b.toNat / 16 := by
  rw [UInt8.toNat_shiftRight]
  exact Nat.shiftRight_eq_div_pow _ 4

private theorem lower_four : (b &&& 0b1111).toNat = b.toNat % 16 := by
  rw [UInt8.toNat_and]
  exact Nat.and_two_pow_sub_one_eq_mod b.toNat 4

private theorem lower_six : (c &&& 0b111111).toNat = c.toNat % 64 := by
  rw [UInt8.toNat_and]
  exact Nat.and_two_pow_sub_one_eq_mod c.toNat 6

/-- Two bits of the first byte over four of the second. -/
private theorem second_group :
    (((a <<< 4) &&& (0b110000 : UInt8)) ||| (b >>> 4)).toNat = a.toNat % 4 * 16 + b.toNat / 16 := by
  have small : b.toNat / 16 < 2 ^ 4 := by
    have := b.toNat_lt
    omega
  rw [UInt8.toNat_or, lower_two, upper_four, ← Nat.shiftLeft_add_eq_or_of_lt small,
    Nat.shiftLeft_eq]

/-- Two bits of the third byte over four of the second. -/
private theorem third_group :
    ((b &&& (0b1111 : UInt8)) ||| ((c >>> 2) &&& (0b110000 : UInt8))).toNat =
      b.toNat % 16 + c.toNat / 64 * 16 := by
  have small : b.toNat % 16 < 2 ^ 4 := Nat.mod_lt _ (by decide)
  rw [UInt8.toNat_or, lower_four, upper_two, Nat.or_comm, ← Nat.shiftLeft_add_eq_or_of_lt small,
    Nat.shiftLeft_eq, Nat.add_comm]

end Bits

/-! ## The text of a hash -/

/-- A slice is translated to the symbols of its groups of six bits. -/
theorem translateSlice_eq : ∀ {bytes : List UInt8}, bytes.length ≤ 3 →
    translateSlice bytes = .ok ((sextets bytes).map symbol)
  | [], _ => rfl
  | [a], _ => by
    have ha := a.toNat_lt
    have one := @translate_eq (a >>> 2) _ upper_six (by omega)
    have two := @translate_eq _ _ (@second_group a 0) (by simp; omega)
    exact bind_eq_ok_iff.mpr ⟨_, one, bind_eq_ok_iff.mpr ⟨_, two, rfl⟩⟩
  | [a, b], _ => by
    have ha := a.toNat_lt
    have hb := b.toNat_lt
    have one := @translate_eq (a >>> 2) _ upper_six (by omega)
    have two := @translate_eq _ _ (@second_group a b) (by omega)
    have three := @translate_eq _ _ (@third_group b 0) (by simp; omega)
    exact bind_eq_ok_iff.mpr ⟨_, one, bind_eq_ok_iff.mpr ⟨_, two,
      bind_eq_ok_iff.mpr ⟨_, three, rfl⟩⟩⟩
  | [a, b, c], _ => by
    have ha := a.toNat_lt
    have hb := b.toNat_lt
    have hc := c.toNat_lt
    have one := @translate_eq (a >>> 2) _ upper_six (by omega)
    have two := @translate_eq _ _ (@second_group a b) (by omega)
    have three := @translate_eq _ _ (@third_group b c) (by omega)
    have four := @translate_eq _ _ (@lower_six c) (by omega)
    exact bind_eq_ok_iff.mpr ⟨_, one, bind_eq_ok_iff.mpr ⟨_, two,
      bind_eq_ok_iff.mpr ⟨_, three, bind_eq_ok_iff.mpr ⟨_, four, rfl⟩⟩⟩⟩

/-- Translating all slices gives the symbols of the whole text of bytes. -/
theorem mapM_translateSlice (hash : List UInt8) :
    ∃ hex, (slices hash).mapM translateSlice = .ok hex ∧
      hex.flatten = (sextets hash).map symbol := by
  induction hash using sextets.induct with
  | case1 => exact ⟨[], rfl, rfl⟩
  | case2 a =>
    refine ⟨[(sextets [a]).map symbol], mapM_eq_ok_iff.mpr (.cons ?_ .nil), ?_⟩
    · exact translateSlice_eq (by simp)
    · exact List.append_nil _
  | case3 a b =>
    refine ⟨[(sextets [a, b]).map symbol], mapM_eq_ok_iff.mpr (.cons ?_ .nil), ?_⟩
    · exact translateSlice_eq (by simp)
    · exact List.append_nil _
  | case4 a b c rest ih =>
    obtain ⟨hex, translated, flat⟩ := ih
    refine ⟨(sextets [a, b, c]).map symbol :: hex,
      mapM_eq_ok_iff.mpr (.cons ?_ (mapM_eq_ok_iff.mp translated)), ?_⟩
    · exact translateSlice_eq (by simp)
    · rw [List.flatten_cons, flat, ← List.map_append]
      rfl

/-- The characters of the text of a hash. -/
def hashChars (hash : List UInt8) (count : ℕ) : List Char :=
  (((sextets hash).map symbol).take count).map fun byte => Char.ofNat byte.toNat

/-- The text of a hash is computed, with no index out of range and in valid UTF-8. -/
theorem hashText_eq (hash : List UInt8) (count : UInt32) :
    hashText hash count = .ok (String.ofList (hashChars hash count.toNat)) := by
  obtain ⟨hex, translated, flat⟩ := mapM_translateSlice hash
  have ascii : ∀ byte ∈ hex.flatten.take count.toNat, byte.toNat < 128 := by
    intro byte member
    have listed := List.mem_of_mem_take member
    rw [flat] at listed
    obtain ⟨bits, here, rfl⟩ := List.mem_map.mp listed
    exact (symbol_spec bits (sextets_lt hash bits here)).2.1
  refine bind_eq_ok_iff.mpr ⟨hex, translated, ?_⟩
  dsimp only
  rw [fromUTF8?_ascii ascii, flat]
  rfl

theorem length_hashChars (hash : Vector UInt8 32) (count : ℕ) :
    (hashChars hash.toList count).length = min count 43 := by
  rw [hashChars, List.length_map, List.length_take, List.length_map, length_sextets,
    Vector.length_toList]

/-- No symbol is an underscore. -/
theorem underscore_not_mem_hashChars (hash : List UInt8) (count : ℕ) :
    '_' ∉ hashChars hash count := by
  intro member
  obtain ⟨byte, listed, same⟩ := List.mem_map.mp member
  obtain ⟨bits, here, rfl⟩ := List.mem_map.mp (List.mem_of_mem_take listed)
  exact (symbol_spec bits (sextets_lt hash bits here)).2.2.1 same

/-- The groups of six bits are read back from the text. -/
theorem map_value_hashChars (hash : List UInt8) (count : ℕ) :
    (hashChars hash count).map value = (sextets hash).take count := by
  rw [hashChars, List.map_map, ← List.map_take, List.map_map]
  conv_rhs => rw [← List.map_id ((sextets hash).take count)]
  refine List.map_congr_left fun bits here => ?_
  exact (symbol_spec bits (sextets_lt hash bits (List.mem_of_mem_take here))).2.2.2

/-- Hash values whose whole text is the same are equal. -/
theorem eq_of_hashChars_eq {hash hash' : Vector UInt8 32} {count : ℕ} (whole : 43 ≤ count)
    (same : hashChars hash.toList count = hashChars hash'.toList count) : hash = hash' := by
  have untouched (value : Vector UInt8 32) :
      (sextets value.toList).take count = sextets value.toList := by
    apply List.take_of_length_le
    rw [length_sextets, Vector.length_toList]
    exact whole
  have groups := congrArg (List.map value) same
  rw [map_value_hashChars, map_value_hashChars, untouched, untouched] at groups
  exact Vector.toList_inj.mp (eq_of_sextets_eq (by simp) groups)

/-- A name with the text of a hash is read back. -/
theorem tryFromString_hashChars (hash : List UInt8) (count : ℕ) (startTimestamp : UInt64) :
    PartitionName.tryFromString (PartitionName.mk startTimestamp.toNat
        (String.ofList (hashChars hash count))).display =
      some ⟨startTimestamp.toNat, String.ofList (hashChars hash count)⟩ := by
  apply PartitionName.tryFromString_display startTimestamp.toNat_lt
  rw [String.toList_ofList]
  exact underscore_not_mem_hashChars hash count

/-- For every node, length and start, the hash of the node is computed and has the length
asked for, and the name of a partition made with it is read back. With the full length,
different hash values have different texts. -/
theorem created_partition_is_recognised (digest : String → Vector UInt8 32)
    (ownerNodeIdentifier : String) (hashCharsCount : UInt32) (startTimestamp : UInt64) :
    (∃ hash, getOwnerNodeHash digest ownerNodeIdentifier hashCharsCount = .ok hash ∧
      '_' ∉ hash.toList ∧ hash.toList.length = min hashCharsCount.toNat 43 ∧
      PartitionName.tryFromString (PartitionName.mk startTimestamp.toNat hash).display =
        some ⟨startTimestamp.toNat, hash⟩) ∧
    (43 ≤ hashCharsCount.toNat → ∀ (digest' : String → Vector UInt8 32) (other : String),
      getOwnerNodeHash digest ownerNodeIdentifier hashCharsCount =
        getOwnerNodeHash digest' other hashCharsCount →
      digest ownerNodeIdentifier = digest' other) := by
  constructor
  · refine ⟨_, hashText_eq _ _, ?_, ?_, tryFromString_hashChars _ _ _⟩
    · rw [String.toList_ofList]
      exact underscore_not_mem_hashChars _ _
    · rw [String.toList_ofList, length_hashChars]
  · intro whole digest' other same
    rw [getOwnerNodeHash, getOwnerNodeHash, hashText_eq, hashText_eq, Except.ok.injEq] at same
    exact eq_of_hashChars_eq whole (String.ofList_injective same)

end Bob.Backend.OwnerHash

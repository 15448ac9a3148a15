/-
# Keys of the REST interface

A key in a path is a GUID, a number in base 16 behind `0x`, or a decimal number. The bytes
of a GUID and those of a number in base 16 are taken in the order they are written in, those
of a decimal number from the least significant one on. Bytes beyond the size of a key have to
be zero, and missing ones are.

Reading the bytes as a number, the least significant first, the last condition says that
the number fits in the size of a key.
-/

import Bob.Math.LittleEndian
import Bob.Server.Decode

namespace Bob.Api

open Bob.Math

/-! ## Answers -/

/-- The codes of the answers that are modelled. -/
inductive StatusCode
  | ok
  | created
  | notModified
  | badRequest
  | unauthorized
  | forbidden
  | notFound
  | conflict
  | preconditionFailed
  | internalServerError
  | serviceUnavailable
  deriving DecidableEq, Repr

structure StatusExt where
  status : StatusCode
  ok : Bool
  msg : String
  deriving DecidableEq, Repr

def badRequest (message : String) : StatusExt := ⟨.badRequest, false, message⟩

/-! ## The source -/

/-- The parser of GUIDs. -/
abbrev GuidParser := List Char → Except String (Vector UInt8 16)

def isAsciiHexdigit (byte : UInt8) : Bool :=
  (48 ≤ byte && byte ≤ 57) || (65 ≤ byte && byte ≤ 70) || (97 ≤ byte && byte ≤ 102)

/-- The bytes of a text. -/
def asBytes (text : List Char) : List UInt8 := text.flatMap String.utf8EncodeChar

def chunks2 {α : Type*} : List α → List (List α)
  | [] => []
  | [a] => [[a]]
  | a :: b :: rest => [a, b] :: chunks2 rest

/-- `rchunks(2)`: pairs from the end on, and a single item is left at the start. -/
def rchunks2 {α : Type*} (items : List α) : List (List α) :=
  (chunks2 items.reverse).map List.reverse

/-- `u8::from_str_radix` in base 16 of a text of one or two characters. -/
def u8FromStrRadix : List Char → Option UInt8
  | [c] => (hexDigitValue c).map UInt8.ofNat
  | [c, d] => fromStrRadix c d
  | _ => none

def hexByte (chunk : List UInt8) : Except Panic UInt8 :=
  match (String.fromUTF8? ⟨chunk.toArray⟩).bind fun text => u8FromStrRadix text.toList with
  | some byte => .ok byte
  | none => .error ⟨"All chars is ascii hexdigits"⟩

/-- How an error of `str::parse` is printed. -/
def displayKind : IntErrorKind → String
  | .empty => "cannot parse integer from empty string"
  | .invalidDigit => "invalid digit found in string"
  | .posOverflow => "number too large to fit in target type"

namespace DataKey

variable {keySize : ℕ}

def fromBytes (bytes : List UInt8) : Except Panic (Except StatusExt (BobKey keySize)) :=
  if bytes.length > keySize ∧ !(bytes.drop keySize).all (· = 0) then
    .ok (.error (badRequest "Key overflow"))
  else do
    let key ← BobKey.ofVec (bytes.take keySize ++ List.replicate (keySize - bytes.length) 0)
    return .ok key

def fromGuid (parse : GuidParser) (guid : List Char) :
    Except Panic (Except StatusExt (BobKey keySize)) :=
  match parse guid with
  | .error e => .ok (.error (badRequest s!"GUID parse error: {e}"))
  | .ok guid => fromBytes guid.toList

def fromHex (hex : List Char) : Except Panic (Except StatusExt (BobKey keySize)) :=
  if !(asBytes hex).all isAsciiHexdigit then
    .ok (.error (badRequest "Hex parse error: non hexadecimal symbol in parameter"))
  else do
    let bytes ← (rchunks2 (asBytes hex)).mapM hexByte
    fromBytes bytes.reverse

def fromDecimal (decimal : List Char) : Except Panic (Except StatusExt (BobKey keySize)) :=
  match readDecimal (2 ^ 128) decimal with
  | .error e => .ok (.error (badRequest s!"Decimal parse error: {displayKind e}"))
  | .ok number => fromBytes (leBytes 16 number)

/-- The text without its first and its last byte. -/
def inner (param : List Char) : Except Panic (List Char) :=
  if (asBytes param).length < 2 then
    .error ⟨"begin <= end (1 <= 0) when slicing"⟩
  else .ok param.tail.dropLast

def fromStr (parse : GuidParser) (param : List Char) :
    Except Panic (Except StatusExt (BobKey keySize)) :=
  if param.head? = some '\x7b' ∧ param.getLast? = some '\x7d' then do
    let guid ← inner param
    fromGuid parse guid
  else if '-' ∈ param then fromGuid parse param
  else if ['0', 'x'] <+: param then fromHex (param.drop 2)
  else if param.all (·.isDigit) then fromDecimal param
  else .ok (.error ⟨.badRequest, false, "Invalid key format"⟩)

end DataKey

/-! ## Bytes -/

/-- A key, or an answer that the request is bad. There is no panic. -/
def Answered {α : Type*} (result : Except Panic (Except StatusExt α)) : Prop :=
  ∃ answer, result = .ok answer ∧ ∀ e, answer = .error e → e.status = .badRequest

theorem answered_ok {α : Type*} (value : α) : Answered (.ok (.ok value)) :=
  ⟨_, rfl, fun _ same => nomatch same⟩

theorem answered_badRequest {α : Type*} (message : String) :
    Answered (.ok (.error (badRequest message) : Except StatusExt α)) :=
  ⟨_, rfl, fun _ same => by rw [← Except.error.inj same]; rfl⟩

namespace DataKey

variable {keySize : ℕ} {bytes : List UInt8}

theorem overflow_iff :
    (bytes.length > keySize ∧ !(bytes.drop keySize).all (· = 0)) ↔
      ¬ leValue bytes < 256 ^ keySize := by
  rw [leValue_lt_iff]
  simp only [Bool.not_eq_true', List.all_eq_false, decide_eq_true_eq, not_forall, exists_prop,
    gt_iff_lt, and_iff_right_iff_imp]
  rintro ⟨byte, member, -⟩
  by_contra short
  rw [List.drop_of_length_le (Nat.not_lt.mp short)] at member
  cases member

/-- Bytes of a number that fits are a key with this number. -/
theorem fromBytes_of_lt (fits : leValue bytes < 256 ^ keySize) :
    ∃ key : BobKey keySize, fromBytes bytes = .ok (.ok key) ∧
      leValue key.bytes.toList = leValue bytes := by
  have length : (bytes.take keySize ++ List.replicate (keySize - bytes.length) 0).length =
      keySize := by
    rw [List.length_append, List.length_take, List.length_replicate]
    omega
  refine ⟨⟨⟨_, length⟩⟩, ?_, ?_⟩
  · rw [fromBytes, if_neg (fun large => overflow_iff.mp large fits), BobKey.ofVec, dif_pos length]
    rfl
  · rw [Vector.toList_mk, List.toList_toArray]
    exact leValue_take_append_zeros fits

theorem fromBytes_of_le (large : 256 ^ keySize ≤ leValue bytes) :
    (fromBytes bytes : Except Panic (Except StatusExt (BobKey keySize))) =
      .ok (.error (badRequest "Key overflow")) :=
  if_pos (overflow_iff.mpr (Nat.not_lt.mpr large))

theorem answered_fromBytes (bytes : List UInt8) :
    Answered (fromBytes bytes : Except Panic (Except StatusExt (BobKey keySize))) := by
  rcases Nat.lt_or_ge (leValue bytes) (256 ^ keySize) with fits | large
  · obtain ⟨key, read, -⟩ := @fromBytes_of_lt keySize bytes fits
    rw [read]
    exact answered_ok key
  · rw [fromBytes_of_le large]
    exact answered_badRequest _

/-- The bytes of a key are read as they are. -/
theorem fromBytes_toList (key : BobKey keySize) : fromBytes key.bytes.toList = .ok (.ok key) := by
  have width : key.bytes.toList.length = keySize := Vector.length_toList
  have fits : leValue key.bytes.toList < 256 ^ keySize := by
    have bound := @leValue_lt key.bytes.toList
    rwa [width] at bound
  obtain ⟨other, read, same⟩ := fromBytes_of_lt fits
  have bytes : other.bytes.toList = key.bytes.toList :=
    eq_of_leValue_eq (by rw [width, Vector.length_toList]) same
  have keys : other = key := congrArg BobKey.mk (Vector.toList_inj.mp bytes)
  rw [read, keys]

end DataKey

/-! ## Base 16 -/

section Chunks

variable {α β : Type*} {items : List α} {chunk : List α}

theorem mem_chunks2 (member : chunk ∈ chunks2 items) :
    (∃ a ∈ items, chunk = [a]) ∨ ∃ a ∈ items, ∃ b ∈ items, chunk = [a, b] := by
  induction items using chunks2.induct with
  | case1 => cases member
  | case2 a => exact .inl ⟨a, List.mem_singleton_self a, List.mem_singleton.mp member⟩
  | case3 a b rest ih =>
    rcases List.mem_cons.mp member with rfl | later
    · exact .inr ⟨a, by simp, b, by simp, rfl⟩
    · refine (ih later).imp ?_ ?_
      · rintro ⟨c, hc, rfl⟩
        exact ⟨c, by simp [hc], rfl⟩
      · rintro ⟨c, hc, d, hd, rfl⟩
        exact ⟨c, by simp [hc], d, by simp [hd], rfl⟩

theorem mem_rchunks2 (member : chunk ∈ rchunks2 items) :
    (∃ a ∈ items, chunk = [a]) ∨ ∃ a ∈ items, ∃ b ∈ items, chunk = [a, b] := by
  obtain ⟨turned, hturned, rfl⟩ := List.mem_map.mp member
  refine (mem_chunks2 hturned).imp ?_ ?_
  · rintro ⟨a, ha, rfl⟩
    exact ⟨a, List.mem_reverse.mp ha, rfl⟩
  · rintro ⟨a, ha, b, hb, rfl⟩
    exact ⟨b, List.mem_reverse.mp hb, a, List.mem_reverse.mp ha, rfl⟩

/-- Items that were written as pairs are cut into these pairs, the last one first. -/
theorem rchunks2_flatMap (f g : β → α) (items : List β) :
    rchunks2 (items.flatMap fun item => [f item, g item]) =
      (items.map fun item => [f item, g item]).reverse := by
  induction items using List.reverseRecOn with
  | nil => rfl
  | append_singleton items item ih =>
    rw [rchunks2] at ih ⊢
    rw [List.flatMap_append, List.reverse_append, List.map_append, List.reverse_append, ← ih]
    rfl

end Chunks

/-- A digit of base 16 is ASCII, has a value, and is not a sign. -/
private theorem hexdigit_spec : ∀ n < 128, isAsciiHexdigit (UInt8.ofNat n) = true →
    (hexDigitValue (Char.ofNat n)).isSome = true ∧ Char.ofNat n ≠ '+' := by decide

theorem lt_of_isAsciiHexdigit {byte : UInt8} (digit : isAsciiHexdigit byte = true) :
    byte.toNat < 128 := by
  simp only [isAsciiHexdigit, Bool.or_eq_true, Bool.and_eq_true, decide_eq_true_eq,
    UInt8.le_iff_toNat_le] at digit
  simp only [UInt8.reduceToNat] at digit
  omega

theorem exists_hexDigitValue {byte : UInt8} (digit : isAsciiHexdigit byte = true) :
    (∃ value, hexDigitValue (Char.ofNat byte.toNat) = some value) ∧
      Char.ofNat byte.toNat ≠ '+' := by
  have spec := hexdigit_spec byte.toNat (lt_of_isAsciiHexdigit digit)
    (by rwa [UInt8.ofNat_toNat])
  exact ⟨Option.isSome_iff_exists.mp spec.1, spec.2⟩

/-- What is in a chunk of ASCII. -/
theorem hexByte_eq {chunk : List UInt8} (ascii : ∀ byte ∈ chunk, byte.toNat < 128) {byte : UInt8}
    (read : u8FromStrRadix (chunk.map fun byte => Char.ofNat byte.toNat) = some byte) :
    hexByte chunk = .ok byte := by
  rw [hexByte, fromUTF8?_ascii ascii, Option.bind_some, String.toList_ofList, read]

/-- Chunks of digits are read. -/
theorem exists_hexByte {chunk : List UInt8} (digits : ∀ byte ∈ chunk, isAsciiHexdigit byte = true)
    (size : (∃ a, chunk = [a]) ∨ ∃ a b, chunk = [a, b]) : ∃ byte, hexByte chunk = .ok byte := by
  have ascii : ∀ byte ∈ chunk, byte.toNat < 128 :=
    fun byte member => lt_of_isAsciiHexdigit (digits byte member)
  rcases size with ⟨a, rfl⟩ | ⟨a, b, rfl⟩
  · obtain ⟨⟨value, hvalue⟩, -⟩ := exists_hexDigitValue (digits a (by simp))
    have read : u8FromStrRadix [Char.ofNat a.toNat] = some (UInt8.ofNat value) := by
      rw [u8FromStrRadix, hvalue, Option.map_some]
    exact ⟨_, hexByte_eq ascii read⟩
  · obtain ⟨⟨high, hhigh⟩, unsigned⟩ := exists_hexDigitValue (digits a (by simp))
    obtain ⟨⟨low, hlow⟩, -⟩ := exists_hexDigitValue (digits b (by simp))
    have read : u8FromStrRadix [Char.ofNat a.toNat, Char.ofNat b.toNat] =
        some (UInt8.ofNat (16 * high + low)) := by
      rw [u8FromStrRadix, fromStrRadix, if_neg unsigned, hhigh, hlow]
      rfl
    exact ⟨_, hexByte_eq ascii read⟩

/-- The byte of a digit of a number below 16. -/
def hexCode (n : ℕ) : UInt8 := UInt8.ofNat (upperHexDigit n).toNat

private theorem hexCode_spec : ∀ n < 16, String.utf8EncodeChar (upperHexDigit n) = [hexCode n] ∧
    isAsciiHexdigit (hexCode n) = true ∧ Char.ofNat (hexCode n).toNat = upperHexDigit n ∧
    upperHexDigit n ≠ '-' := by decide

theorem asBytes_digits (bytes : List UInt8) :
    asBytes (bytes.flatMap fun byte =>
      [upperHexDigit (byte.toNat / 16), upperHexDigit (byte.toNat % 16)]) =
      bytes.flatMap fun byte => [hexCode (byte.toNat / 16), hexCode (byte.toNat % 16)] := by
  rw [asBytes, List.flatMap_assoc]
  refine List.flatMap_congr fun byte _ => ?_
  have small := byte.toNat_lt
  obtain ⟨high, -⟩ := hexCode_spec (byte.toNat / 16) (by omega)
  obtain ⟨low, -⟩ := hexCode_spec (byte.toNat % 16) (by omega)
  rw [List.flatMap_cons, List.flatMap_singleton, high, low]
  rfl

theorem hexByte_hexCode (byte : UInt8) :
    hexByte [hexCode (byte.toNat / 16), hexCode (byte.toNat % 16)] = .ok byte := by
  have small := byte.toNat_lt
  obtain ⟨-, highDigit, high, -⟩ := hexCode_spec (byte.toNat / 16) (by omega)
  obtain ⟨-, lowDigit, low, -⟩ := hexCode_spec (byte.toNat % 16) (by omega)
  refine hexByte_eq ?_ ?_
  · simp [lt_of_isAsciiHexdigit highDigit, lt_of_isAsciiHexdigit lowDigit]
  · rw [List.map_cons, List.map_singleton, high, low]
    exact fromStrRadix_upperHexDigit byte

namespace DataKey

variable {keySize : ℕ} {parse : GuidParser}

theorem answered_fromHex (hex : List Char) :
    Answered (fromHex hex : Except Panic (Except StatusExt (BobKey keySize))) := by
  rw [fromHex]
  split_ifs with wrong
  · exact answered_badRequest _
  · have digits : ∀ byte ∈ asBytes hex, isAsciiHexdigit byte = true := by simpa using wrong
    have chunks : ∃ bytes, (rchunks2 (asBytes hex)).mapM hexByte = .ok bytes := by
      refine exists_mapM_eq_ok fun chunk member => ?_
      rcases mem_rchunks2 member with ⟨a, ha, rfl⟩ | ⟨a, ha, b, hb, rfl⟩
      · exact exists_hexByte (by simpa using digits a ha) (.inl ⟨a, rfl⟩)
      · exact exists_hexByte (by simpa using ⟨digits a ha, digits b hb⟩) (.inr ⟨a, b, rfl⟩)
    obtain ⟨bytes, read⟩ := chunks
    rw [read]
    exact answered_fromBytes _

/-- A key is read from its text. -/
theorem fromHex_display (key : BobKey keySize) : fromHex key.display.toList = .ok (.ok key) := by
  have digits : (asBytes key.display.toList).all isAsciiHexdigit = true := by
    rw [BobKey.display, String.toList_ofList, asBytes_digits, List.all_eq_true]
    intro code member
    obtain ⟨byte, -, hcode⟩ := List.mem_flatMap.mp member
    have small := byte.toNat_lt
    rcases List.mem_pair.mp hcode with rfl | rfl
    · exact (hexCode_spec _ (by omega)).2.1
    · exact (hexCode_spec _ (by omega)).2.1
  have read : (rchunks2 (asBytes key.display.toList)).mapM hexByte =
      .ok key.bytes.toList.reverse := by
    rw [BobKey.display, String.toList_ofList, asBytes_digits,
      rchunks2_flatMap (fun byte : UInt8 => hexCode (byte.toNat / 16))
        (fun byte => hexCode (byte.toNat % 16)), mapM_eq_ok_iff, ← List.map_reverse,
      List.forall₂_map_left_iff]
    exact List.forall₂_same.mpr fun byte _ => hexByte_hexCode byte
  rw [fromHex, if_neg (by rw [digits]; exact Bool.false_ne_true), read]
  dsimp only [bind, Except.bind]
  rw [List.reverse_reverse, fromBytes_toList]

/-! ## Decimal numbers -/

section Decimal

variable {digits : List Char}

theorem fromDecimal_of_lt (some : digits ≠ []) (all : ∀ c ∈ digits, c.isDigit = true)
    (small : Nat.ofDigitChars 10 digits 0 < 2 ^ 128) :
    (fromDecimal digits : Except Panic (Except StatusExt (BobKey keySize))) =
      fromBytes (leBytes 16 (Nat.ofDigitChars 10 digits 0)) := by
  rw [fromDecimal, (readDecimal_eq_ok_iff (Nat.two_pow_pos 128) some all).mpr ⟨small, rfl⟩]

theorem fromDecimal_of_le (some : digits ≠ []) (all : ∀ c ∈ digits, c.isDigit = true)
    (large : 2 ^ 128 ≤ Nat.ofDigitChars 10 digits 0) :
    ∃ message, (fromDecimal digits : Except Panic (Except StatusExt (BobKey keySize))) =
      .ok (.error (badRequest message)) := by
  rw [fromDecimal]
  cases read : readDecimal (2 ^ 128) digits with
  | error e => exact ⟨_, rfl⟩
  | ok n =>
    have small := ((readDecimal_eq_ok_iff (Nat.two_pow_pos 128) some all).mp read).1
    exact absurd small (Nat.not_lt.mpr large)

/-- A decimal number is a key just when it fits in 16 bytes and in the size of a key. -/
theorem fromDecimal_spec (some : digits ≠ []) (all : ∀ c ∈ digits, c.isDigit = true) :
    ((∃ key : BobKey keySize, fromDecimal digits = .ok (.ok key)) ↔
      Nat.ofDigitChars 10 digits 0 < 256 ^ min keySize 16) ∧
    ∀ key : BobKey keySize, fromDecimal digits = .ok (.ok key) →
      leValue key.bytes.toList = Nat.ofDigitChars 10 digits 0 := by
  have wide : (2 : ℕ) ^ 128 = 256 ^ 16 := by decide
  rw [lt_pow_min_iff, ← wide]
  by_cases small : Nat.ofDigitChars 10 digits 0 < 2 ^ 128
  · rw [fromDecimal_of_lt some all small]
    have value : leValue (leBytes 16 (Nat.ofDigitChars 10 digits 0)) =
        Nat.ofDigitChars 10 digits 0 := leValue_leBytes (wide ▸ small)
    by_cases fits : Nat.ofDigitChars 10 digits 0 < 256 ^ keySize
    · obtain ⟨key, made, same⟩ := fromBytes_of_lt (by rw [value]; exact fits)
      rw [made]
      refine ⟨iff_of_true ⟨key, rfl⟩ ⟨fits, small⟩, fun other again => ?_⟩
      cases again
      rw [same, value]
    · rw [fromBytes_of_le (by rw [value]; exact Nat.not_lt.mp fits)]
      exact ⟨iff_of_false (fun ⟨_, same⟩ => nomatch same) fun both => fits both.1,
        fun _ same => nomatch same⟩
  · obtain ⟨message, failed⟩ := @fromDecimal_of_le keySize _ some all (Nat.not_lt.mp small)
    rw [failed]
    exact ⟨iff_of_false (fun ⟨_, same⟩ => nomatch same) fun both => small both.2,
      fun _ same => nomatch same⟩

end Decimal

theorem answered_fromDecimal (decimal : List Char) :
    Answered (fromDecimal decimal : Except Panic (Except StatusExt (BobKey keySize))) := by
  rw [fromDecimal]
  cases readDecimal (2 ^ 128) decimal with
  | error e => exact answered_badRequest _
  | ok number => exact answered_fromBytes _

theorem answered_fromGuid (parse : GuidParser) (guid : List Char) :
    Answered (fromGuid parse guid : Except Panic (Except StatusExt (BobKey keySize))) := by
  rw [fromGuid]
  cases parse guid with
  | error e => exact answered_badRequest _
  | ok bytes => exact answered_fromBytes _

/-! ## Texts -/

/-- A text between braces has both of them. -/
theorem inner_eq_ok {param : List Char} (first : param.head? = some '\x7b')
    (last : param.getLast? = some '\x7d') : inner param = .ok param.tail.dropLast := by
  obtain ⟨rest, rfl⟩ := List.head?_eq_some_iff.mp first
  have long : ¬ (asBytes ('\x7b' :: rest)).length < 2 := by
    cases rest with
    | nil => cases last
    | cons c rest =>
      have positive := c.utf8Size_pos
      have encoded := @String.length_utf8EncodeChar c
      rw [asBytes, List.flatMap_cons, List.flatMap_cons, List.length_append, List.length_append,
        encoded]
      have brace : (String.utf8EncodeChar '\x7b').length = 1 := by decide
      omega
  exact if_neg long

theorem answered_fromStr (parse : GuidParser) (param : List Char) :
    Answered (fromStr parse param : Except Panic (Except StatusExt (BobKey keySize))) := by
  rw [fromStr]
  split_ifs with braces dash hex digits
  · rw [inner_eq_ok braces.1 braces.2]
    exact answered_fromGuid parse _
  · exact answered_fromGuid parse param
  · exact answered_fromHex _
  · exact answered_fromDecimal param
  · exact answered_badRequest "Invalid key format"

theorem fromStr_display (parse : GuidParser) (key : BobKey keySize) :
    fromStr parse ("0x".toList ++ key.display.toList) = .ok (.ok key) := by
  have mark : "0x".toList = ['0', 'x'] := by decide
  rw [mark]
  have noDash : '-' ∉ ['0', 'x'] ++ key.display.toList := by
    intro member
    rcases List.mem_append.mp member with inMark | inText
    · exact absurd inMark (by decide)
    · rw [BobKey.display, String.toList_ofList] at inText
      obtain ⟨byte, -, hdash⟩ := List.mem_flatMap.mp inText
      have small := byte.toNat_lt
      rcases List.mem_pair.mp hdash with high | low
      · exact (hexCode_spec _ (by omega)).2.2.2 high.symm
      · exact (hexCode_spec _ (by omega)).2.2.2 low.symm
  rw [fromStr, if_neg fun both => absurd (Option.some.inj both.1) (by decide), if_neg noDash,
    if_pos (List.prefix_append _ _)]
  exact fromHex_display key

theorem fromStr_digits (parse : GuidParser) {digits : List Char}
    (all : ∀ c ∈ digits, c.isDigit = true) :
    (fromStr parse digits : Except Panic (Except StatusExt (BobKey keySize))) =
      fromDecimal digits := by
  have noBrace : ¬ (digits.head? = some '\x7b' ∧ digits.getLast? = some '\x7d') := fun both =>
    absurd (all _ (List.mem_of_head? both.1)) (by decide)
  have noDash : '-' ∉ digits := fun dash => absurd (all _ dash) (by decide)
  have noMark : ¬ ['0', 'x'] <+: digits := fun mark =>
    absurd (all 'x' (mark.subset (by simp))) (by decide)
  rw [fromStr, if_neg noBrace, if_neg noDash, if_neg noMark, if_pos (List.all_eq_true.mpr all)]

/-- A text is a key or a bad request. The text of a key is read back, and a decimal number is
a key with this value, if it fits. -/
theorem fromStr_spec (parse : GuidParser) (keySize : ℕ) :
    (∀ param, Answered (fromStr parse param : Except Panic (Except StatusExt (BobKey keySize)))) ∧
    (∀ key : BobKey keySize, fromStr parse ("0x".toList ++ key.display.toList) = .ok (.ok key) ∧
      BobKey.fromStr key.display.toList = .ok key) ∧
    ∀ digits : List Char, digits ≠ [] → (∀ c ∈ digits, c.isDigit = true) →
      ((∃ key : BobKey keySize, fromStr parse digits = .ok (.ok key)) ↔
        Nat.ofDigitChars 10 digits 0 < 256 ^ min keySize 16) ∧
      ∀ key : BobKey keySize, fromStr parse digits = .ok (.ok key) →
        leValue key.bytes.toList = Nat.ofDigitChars 10 digits 0 := by
  refine ⟨answered_fromStr parse, fun key => ⟨fromStr_display parse key, key.fromStr_display⟩, ?_⟩
  intro digits some all
  rw [fromStr_digits parse all]
  exact fromDecimal_spec some all

/-- The number 258 is a key of two bytes. -/
theorem fromStr_258 :
    ∃ key : BobKey 2, fromStr (fun _ => .error "not a GUID") ['2', '5', '8'] = .ok (.ok key) ∧
      leValue key.bytes.toList = 258 := by
  obtain ⟨-, -, decimal⟩ := fromStr_spec (fun _ => .error "not a GUID") 2
  obtain ⟨accepted, value⟩ := decimal ['2', '5', '8'] (List.cons_ne_nil _ _)
    (List.all_eq_true.mp rfl)
  obtain ⟨key, read⟩ := accepted.mpr (by decide)
  exact ⟨key, read, value key read⟩

end DataKey

end Bob.Api

/-
# Base64

A codec turns bytes into text and back. What a user of one needs is stated as
`Base64Engine.Lawful`: what was encoded is decoded to the same bytes, and the text of an
encoding has only graphic characters. The standard alphabet with canonical padding is such
a codec.
-/

import Mathlib.Data.List.Basic

namespace Bob.Math

/-- A codec: the text of bytes, and the bytes of a text, or why it has none. -/
structure Base64Engine where
  encode : ByteArray → String
  decode : String → Except String ByteArray

/-- What is assumed of a codec. -/
structure Base64Engine.Lawful (engine : Base64Engine) : Prop where
  decode_encode : ∀ bytes, engine.decode (engine.encode bytes) = .ok bytes
  graphic : ∀ bytes, ∀ c ∈ (engine.encode bytes).toList, 33 ≤ c.toNat ∧ c.toNat ≤ 126
  encode_ne_nil : ∀ bytes, bytes ≠ ByteArray.empty → (engine.encode bytes).toList ≠ []

/-! ## The standard codec -/

namespace Base64

def alphabet : List Char :=
  "ABCDEFGHIJKLMNOPQRSTUVWXYZabcdefghijklmnopqrstuvwxyz0123456789+/".toList

/-- The symbol of six bits. -/
def symbol (bits : ℕ) : Char := alphabet.getD bits '='

/-- The six bits of a symbol. -/
def value (c : Char) : Option ℕ := alphabet.findIdx? (· == c)

/-- Three bytes are four symbols. The last group is padded. -/
def encodeBytes : List UInt8 → List Char
  | [] => []
  | [a] => [symbol (a.toNat / 4), symbol (a.toNat % 4 * 16), '=', '=']
  | [a, b] => [symbol (a.toNat / 4), symbol (a.toNat % 4 * 16 + b.toNat / 16),
      symbol (b.toNat % 16 * 4), '=']
  | a :: b :: c :: rest =>
    symbol (a.toNat / 4) :: symbol (a.toNat % 4 * 16 + b.toNat / 16) ::
      symbol (b.toNat % 16 * 4 + c.toNat / 64) :: symbol (c.toNat % 64) :: encodeBytes rest

/-- Four symbols are three bytes. Padding stands in the last group only, and the bits that it
cuts off are zero. -/
def decodeSymbols : List Char → Option (List UInt8)
  | [] => some []
  | s :: t :: u :: v :: rest => do
    let s ← value s
    let t ← value t
    if v = '=' then
      if rest ≠ [] then none
      else if u = '=' then
        if t % 16 = 0 then some [UInt8.ofNat (s * 4 + t / 16)] else none
      else do
        let u ← value u
        if u % 4 = 0 then
          some [UInt8.ofNat (s * 4 + t / 16), UInt8.ofNat (t % 16 * 16 + u / 4)]
        else none
    else do
      let u ← value u
      let v ← value v
      let bytes ← decodeSymbols rest
      some (UInt8.ofNat (s * 4 + t / 16) :: UInt8.ofNat (t % 16 * 16 + u / 4) ::
        UInt8.ofNat (u % 4 * 64 + v) :: bytes)
  | _ => none

/-- The codec of the standard alphabet. -/
def standard : Base64Engine where
  encode := fun bytes => String.ofList (encodeBytes bytes.data.toList)
  decode := fun text =>
    match decodeSymbols text.toList with
    | some bytes => .ok ⟨bytes.toArray⟩
    | none => .error "Invalid input"

/-- The symbols one by one: each is read back, and is a visible character other than the
padding. -/
private theorem symbol_spec : ∀ bits < 64, value (symbol bits) = some bits ∧ symbol bits ≠ '=' ∧
    33 ≤ (symbol bits).toNat ∧ (symbol bits).toNat ≤ 126 := by
  decide +kernel

variable {bits : ℕ}

theorem value_symbol (small : bits < 64) : value (symbol bits) = some bits :=
  (symbol_spec bits small).1

theorem symbol_ne_pad (small : bits < 64) : symbol bits ≠ '=' :=
  (symbol_spec bits small).2.1

theorem graphic_symbol (small : bits < 64) :
    33 ≤ (symbol bits).toNat ∧ (symbol bits).toNat ≤ 126 :=
  (symbol_spec bits small).2.2

/-- A byte is read back from bits that add up to it. -/
private theorem ofNat_eq {n : ℕ} {a : UInt8} (same : n = a.toNat) : UInt8.ofNat n = a := by
  rw [same, UInt8.ofNat_toNat]

/-- What was encoded is decoded to the same bytes. -/
theorem decodeSymbols_encodeBytes (bytes : List UInt8) :
    decodeSymbols (encodeBytes bytes) = some bytes := by
  induction bytes using encodeBytes.induct with
  | case1 => rfl
  | case2 a =>
    have ha := a.toNat_lt
    rw [encodeBytes, decodeSymbols, value_symbol (by omega), value_symbol (by omega)]
    simp only [Option.bind_eq_bind, Option.bind_some, if_true, ne_eq, not_true, if_false]
    rw [if_pos (by omega), ofNat_eq (a := a) (by omega)]
  | case3 a b =>
    have ha := a.toNat_lt
    have hb := b.toNat_lt
    rw [encodeBytes, decodeSymbols, value_symbol (by omega), value_symbol (by omega)]
    simp only [Option.bind_eq_bind, Option.bind_some, if_true, ne_eq, not_true, if_false]
    rw [if_neg (symbol_ne_pad (by omega)), value_symbol (by omega), Option.bind_some,
      if_pos (by omega), ofNat_eq (a := a) (by omega), ofNat_eq (a := b) (by omega)]
  | case4 a b c rest ih =>
    have ha := a.toNat_lt
    have hb := b.toNat_lt
    have hc := c.toNat_lt
    rw [encodeBytes, decodeSymbols, value_symbol (by omega), value_symbol (by omega)]
    simp only [Option.bind_eq_bind, Option.bind_some]
    rw [if_neg (symbol_ne_pad (by omega)), value_symbol (by omega), value_symbol (by omega), ih]
    simp only [Option.bind_some]
    rw [ofNat_eq (a := a) (by omega), ofNat_eq (a := b) (by omega), ofNat_eq (a := c) (by omega)]

theorem graphic_encodeBytes (bytes : List UInt8) :
    ∀ c ∈ encodeBytes bytes, 33 ≤ c.toNat ∧ c.toNat ≤ 126 := by
  have pad : 33 ≤ '='.toNat ∧ '='.toNat ≤ 126 := by decide
  induction bytes using encodeBytes.induct with
  | case1 => simp [encodeBytes]
  | case2 a =>
    have ha := a.toNat_lt
    simp only [encodeBytes, List.forall_mem_cons]
    exact ⟨graphic_symbol (by omega), graphic_symbol (by omega), pad, pad, nofun⟩
  | case3 a b =>
    have ha := a.toNat_lt
    have hb := b.toNat_lt
    simp only [encodeBytes, List.forall_mem_cons]
    exact ⟨graphic_symbol (by omega), graphic_symbol (by omega), graphic_symbol (by omega), pad,
      nofun⟩
  | case4 a b c rest ih =>
    have ha := a.toNat_lt
    have hb := b.toNat_lt
    have hc := c.toNat_lt
    simp only [encodeBytes, List.forall_mem_cons]
    exact ⟨graphic_symbol (by omega), graphic_symbol (by omega), graphic_symbol (by omega),
      graphic_symbol (by omega), ih⟩

theorem standard.lawful : standard.Lawful where
  decode_encode := by
    intro bytes
    simp [standard, decodeSymbols_encodeBytes]
  graphic := by
    intro bytes c member
    rw [standard, String.toList_ofList] at member
    exact graphic_encodeBytes _ c member
  encode_ne_nil := by
    intro bytes some
    rw [standard, String.toList_ofList]
    intro empty
    have decoded := decodeSymbols_encodeBytes bytes.data.toList
    rw [empty] at decoded
    cases bytes with
    | mk data => exact some (congrArg _ (Array.toList_inj.mp (Option.some.inj decoded).symm))

end Base64

end Bob.Math

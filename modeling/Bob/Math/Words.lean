/-
# Words of a text

A text is cut at separators, and the pieces that are not empty are its words. A
word followed by a separator is the first word of the text, and putting the words
together again gives the text without its separators. Text that is ASCII has one byte for
each character.
-/

import Mathlib.Data.List.Basic
import Mathlib.Tactic.Common

namespace Bob.Math

variable {α : Type*} (sep : α → Bool) {word rest text : List α} {gap : α}

/-- The words of a text: the pieces between separators that are not empty. -/
def words (text : List α) : List (List α) :=
  (text.splitOnP sep).filter (!·.isEmpty)

variable {sep}

@[simp] theorem words_nil : words sep [] = [] := by
  simp [words]

/-- A piece without separators, then a separator: the piece is the first word. -/
theorem words_append_cons (free : ∀ c ∈ word, sep c = false) (some : word ≠ [])
    (cut : sep gap = true) : words sep (word ++ gap :: rest) = word :: words sep rest := by
  rw [words, List.splitOnP_append_cons_of_forall_mem free gap cut,
    List.filter_cons_of_pos (by simpa using some)]
  rfl

theorem words_eq_singleton (free : ∀ c ∈ word, sep c = false) (some : word ≠ []) :
    words sep word = [word] := by
  rw [words, List.splitOnP_eq_singleton free, List.filter_cons_of_pos (by simpa using some)]
  rfl

/-- Cutting keeps everything but the separators. -/
private theorem flatten_splitOnP :
    (text.splitOnP sep).flatten = text.filter (!sep ·) := by
  induction text with
  | nil => simp
  | cons c rest ih =>
    rw [List.splitOnP_cons_eq_if_modifyHead]
    split_ifs with cut
    · rw [List.flatten_cons, List.nil_append, ih, List.filter_cons_of_neg (by simpa using cut)]
    · rw [List.filter_cons_of_pos (by simpa using cut), ← ih]
      -- a text has at least one piece, to which the symbol is added in front
      cases pieces : rest.splitOnP sep with
      | nil => exact absurd pieces (List.splitOnP_ne_nil _ _)
      | cons piece pieces => rfl

/-- The words joined without a gap are the text without separators. -/
theorem flatten_words : (words sep text).flatten = text.filter (!sep ·) := by
  rw [← flatten_splitOnP, words]
  generalize text.splitOnP sep = pieces
  induction pieces with
  | nil => rfl
  | cons piece pieces ih => cases piece <;> simp [ih]

/-! ## Pieces -/

/-- A piece has no separator. -/
theorem not_mem_of_mem_splitOn [BEq α] [LawfulBEq α] {piece : List α}
    (member : piece ∈ text.splitOn gap) : gap ∉ piece := by
  induction text generalizing piece with
  | nil =>
    rw [List.splitOn_nil, List.mem_singleton] at member
    simp [member]
  | cons c rest ih =>
    rw [List.splitOn_cons_eq_if_modifyHead] at member
    split_ifs at member with cut
    · rcases List.mem_cons.mp member with rfl | later
      · exact List.not_mem_nil
      · exact ih later
    · cases pieces : rest.splitOn gap with
      | nil => exact absurd pieces (List.splitOn_ne_nil _ _)
      | cons first others =>
        rw [pieces] at member ih
        rcases List.mem_cons.mp member with rfl | later
        · have other : gap ≠ c := fun same => cut (by simp [same])
          exact List.not_mem_cons_of_ne_of_not_mem other (ih List.mem_cons_self)
        · exact ih (List.mem_cons_of_mem _ later)

private theorem flatten_splitOn [BEq α] :
    (text.splitOn gap).flatten = text.filter fun c => !(c == gap) := by
  rw [List.splitOn_eq_splitOnP]
  exact flatten_splitOnP

theorem mem_of_mem_splitOn [BEq α] {piece : List α} (member : piece ∈ text.splitOn gap) {c : α}
    (inside : c ∈ piece) : c ∈ text := by
  have flat : c ∈ (text.splitOn gap).flatten := List.mem_flatten_of_mem member inside
  rw [flatten_splitOn] at flat
  exact List.mem_of_mem_filter flat

/-- What is not a separator is in a piece. -/
theorem exists_mem_splitOn [BEq α] [LawfulBEq α] {c : α} (member : c ∈ text) (other : c ≠ gap) :
    ∃ piece ∈ text.splitOn gap, c ∈ piece := by
  have inside : c ∈ (text.splitOn gap).flatten := by
    rw [flatten_splitOn]
    exact List.mem_filter.mpr ⟨member, by simpa using other⟩
  exact List.mem_flatten.mp inside

/-! ## Bytes -/

theorem fromUTF8?_toUTF8 (text : String) : String.fromUTF8? text.toUTF8 = some text := by
  have valid : text.toUTF8.IsValidUTF8 := text.isValidUTF8
  rw [String.fromUTF8?, dif_pos valid]
  rfl

theorem toNat_ofNat_of_ascii {byte : UInt8} (ascii : byte.toNat < 128) :
    (Char.ofNat byte.toNat).toNat = byte.toNat := by
  rw [Char.ofNat, dif_pos (Or.inl (by omega))]
  rfl

/-- Bytes below 128 are the text with these codes. -/
theorem fromUTF8?_ascii {bytes : List UInt8} (ascii : ∀ byte ∈ bytes, byte.toNat < 128) :
    String.fromUTF8? ⟨bytes.toArray⟩ =
      some (String.ofList (bytes.map fun byte => Char.ofNat byte.toNat)) := by
  have encoded : (bytes.map fun byte => Char.ofNat byte.toNat).flatMap String.utf8EncodeChar =
      bytes := by
    induction bytes with
    | nil => rfl
    | cons byte rest ih =>
      have small := ascii byte List.mem_cons_self
      have first : String.utf8EncodeChar (Char.ofNat byte.toNat) = [byte] := by
        rw [String.utf8EncodeChar, Char.toNat_val, toNat_ofNat_of_ascii small]
        rw [if_pos (by omega), UInt8.ofNat_toNat]
      rw [List.map_cons, List.flatMap_cons, first,
        ih fun other member => ascii other (List.mem_cons_of_mem _ member)]
      rfl
  rw [← fromUTF8?_toUTF8, String.toUTF8, String.toByteArray_ofList, List.utf8Encode, encoded]
  exact congrArg _ (ByteArray.ext List.data_toByteArray.symm)

end Bob.Math

/-
# Numbers as text

A number is printed with its decimal digits and nothing else. Reading is more liberal: a
plus sign may stand in front, and so may any number of zeros. What was printed is read
back, but not everything that is read was printed. Texts of digits that were printed are
those without a leading zero.

A reader that goes along the digits stops at the first that is wrong or makes the number
too large, and can say which it was. It reads the same numbers.
-/

import Mathlib.Algebra.GroupWithZero.Nat
import Mathlib.Data.List.Induction
import Mathlib.Tactic.Common

namespace Bob.Math

/-- Read a number below `bound`: digits, with a plus sign in front if any. -/
def parseDecimal (bound : ℕ) (text : List Char) : Option ℕ :=
  let digits := if text.head? = some '+' then text.tail else text
  if digits ≠ [] ∧ digits.all (·.isDigit) ∧ Nat.ofDigitChars 10 digits 0 < bound then
    some (Nat.ofDigitChars 10 digits 0)
  else none

variable {bound n : ℕ} {text : List Char}

theorem isDigit_of_mem_toDigits {c : Char} (member : c ∈ Nat.toDigits 10 n) : c.isDigit = true :=
  Nat.isDigit_of_mem_toDigits (by decide) (by decide) member

private theorem parseDecimal_toDigits_eq :
    parseDecimal bound (Nat.toDigits 10 n) = if n < bound then some n else none := by
  have unsigned : ¬ (Nat.toDigits 10 n).head? = some '+' := by
    intro plus
    exact absurd (isDigit_of_mem_toDigits (List.mem_of_head? plus)) (by decide)
  have digits : (Nat.toDigits 10 n).all (·.isDigit) = true :=
    List.all_eq_true.mpr fun _ => isDigit_of_mem_toDigits
  simp only [parseDecimal, if_neg unsigned, Nat.ofDigitChars_ten_toDigits]
  simp only [ne_eq, Nat.toDigits_ne_nil, not_false_eq_true, digits, true_and]

/-- What was printed is read back. -/
theorem parseDecimal_toDigits (small : n < bound) :
    parseDecimal bound (Nat.toDigits 10 n) = some n := by
  rw [parseDecimal_toDigits_eq, if_pos small]

theorem lt_of_parseDecimal (read : parseDecimal bound text = some n) : n < bound := by
  unfold parseDecimal at read
  dsimp only at read
  generalize (if text.head? = some '+' then text.tail else text) = digits at read
  split_ifs at read with good
  obtain ⟨-, -, small⟩ := good
  cases read
  exact small

theorem isDigit_of_mem_of_parseDecimal (read : parseDecimal bound text = some n) {c : Char}
    (member : c ∈ text) : c = '+' ∨ c.isDigit = true := by
  unfold parseDecimal at read
  dsimp only at read
  split_ifs at read with plus good good
  · obtain ⟨rest, rfl⟩ := List.head?_eq_some_iff.mp plus
    rcases List.mem_cons.mp member with rfl | later
    · exact .inl rfl
    · exact .inr (List.all_eq_true.mp good.2.1 c later)
  · exact .inr (List.all_eq_true.mp good.2.1 c member)

/-! ## Which texts are printed -/

/-- Digits as they are printed: a zero stands in front only on its own. -/
structure PlainDigits (digits : List Char) : Prop where
  ne_nil : digits ≠ []
  isDigit : ∀ c ∈ digits, c.isDigit = true
  no_leading_zero : digits.head? = some '0' → digits = ['0']

theorem digitChar_toNat_sub {c : Char} (digit : c.isDigit = true) :
    c.toNat - 48 < 10 ∧ Nat.digitChar (c.toNat - 48) = c := by
  rw [Char.isDigit, Bool.and_eq_true, decide_eq_true_eq, decide_eq_true_eq] at digit
  have low : 48 ≤ c.toNat := UInt32.le_iff_toNat_le.mp digit.1
  have high : c.toNat ≤ 57 := UInt32.le_iff_toNat_le.mp digit.2
  have small : c.toNat - 48 < 10 := by omega
  refine ⟨small, Char.toNat_inj.mp ?_⟩
  rw [Nat.toNat_digitChar_of_lt_ten small]
  omega

/-- Only zeros have the value zero. -/
private theorem ofDigitChars_pos {digits : List Char} (all : ∀ c ∈ digits, c.isDigit = true)
    (nonempty : digits ≠ []) (leading : digits.head? ≠ some '0') :
    0 < Nat.ofDigitChars 10 digits 0 := by
  cases digits with
  | nil => exact absurd rfl nonempty
  | cons c rest =>
    obtain ⟨-, rebuilt⟩ := digitChar_toNat_sub (all c List.mem_cons_self)
    have positive : 0 < c.toNat - 48 := by
      rw [Nat.pos_iff_ne_zero]
      intro zero
      rw [zero] at rebuilt
      exact leading (by rw [← rebuilt]; rfl)
    rw [Nat.ofDigitChars_cons, Nat.ofDigitChars_eq_ofDigitChars_zero, Nat.mul_zero, Nat.zero_add]
    have scaled := Nat.mul_pos (Nat.pow_pos (n := rest.length) (by decide : 0 < 10)) positive
    change 0 < 10 ^ rest.length * (c.toNat - 48) + Nat.ofDigitChars 10 rest 0
    omega

/-- Plain digits are those of their value. -/
theorem PlainDigits.toDigits_ofDigitChars {digits : List Char} (plain : PlainDigits digits) :
    Nat.toDigits 10 (Nat.ofDigitChars 10 digits 0) = digits := by
  obtain ⟨nonempty, all, leading⟩ := plain
  -- by induction on the text without its last digit, which is the value divided by ten
  induction digits using List.reverseRecOn with
  | nil => exact absurd rfl nonempty
  | append_singleton init c ih =>
    obtain ⟨small, rebuilt⟩ := digitChar_toNat_sub (all c (by simp))
    have last : Nat.toDigits 10 (c.toNat - 48) = [c] := by
      rw [Nat.toDigits_of_lt_base small, rebuilt]
    have value : Nat.ofDigitChars 10 (init ++ [c]) 0 =
        10 * Nat.ofDigitChars 10 init 0 + (c.toNat - 48) := by
      rw [Nat.ofDigitChars_append, Nat.ofDigitChars_cons, Nat.ofDigitChars_nil]
      rfl
    rw [value]
    by_cases empty : init = []
    · rw [empty, Nat.ofDigitChars_nil, Nat.mul_zero, Nat.zero_add, last]
      rfl
    · have head : init.head? ≠ some '0' := by
        intro zero
        have single := leading (by rw [List.head?_append, zero]; rfl)
        have length := congrArg List.length single
        have positive := List.length_pos_iff.mpr empty
        simp only [List.length_append, List.length_cons, List.length_nil] at length
        omega
      have digits : ∀ c ∈ init, c.isDigit = true := fun c member => all c (by simp [member])
      rw [← Nat.toDigits_append_toDigits (by decide) (ofDigitChars_pos digits empty head) small,
        ih empty digits (fun zero => absurd zero head), last]

/-- Plain digits that are read as a number are the digits of the number. -/
theorem PlainDigits.eq_toDigits {digits : List Char} (plain : PlainDigits digits)
    (read : parseDecimal bound digits = some n) : digits = Nat.toDigits 10 n := by
  have printed := plain.toDigits_ofDigitChars
  rw [← printed, parseDecimal_toDigits_eq] at read
  split_ifs at read
  rw [← Option.some.inj read, printed]

/-- What is printed is plain. -/
theorem plainDigits_toDigits (n : ℕ) : PlainDigits (Nat.toDigits 10 n) where
  ne_nil := Nat.toDigits_ne_nil
  isDigit := fun _ => isDigit_of_mem_toDigits
  no_leading_zero := by
    induction n using Nat.strongRecOn with
    | ind n ih =>
      intro zero
      rw [Nat.toDigits_eq_if (by decide)] at zero ⊢
      split_ifs at zero ⊢ with small
      · exact congrArg (fun c => [c]) (Option.some.inj zero)
      · rw [List.head?_append, Option.or_of_isSome (by simp [Nat.toDigits_ne_nil])] at zero
        -- the leading digit is that of a smaller number, which is not zero
        have below : n / 10 < n := Nat.div_lt_self (by omega) (by decide)
        have value := congrArg (fun digits => Nat.ofDigitChars 10 digits 0) (ih _ below zero)
        simp only [Nat.ofDigitChars_ten_toDigits] at value
        have vanishes : n / 10 = 0 := value.trans (by decide)
        omega

/-! ## Reading with a reason -/

/-- Why a text is not a number. -/
inductive IntErrorKind
  | empty
  | invalidDigit
  | posOverflow
  deriving DecidableEq, Repr

/-- Read digits, after some that have this value. -/
def readDigits (bound : ℕ) : List Char → ℕ → Except IntErrorKind ℕ
  | [], value => .ok value
  | c :: rest, value =>
    if c.isDigit then
      if 10 * value + (c.toNat - '0'.toNat) < bound then
        readDigits bound rest (10 * value + (c.toNat - '0'.toNat))
      else .error .posOverflow
    else .error .invalidDigit

def readDecimal (bound : ℕ) (text : List Char) : Except IntErrorKind ℕ :=
  if text = [] then .error .empty
  else if text = ['+'] ∨ text = ['-'] then .error .invalidDigit
  else readDigits bound (if text.head? = some '+' then text.tail else text) 0

/-- Read a number of 64 bits. -/
def parseU64 (text : List Char) : Except IntErrorKind UInt64 :=
  (readDecimal (2 ^ 64) text).map UInt64.ofNat

theorem le_ofDigitChars (digits : List Char) (value : ℕ) :
    value ≤ Nat.ofDigitChars 10 digits value := by
  rw [Nat.ofDigitChars_eq_ofDigitChars_zero]
  have scaled : value ≤ 10 ^ digits.length * value :=
    Nat.le_mul_of_pos_left value (Nat.pow_pos (by decide))
  exact Nat.le_trans scaled (Nat.le_add_right _ _)

/-- The value only grows, so it is enough to look at the last one. -/
theorem toOption_readDigits {digits : List Char} {value : ℕ} (small : value < bound) :
    (readDigits bound digits value).toOption =
      if digits.all (·.isDigit) ∧ Nat.ofDigitChars 10 digits value < bound then
        some (Nat.ofDigitChars 10 digits value)
      else none := by
  induction digits generalizing value with
  | nil => simp [readDigits, small, Except.toOption]
  | cons c rest ih =>
    rw [readDigits, Nat.ofDigitChars_cons, List.all_cons]
    by_cases digit : c.isDigit = true
    · by_cases fits : 10 * value + (c.toNat - '0'.toNat) < bound
      · rw [if_pos digit, if_pos fits, ih fits, digit, Bool.true_and]
      · have large := le_ofDigitChars rest (10 * value + (c.toNat - '0'.toNat))
        rw [if_pos digit, if_neg fits, if_neg fun both => by omega]
        rfl
    · rw [if_neg digit, if_neg fun both => digit (Bool.and_eq_true_iff.mp both.1).1]
      rfl

/-- Both readers read the same numbers. -/
theorem toOption_readDecimal (positive : 0 < bound) (text : List Char) :
    (readDecimal bound text).toOption = parseDecimal bound text := by
  by_cases empty : text = []
  · rw [empty]
    simp [readDecimal, parseDecimal, Except.toOption]
  by_cases sign : text = ['+'] ∨ text = ['-']
  · rw [readDecimal, if_neg empty, if_pos sign]
    rcases sign with rfl | rfl <;> simp [parseDecimal, Except.toOption]
  have some : (if text.head? = some '+' then text.tail else text) ≠ [] := by
    split_ifs with plus
    · intro none
      obtain ⟨rest, rfl⟩ := List.head?_eq_some_iff.mp plus
      exact sign (.inl (congrArg (List.cons '+') none))
    · exact empty
  rw [readDecimal, if_neg empty, if_neg sign, toOption_readDigits positive, parseDecimal]
  simp only [ne_eq, some, not_false_eq_true, true_and]

/-- Digits are read as the number they stand for, if that is not too large. -/
theorem readDecimal_eq_ok_iff {bound n : ℕ} (positive : 0 < bound) {digits : List Char}
    (some : digits ≠ []) (all : ∀ c ∈ digits, c.isDigit = true) :
    readDecimal bound digits = .ok n ↔
      Nat.ofDigitChars 10 digits 0 < bound ∧ Nat.ofDigitChars 10 digits 0 = n := by
  have unsigned : digits.head? ≠ Option.some '+' := fun plus =>
    absurd (all '+' (List.mem_of_head? plus)) (by decide)
  have read := toOption_readDecimal positive digits
  rw [parseDecimal, if_neg unsigned] at read
  simp only [ne_eq, some, not_false_eq_true, List.all_eq_true.mpr all, true_and] at read
  cases result : readDecimal bound digits with
  | error kind =>
    rw [result] at read
    split_ifs at read with small
    · cases read
    · exact iff_of_false nofun fun both => small both.1
  | ok number =>
    rw [result] at read
    split_ifs at read with small
    · cases read
      exact ⟨fun same => ⟨small, Except.ok.inj same⟩, fun both => congrArg _ both.2⟩
    · cases read

end Bob.Math

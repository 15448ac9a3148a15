/-
# Keys of the command line client

`bobc` takes one key, a range of keys, or a list of keys, and goes through them. The
iterator of a range adds an index to the start of the range, for the last time after its
last key. At the top of the key space this addition overflows: a build with overflow checks
aborts, and in one without them the command goes on with keys from zero on.

A text without a dash that is not a list of numbers aborts the command too, as the pieces of
a list are unwrapped.
-/

import Bob.Common.Checked
import Bob.Math.Decimal
import Bob.Math.Sequencing
import Bob.Math.Words

namespace Bob.Client

open Bob.Math

/-! ## The source -/

inductive ParseError
  | filePattern
  | keyPattern
  deriving DecidableEq, Repr

inductive KeyPattern
  | single (key : UInt64)
  | range (first last : UInt64)
  | multiple (keys : List UInt64)
  deriving DecidableEq, Repr

/-- The debug text of an error of `str::parse`. -/
def debugKind : IntErrorKind → String
  | .empty => "ParseIntError \x7b kind: Empty \x7d"
  | .invalidDigit => "ParseIntError \x7b kind: InvalidDigit \x7d"
  | .posOverflow => "ParseIntError \x7b kind: PosOverflow \x7d"

def unwrapKey (text : List Char) : Except Panic UInt64 :=
  (parseU64 text).mapError fun kind =>
    ⟨"called `Result::unwrap()` on an `Err` value: " ++ debugKind kind⟩

def parseRange (pieces : List (List Char)) : Except ParseError KeyPattern :=
  match pieces with
  | [first, last] => do
    let v0 ← (parseU64 first).mapError fun _ => .keyPattern
    let v1 ← (parseU64 last).mapError fun _ => .keyPattern
    if v0 ≥ v1 then .error .keyPattern else .ok (.range v0 v1)
  | _ => .error .keyPattern

def parseKeyPattern (keyArgCont : List Char) : Except Panic (Except ParseError KeyPattern) :=
  match parseU64 keyArgCont with
  | .ok key => .ok (.ok (.single key))
  | .error _ =>
    if '-' ∈ keyArgCont then .ok (parseRange (keyArgCont.splitOn '-'))
    else do
      let keys ← (keyArgCont.splitOn ',').mapM unwrapKey
      return .ok (.multiple keys)

/-- Add one to an index of 64 bits. -/
def nextIndex (build : Build) (index : ℕ) : Except Panic ℕ :=
  match build with
  | .overflowChecks => fits "add" (index + 1)
  | .release => .ok ((index + 1) % 2 ^ 64)

/-- The next key, and the index after it. A vector has fewer elements than an index can count. -/
def keypatternIterNext (build : Build) (pattern : KeyPattern) (index : ℕ) :
    Except Panic (Option UInt64 × ℕ) :=
  match pattern with
  | .single val => if index = 0 then .ok (some val, index + 1) else .ok (none, index)
  | .multiple vec => .ok (vec[index]?, index + 1)
  | .range first last => do
    let val ← build.add first (UInt64.ofNat index)
    let index ← nextIndex build index
    return (if val ≤ last then some val else none, index)

/-- A loop over the keys, for at most so many calls. Returns the keys and whether the iterator
came to its end. -/
def iterate (build : Build) (pattern : KeyPattern) : ℕ → ℕ → Except Panic (List UInt64 × Bool)
  | 0, _ => .ok ([], false)
  | calls + 1, index => do
    match ← keypatternIterNext build pattern index with
    | (none, _) => return ([], true)
    | (some key, index) =>
      let later ← iterate build pattern calls index
      return (key :: later.1, later.2)

/-! ## What is asked -/

/-- The keys that a pattern names. -/
def KeyPattern.keys : KeyPattern → List UInt64
  | single key => [key]
  | range first last => (List.range' first.toNat (last.toNat - first.toNat + 1)).map UInt64.ofNat
  | multiple keys => keys

/-- The pattern that a text stands for. -/
inductive Names : List Char → KeyPattern → Prop
  | single {text key} (read : parseU64 text = .ok key) : Names text (.single key)
  | range {first last v0 v1} (readFirst : parseU64 first = .ok v0)
      (readLast : parseU64 last = .ok v1) (less : v0 < v1) :
      Names (first ++ '-' :: last) (.range v0 v1)
  | multiple {text keys} (several : ',' ∈ text)
      (read : List.Forall₂ (fun piece key => parseU64 piece = .ok key) (text.splitOn ',') keys) :
      Names text (.multiple keys)

/-- A pattern is accepted and gone through to its end, and other texts are rejected. -/
def HandledRight (build : Build) (text : List Char) : Prop :=
  (∀ pattern, Names text pattern → parseKeyPattern text = .ok (.ok pattern) ∧
    ∃ calls, iterate build pattern calls 0 = .ok (pattern.keys, true)) ∧
  ((¬ ∃ pattern, Names text pattern) → parseKeyPattern text = .ok (.error .keyPattern))

/-- The last key of a range can be counted past. -/
def Countable (build : Build) (first last : UInt64) : Prop :=
  last.toNat + 1 < 2 ^ 64 ∧
    (build = .overflowChecks → last.toNat - first.toNat + 2 < 2 ^ 64)

/-! ## Parsing -/

section Parsing

variable {text : List Char} {key : UInt64} {pattern : KeyPattern}

/-- A key has no separators in it. -/
theorem not_mem_of_parseU64 (read : parseU64 text = .ok key) {c : Char} (noPlus : c ≠ '+')
    (noDigit : c.isDigit = false) : c ∉ text := by
  intro member
  have same := toOption_readDecimal (Nat.two_pow_pos 64) text
  cases value : readDecimal (2 ^ 64) text with
  | error kind =>
    rw [parseU64, value] at read
    cases read
  | ok n =>
    rw [value] at same
    rcases isDigit_of_mem_of_parseDecimal same.symm member with plus | digit
    · exact noPlus plus
    · rw [noDigit] at digit
      cases digit

theorem exists_parseU64_eq_error {c : Char} (member : c ∈ text) (noPlus : c ≠ '+')
    (noDigit : c.isDigit = false) : ∃ kind, parseU64 text = .error kind := by
  cases read : parseU64 text with
  | ok key => exact absurd member (not_mem_of_parseU64 read noPlus noDigit)
  | error kind => exact ⟨kind, rfl⟩

/-- A range is parsed, or the pattern is rejected. -/
theorem parseRange_cases (pieces : List (List Char)) :
    parseRange pieces = .error .keyPattern ∨
      ∃ first last v0 v1, pieces = [first, last] ∧ parseU64 first = .ok v0 ∧
        parseU64 last = .ok v1 ∧ v0 < v1 := by
  match pieces with
  | [] | [_] | _ :: _ :: _ :: _ => exact .inl rfl
  | [first, last] =>
    rw [parseRange]
    cases readFirst : parseU64 first with
    | error kind => exact .inl rfl
    | ok v0 =>
      cases readLast : parseU64 last with
      | error kind => exact .inl rfl
      | ok v1 =>
        by_cases less : v0 < v1
        · exact .inr ⟨first, last, v0, v1, rfl, readFirst, readLast, less⟩
        · exact .inl (if_pos (UInt64.not_lt.mp less))

theorem parseRange_eq {first last : List Char} {v0 v1 : UInt64}
    (readFirst : parseU64 first = .ok v0) (readLast : parseU64 last = .ok v1) (less : v0 < v1) :
    parseRange [first, last] = .ok (.range v0 v1) := by
  rw [parseRange, readFirst, readLast]
  exact if_neg (UInt64.not_le.mpr less)

theorem mapM_unwrapKey_eq_ok_iff {pieces : List (List Char)} {keys : List UInt64} :
    pieces.mapM unwrapKey = .ok keys ↔
      List.Forall₂ (fun piece key => parseU64 piece = .ok key) pieces keys := by
  rw [mapM_eq_ok_iff]
  simp only [unwrapKey, mapError_eq_ok_iff]

/-- What has a meaning is parsed. -/
theorem parseKeyPattern_of_names (names : Names text pattern) :
    parseKeyPattern text = .ok (.ok pattern) := by
  cases names with
  | single read => rw [parseKeyPattern, read]
  | @range first last v0 v1 readFirst readLast less =>
    have dash : '-' ∈ first ++ '-' :: last := by simp
    obtain ⟨kind, failed⟩ := exists_parseU64_eq_error dash (by decide) (by decide)
    rw [parseKeyPattern, failed]
    dsimp only
    have pieces : (first ++ '-' :: last).splitOn '-' = [first, last] := by
      rw [List.splitOn_append_cons_self,
        List.splitOn_eq_singleton (not_mem_of_parseU64 readFirst (by decide) (by decide)),
        List.splitOn_eq_singleton (not_mem_of_parseU64 readLast (by decide) (by decide))]
      rfl
    rw [if_pos dash, pieces, parseRange_eq readFirst readLast less]
  | @multiple _ keys several read =>
    obtain ⟨kind, failed⟩ := exists_parseU64_eq_error several (by decide) (by decide)
    have noDash : '-' ∉ text := by
      intro dash
      obtain ⟨piece, hpiece, inside⟩ := exists_mem_splitOn dash (by decide : '-' ≠ ',')
      obtain ⟨key, -, readPiece⟩ := exists_mem_of_forall₂ read.flip hpiece
      exact not_mem_of_parseU64 readPiece (by decide) (by decide) inside
    rw [parseKeyPattern, failed]
    dsimp only
    rw [if_neg noDash, mapM_unwrapKey_eq_ok_iff.mpr read]
    rfl

/-- What has none is rejected if it has a dash, and aborts the command if it has not. -/
theorem parseKeyPattern_of_not_names (nothing : ¬ ∃ pattern, Names text pattern) :
    if '-' ∈ text then parseKeyPattern text = .ok (.error .keyPattern)
    else ∃ panic, parseKeyPattern text = .error panic := by
  have noKey : ∃ kind, parseU64 text = .error kind := by
    cases read : parseU64 text with
    | ok key => exact absurd ⟨_, .single read⟩ nothing
    | error kind => exact ⟨kind, rfl⟩
  obtain ⟨kind, failed⟩ := noKey
  rw [parseKeyPattern, failed]
  dsimp only
  split_ifs with dash
  · rcases parseRange_cases (text.splitOn '-') with rejected | ⟨first, last, v0, v1, pieces,
      readFirst, readLast, less⟩
    · rw [rejected]
    · have joined : text = first ++ '-' :: last := by
        have whole := @List.intercalate_splitOn _ text _ _ '-'
        rw [pieces] at whole
        simpa using whole.symm
      have names : Names text (.range v0 v1) := by
        rw [joined]
        exact .range readFirst readLast less
      exact absurd ⟨_, names⟩ nothing
  · cases keys : (text.splitOn ',').mapM unwrapKey with
    | error panic => exact ⟨panic, rfl⟩
    | ok keys =>
      have read := mapM_unwrapKey_eq_ok_iff.mp keys
      refine absurd ?_ nothing
      by_cases several : ',' ∈ text
      · exact ⟨_, .multiple several read⟩
      · rw [List.splitOn_eq_singleton several] at read
        cases read with
        | cons readKey none => exact ⟨_, .single readKey⟩

end Parsing

/-! ## Iterating -/

section Iterating

variable {build : Build} {pattern : KeyPattern} {first last : UInt64} {calls index : ℕ}

theorem iterate_of_some {key : UInt64} {next : ℕ} {later : List UInt64 × Bool}
    (found : keypatternIterNext build pattern index = .ok (some key, next))
    (rest : iterate build pattern calls next = .ok later) :
    iterate build pattern (calls + 1) index = .ok (key :: later.1, later.2) :=
  bind_eq_ok_iff.mpr ⟨_, found, bind_eq_ok_iff.mpr ⟨_, rest, rfl⟩⟩

theorem iterate_of_none {next : ℕ}
    (ended : keypatternIterNext build pattern index = .ok (none, next)) :
    iterate build pattern (calls + 1) index = .ok ([], true) :=
  bind_eq_ok_iff.mpr ⟨_, ended, rfl⟩

theorem iterate_single (build : Build) (key : UInt64) :
    iterate build (.single key) 2 0 = .ok ([key], true) := rfl

theorem iterate_multiple (build : Build) (keys : List UInt64) (index : ℕ) :
    iterate build (.multiple keys) (keys.length - index + 1) index =
      .ok (keys.drop index, true) := by
  induction rest : keys.length - index generalizing index with
  | zero =>
    have beyond : keys.length ≤ index := by omega
    rw [List.drop_of_length_le beyond]
    exact iterate_of_none (by rw [keypatternIterNext, List.getElem?_eq_none beyond])
  | succ rest ih =>
    have inside : index < keys.length := by omega
    rw [List.drop_eq_getElem_cons inside]
    exact iterate_of_some (by rw [keypatternIterNext, List.getElem?_eq_getElem inside])
      (ih (index + 1) (by omega))

/-- As long as the sum fits, the next key of a range is its start plus the index. -/
theorem next_range (fits : first.toNat + index < 2 ^ 64) {next : ℕ}
    (counted : nextIndex build index = .ok next) :
    keypatternIterNext build (.range first last) index =
      .ok (if first.toNat + index ≤ last.toNat then some (UInt64.ofNat (first.toNat + index))
        else none, next) := by
  have below : index < 2 ^ 64 := by omega
  have small : (UInt64.ofNat index).toNat = index := UInt64.toNat_ofNat_of_lt' below
  have sum : first + UInt64.ofNat index = UInt64.ofNat (first.toNat + index) := by
    rw [UInt64.ofNat_add, UInt64.ofNat_toNat]
  have added : build.add first (UInt64.ofNat index) = .ok (UInt64.ofNat (first.toNat + index)) := by
    rw [Build.add_eq_ok (by rwa [small]), sum]
  have inRange : UInt64.ofNat (first.toNat + index) ≤ last ↔ first.toNat + index ≤ last.toNat := by
    rw [UInt64.le_iff_toNat_le, UInt64.toNat_ofNat_of_lt' fits]
  simp only [← inRange]
  exact bind_eq_ok_iff.mpr ⟨_, added, bind_eq_ok_iff.mpr ⟨next, counted, rfl⟩⟩

theorem nextIndex_eq_ok (small : index + 1 < 2 ^ 64) : nextIndex build index = .ok (index + 1) := by
  cases build with
  | overflowChecks => exact fits_eq_ok small
  | release => exact congrArg Except.ok (Nat.mod_eq_of_lt small)

/-- The rest of a range. -/
theorem iterate_range (countable : Countable build first last) (le : first.toNat ≤ last.toNat)
    (rest index : ℕ) (position : index + rest = last.toNat - first.toNat + 1) :
    iterate build (.range first last) (rest + 1) index =
      .ok ((List.range' (first.toNat + index) rest).map UInt64.ofNat, true) := by
  obtain ⟨top, counts⟩ := countable
  induction rest generalizing index with
  | zero =>
    -- one more addition than there are keys, and the index is counted once more
    have counted : ∃ next, nextIndex build index = .ok next := by
      cases build with
      | overflowChecks => exact ⟨index + 1, nextIndex_eq_ok (by have := counts rfl; omega)⟩
      | release => exact ⟨_, rfl⟩
    obtain ⟨next, counted⟩ := counted
    have ended := @next_range build first last index (by omega) next counted
    rw [if_neg (by omega)] at ended
    exact iterate_of_none ended
  | succ rest ih =>
    have found := @next_range build first last index (by omega) _ (nextIndex_eq_ok (by omega))
    rw [if_pos (by omega)] at found
    exact iterate_of_some found (ih (index + 1) (by omega))

theorem nextIndex_lt {next : ℕ} (counted : nextIndex build index = .ok next) :
    next < 2 ^ 64 ∧ (build = .overflowChecks → next = index + 1) := by
  cases build with
  | overflowChecks =>
    obtain ⟨small, same⟩ := fits_eq_ok_iff.mp counted
    exact ⟨same ▸ small, fun _ => same.symm⟩
  | release =>
    obtain rfl := Except.ok.inj counted
    exact ⟨Nat.mod_lt _ (Nat.two_pow_pos 64), nofun⟩

/-- An iterator that comes to its end was asked for a key past the last one. -/
theorem exists_next_eq_none {keys : List UInt64} (small : index < 2 ^ 64)
    (ended : iterate build (.range first last) calls index = .ok (keys, true)) :
    ∃ i < 2 ^ 64, ∃ next, keypatternIterNext build (.range first last) i = .ok (none, next) := by
  induction calls generalizing index keys with
  | zero => cases ended
  | succ calls ih =>
    obtain ⟨⟨key, next⟩, found, ended⟩ := bind_eq_ok_iff.mp ended
    cases key with
    | none => exact ⟨index, small, next, found⟩
    | some key =>
      obtain ⟨val, -, found⟩ := bind_eq_ok_iff.mp found
      obtain ⟨after, counted, found⟩ := bind_eq_ok_iff.mp found
      cases (Prod.mk.inj (Except.ok.inj found)).2
      obtain ⟨later, rest, ended⟩ := bind_eq_ok_iff.mp ended
      obtain ⟨-, flag⟩ := Prod.mk.inj (Except.ok.inj ended)
      exact ih (nextIndex_lt counted).1 (rest.trans (by rw [← flag]))

theorem countable_of_next_eq_none {next : ℕ} (small : index < 2 ^ 64)
    (ended : keypatternIterNext build (.range first last) index = .ok (none, next)) :
    Countable build first last := by
  obtain ⟨val, added, ended⟩ := bind_eq_ok_iff.mp ended
  obtain ⟨after, counted, ended⟩ := bind_eq_ok_iff.mp ended
  obtain ⟨none, rfl⟩ := Prod.mk.inj (Except.ok.inj ended)
  have above : last.toNat < val.toNat := by
    by_contra below
    rw [if_pos (UInt64.le_iff_toNat_le.mpr (Nat.not_lt.mp below))] at none
    cases none
  obtain ⟨sum, fits⟩ := Build.eq_add_of_add_eq_ok added
  obtain ⟨bound, grown⟩ := nextIndex_lt counted
  have top := val.toNat_lt
  refine ⟨by omega, fun checks => ?_⟩
  have noWrap := fits checks
  have index_eq : (UInt64.ofNat index).toNat = index := UInt64.toNat_ofNat_of_lt' small
  rw [index_eq] at noWrap
  rw [sum, UInt64.toNat_add, index_eq, Nat.mod_eq_of_lt noWrap] at above
  have := grown checks
  omega

end Iterating

theorem HandledRight.countable {build : Build} {text : List Char} {first last : UInt64}
    (right : HandledRight build text) (names : Names text (.range first last)) :
    Countable build first last := by
  obtain ⟨-, calls, ended⟩ := right.1 _ names
  obtain ⟨index, small, next, past⟩ := exists_next_eq_none (Nat.two_pow_pos 64) ended
  exact countable_of_next_eq_none small past

theorem HandledRight.parseKeyPattern_ne_error {build : Build} {text : List Char}
    (right : HandledRight build text) (panic : Panic) : parseKeyPattern text ≠ .error panic := by
  intro aborted
  by_cases meaning : ∃ pattern, Names text pattern
  · obtain ⟨pattern, names⟩ := meaning
    rw [(right.1 pattern names).1] at aborted
    cases aborted
  · rw [right.2 meaning] at aborted
    cases aborted

/-- A text is handled right just when it is not a range that cannot be counted past, and it
has a meaning or a dash. -/
theorem handledRight_iff (build : Build) (text : List Char) :
    HandledRight build text ↔
      (∀ first last, Names text (.range first last) → Countable build first last) ∧
        ((∃ pattern, Names text pattern) ∨ '-' ∈ text) := by
  constructor
  · intro right
    refine ⟨fun first last => right.countable, ?_⟩
    by_contra neither
    obtain ⟨nothing, noDash⟩ := not_or.mp neither
    have outcome := parseKeyPattern_of_not_names nothing
    rw [if_neg noDash] at outcome
    obtain ⟨panic, aborted⟩ := outcome
    exact right.parseKeyPattern_ne_error panic aborted
  · rintro ⟨countable, meaning⟩
    refine ⟨fun pattern names => ⟨parseKeyPattern_of_names names, ?_⟩, fun nothing => ?_⟩
    · cases names with
      | single read => exact ⟨2, iterate_single build _⟩
      | @range first last v0 v1 readFirst readLast less =>
        have le : v0.toNat ≤ v1.toNat := Nat.le_of_lt (UInt64.lt_iff_toNat_lt.mp less)
        exact ⟨_, iterate_range (countable v0 v1 (.range readFirst readLast less)) le _ 0
          (Nat.zero_add _)⟩
      | multiple several read => exact ⟨_, iterate_multiple build _ 0⟩
    · have outcome := parseKeyPattern_of_not_names nothing
      rwa [if_pos (meaning.resolve_left nothing)] at outcome

/-- The range of the two greatest keys. -/
def greatestKeys : KeyPattern := .range 18446744073709551614 18446744073709551615

/-- With overflow checks the command aborts after the two greatest keys. Without them it goes
on with the keys 0 and 1. A word is not rejected but aborts, too. -/
theorem not_handledRight_of_greatest_keys :
    Names "18446744073709551614-18446744073709551615".toList greatestKeys ∧
      iterate .overflowChecks greatestKeys 3 0 = .error ⟨"attempt to add with overflow"⟩ ∧
      iterate .release greatestKeys 4 0 =
        .ok ([18446744073709551614, 18446744073709551615, 0, 1], false) ∧
      (∀ build, ¬ HandledRight build "18446744073709551614-18446744073709551615".toList) ∧
      parseKeyPattern "abc".toList = .error
        ⟨"called `Result::unwrap()` on an `Err` value: " ++
          "ParseIntError \x7b kind: InvalidDigit \x7d"⟩ ∧
      ∀ build, ¬ HandledRight build "abc".toList := by
  have names : Names ("18446744073709551614".toList ++ '-' :: "18446744073709551615".toList)
      (.range 18446744073709551614 18446744073709551615) :=
    .range (by decide +kernel) (by decide +kernel) (by decide)
  have word : parseKeyPattern "abc".toList = .error
      ⟨"called `Result::unwrap()` on an `Err` value: " ++
          "ParseIntError \x7b kind: InvalidDigit \x7d"⟩ := by
    decide +kernel
  refine ⟨names, by decide +kernel, by decide +kernel, fun build right => ?_, word,
    fun build right => right.parseKeyPattern_ne_error _ word⟩
  exact absurd (right.countable names).1 (by decide)

end Bob.Client

/-
# Start times of partitions

A record goes to the partition that covers its timestamp. When there is none, a
new partition starts at the timestamp itself, or, if starts are rounded, at a
multiple of the period counted from midnight or from the start of the week.
Times are counted in seconds since the epoch; the period may have a fraction, so
the search for the start runs in nanoseconds, and the start found is cut down to
whole seconds. The end of the partition uses the whole seconds of the period, so
it can lie at or before the timestamp.
-/

import Bob.Common.NodeConfig

namespace Bob.Backend

open Bob.Configs Bob.Math

/-- Whether the start of a new partition is rounded. -/
structure StartTimestampConfig where
  round : Bool
  deriving DecidableEq, Repr

def StartTimestampConfig.default : StartTimestampConfig := ⟨true⟩

def nanosPerSec : ℤ := 10 ^ 9

def secsPerDay : ℕ := 86400

/-- Days since Monday. The epoch was a Thursday. -/
def numDaysFromMonday (time : ℕ) : ℕ := (time / secsPerDay + 3) % 7

/-- The start of the day of a time. -/
def midnight (time : ℕ) : ℕ := time / secsPerDay * secsPerDay

/-- A period as the calendar library prints it. -/
def display (period : Duration) : String :=
  let digits := (toString (10 ^ 9 + period.nanos % 10 ^ 9)).toList.drop 1
  let fraction := (digits.reverse.dropWhile (· = '0')).reverse
  s!"PT{period.asSecs}" ++ String.ofList (if fraction = [] then [] else '.' :: fraction) ++ "S"

/-- The first candidate for the start of a partition. On a Monday the source
subtracts one from zero days, which is out of range. -/
def firstStart (period : Duration) (time : ℕ) : Except Panic ℤ :=
  if period.nanos ≤ (Duration.ofDays 1).nanos then .ok (midnight time)
  else if period.nanos ≤ (Duration.ofDays 7).nanos then
    if numDaysFromMonday time = 0 then .error ⟨"attempt to subtract with overflow"⟩
    else .ok ((midnight time : ℤ) - ((numDaysFromMonday time : ℤ) - 1) * secsPerDay)
  else .error ⟨s!"pearid: {display period} is too large"⟩

/-- The loop that moves the start by periods until the partition covers the time.
Every round adds the period, and the sum must be in the calendar. With a period of
zero it never ends, which shows here as a panic. -/
def coverTime (representable : ℕ → Bool) (period time : ℤ) : ℕ → ℤ → Except Panic ℤ
  | 0, _ => .error ⟨"the search for the start does not end"⟩
  | fuel + 1, start =>
    -- times before the epoch are in the calendar
    if !representable ((start + period) / nanosPerSec).toNat then
      .error ⟨"`NaiveDateTime + TimeDelta` overflowed"⟩
    else if start ≤ time ∧ time < start + period then .ok start
    else coverTime representable period time fuel (start + period)

/-- The rounded start, from a first candidate in seconds. -/
def roundedStart (representable : ℕ → Bool) (period : Duration) (time : ℕ) (start : ℤ) :
    Except Panic ℤ :=
  let time : ℤ := time * nanosPerSec
  let start : ℤ := start * nanosPerSec
  coverTime representable period.nanos time (((time - start) / period.nanos).toNat + 1) start

def getStartTimestamp (representable : ℕ → Bool) (period : Duration) (time : ℕ)
    (config : StartTimestampConfig) : Except Panic ℕ := do
  if !config.round then
    return time
  let first ← firstStart period time
  let start ← roundedStart representable period time first
  if start < 0 then
    .error ⟨"called `Result::unwrap()` on an `Err` value"⟩
  else
    .ok (start / nanosPerSec).toNat

/-- The start of the partition for a timestamp. The timestamp must fit a signed
number. The calendar covers only some timestamps, and its durations are counted in
64 bits of milliseconds. Texts of panics leave out what `unwrap` and `expect` print of
the error. -/
def getStartTimestampByTimestamp (representable : ℕ → Bool) (period : Duration) (time : ℕ)
    (config : StartTimestampConfig) : Except Panic ℕ := do
  if period.nanos / 10 ^ 6 ≥ 2 ^ 63 then
    .error ⟨"convert std time to chrono"⟩
  else if time ≥ 2 ^ 63 then
    .error ⟨"called `Result::unwrap()` on an `Err` value"⟩
  else if !representable time then
    .error ⟨"time out of range"⟩
  else
    getStartTimestamp representable period time config

/-! ## What a start guarantees -/

section Spec

variable {representable : ℕ → Bool} {period : Duration} {time : ℕ}

/-- Where the loop ends, the period starting there covers the time, and its end is in
the calendar. -/
theorem coverTime_spec {period time start result : ℤ} {fuel : ℕ}
    (found : coverTime representable period time fuel start = .ok result) :
    result ≤ time ∧ time < result + period ∧
      representable ((result + period) / nanosPerSec).toNat = true ∧
      ∃ k : ℕ, result = start + k * period := by
  induction fuel generalizing start with
  | zero => cases found
  | succ fuel ih =>
    unfold coverTime at found
    split_ifs at found with inside covers
    · cases found
      exact ⟨covers.1, covers.2, by simpa using inside, 0, by simp⟩
    · obtain ⟨le, lt, stays, k, rfl⟩ := ih found
      exact ⟨le, lt, stays, k + 1, by rw [Int.natCast_succ, Int.add_mul, Int.one_mul]; omega⟩

/-- With a period of zero the loop does not end, however long it runs. -/
theorem coverTime_zero_ne_ok {time start result : ℤ} (fuel : ℕ) :
    coverTime representable 0 time fuel start ≠ .ok result := by
  intro found
  obtain ⟨le, lt, -⟩ := coverTime_spec found
  omega

/-- With a positive period the loop ends, if the calendar covers the ends of all
periods that start before the time: the quotient bounds the number of rounds. -/
private theorem exists_coverTime {period time : ℤ} (pos : 0 < period) {start : ℤ}
    (before : start ≤ time)
    (inside : ∀ k : ℕ, start + k * period ≤ time →
      representable ((start + k * period + period) / nanosPerSec).toNat = true)
    {fuel : ℕ} (enough : (time - start) / period < fuel) :
    ∃ result, coverTime representable period time fuel start = .ok result := by
  induction fuel generalizing start with
  | zero =>
    have nonneg : 0 ≤ (time - start) / period := Int.ediv_nonneg (by omega) pos.le
    omega
  | succ fuel ih =>
    unfold coverTime
    have here := inside 0 (by simpa using before)
    rw [Int.natCast_zero, Int.zero_mul, Int.add_zero] at here
    rw [if_neg (by simp [here])]
    split_ifs with covers
    · exact ⟨start, rfl⟩
    · have later : start + period ≤ time := not_lt.mp fun h => covers ⟨before, h⟩
      refine ih later (fun k hk => ?_) ?_
      · have shifted : start + period + k * period = start + (k + 1 : ℕ) * period := by
          rw [Int.natCast_succ, Int.add_mul, Int.one_mul]
          omega
        rw [shifted] at hk ⊢
        exact inside (k + 1) hk
      · have shifted : time - (start + period) = time - start + (-1) * period := by omega
        rw [shifted, Int.add_mul_ediv_right _ _ pos.ne']
        push_cast at enough
        omega

/-- The partition of a rounded start covers the time, up to the second that cutting
down the start and the period may lose. -/
theorem getStartTimestamp_spec {config : StartTimestampConfig} {start : ℕ}
    (found : getStartTimestamp representable period time config = .ok start) :
    start ≤ time ∧ time ≤ start + period.asSecs + 1 := by
  unfold getStartTimestamp at found
  split_ifs at found with plain
  · cases found
    omega
  · obtain ⟨first, -, found⟩ := bind_eq_ok_iff.mp found
    obtain ⟨nanos, hnanos, found⟩ := bind_eq_ok_iff.mp found
    obtain ⟨le, lt, -⟩ := coverTime_spec hnanos
    split_ifs at found with negative
    cases found
    unfold Duration.asSecs
    simp only [nanosPerSec] at le lt ⊢
    omega

theorem getStartTimestampByTimestamp_spec {config : StartTimestampConfig} {start : ℕ}
    (found : getStartTimestampByTimestamp representable period time config = .ok start) :
    start ≤ time ∧ time ≤ start + period.asSecs + 1 := by
  unfold getStartTimestampByTimestamp at found
  split_ifs at found
  exact getStartTimestamp_spec found

/-! ## Starts that can be computed -/

/-- The second from which the slots of a time are counted: midnight, or for periods of more
than a day the midnight that starts the Tuesday of the week. -/
def countedFrom (period : Duration) (time : ℕ) : ℤ :=
  if period.nanos ≤ (Duration.ofDays 1).nanos then midnight time
  else (midnight time : ℤ) - ((numDaysFromMonday time : ℤ) - 1) * secsPerDay

/-- The nanoseconds between the start of the slot of a time and the time. -/
def sinceSlot (period : Duration) (time : ℕ) : ℤ :=
  ((time : ℤ) - countedFrom period time) * nanosPerSec % period.nanos

/-- The period and the weekday for which the source has a first candidate. -/
def HasFirstStart (period : Duration) (time : ℕ) : Prop :=
  period.nanos ≤ (Duration.ofDays 1).nanos ∨
    period.nanos ≤ (Duration.ofDays 7).nanos ∧ numDaysFromMonday time ≠ 0

theorem firstStart_eq_ok_iff {first : ℤ} :
    firstStart period time = .ok first ↔
      HasFirstStart period time ∧ first = countedFrom period time := by
  unfold firstStart HasFirstStart countedFrom
  split_ifs with day week monday
  · simp [day, eq_comm]
  · simp [day, monday]
  · simp [day, week, monday, eq_comm]
  · simp [day, week]

theorem countedFrom_le (has : HasFirstStart period time) : countedFrom period time ≤ time := by
  have early : midnight time ≤ time := Nat.div_mul_le_self _ _
  unfold countedFrom
  split_ifs with day
  · omega
  · obtain ⟨-, monday⟩ := has.resolve_left day
    unfold secsPerDay
    omega

/-- A calendar that has no gaps before a time that it covers. -/
def Closed (representable : ℕ → Bool) : Prop :=
  ∀ earlier later, earlier ≤ later → representable later = true → representable earlier = true

theorem sinceSlot_nonneg (has : HasFirstStart period time) : 0 ≤ sinceSlot period time := by
  have passed : 0 ≤ ((time : ℤ) - countedFrom period time) * nanosPerSec := by
    have := countedFrom_le has
    simp only [nanosPerSec]
    omega
  rcases Nat.eq_zero_or_pos period.nanos with zero | pos
  · rwa [sinceSlot, zero, Int.natCast_zero, Int.emod_zero]
  · exact Int.emod_nonneg _ (by omega)

/-- The loop ends at the start of the slot, and the calendar covers the end of the slot. -/
private theorem roundedStart_spec {nanos : ℤ}
    (found : roundedStart representable period time (countedFrom period time) = .ok nanos) :
    nanos = time * nanosPerSec - sinceSlot period time ∧
      representable ((nanos + period.nanos) / nanosPerSec).toNat = true := by
  obtain ⟨le, lt, inside, k, eq⟩ := coverTime_spec found
  have split : ((time : ℤ) - countedFrom period time) * nanosPerSec =
      time * nanosPerSec - nanos + k * period.nanos := by
    rw [Int.sub_mul]
    omega
  refine ⟨?_, inside⟩
  rw [sinceSlot, split, Int.add_mul_emod_self_right, Int.emod_eq_of_lt (by omega) (by omega)]
  omega

/-- If the calendar covers the end of the slot, the loop ends: no candidate that is not after
the time is after the start of the slot. -/
private theorem exists_roundedStart (closed : Closed representable) (pos : 0 < period.nanos)
    (has : HasFirstStart period time)
    (inside : representable ((time * nanosPerSec - sinceSlot period time + period.nanos) /
      nanosPerSec).toNat = true) :
    ∃ nanos, roundedStart representable period time (countedFrom period time) = .ok nanos := by
  have positive : (0 : ℤ) < period.nanos := by omega
  have passed : 0 ≤ ((time : ℤ) - countedFrom period time) * nanosPerSec := by
    have := countedFrom_le has
    simp only [nanosPerSec]
    omega
  rw [Int.sub_mul] at passed
  refine exists_coverTime positive (by omega) (fun k hk => closed _ _ ?_ inside) ?_
  · have quotient : (k : ℤ) ≤
        (time * nanosPerSec - countedFrom period time * nanosPerSec) / period.nanos := by
      rw [Int.le_ediv_iff_mul_le positive]
      omega
    have product := Int.mul_le_mul_of_nonneg_right quotient positive.le
    have whole := Int.ediv_mul_add_emod
      (time * nanosPerSec - countedFrom period time * nanosPerSec) period.nanos
    apply Int.toNat_le_toNat
    apply Int.ediv_le_ediv (by decide)
    rw [sinceSlot, Int.sub_mul]
    omega
  · have nonneg := Int.ediv_nonneg passed positive.le
    omega

section Fits

variable (fits : period.nanos / 10 ^ 6 < 2 ^ 63) {start : ℕ}
include fits

/-- What every start takes, rounded or not. -/
private theorem getStartTimestampByTimestamp_iff_getStartTimestamp {config : StartTimestampConfig} :
    getStartTimestampByTimestamp representable period time config = .ok start ↔
      time < 2 ^ 63 ∧ representable time = true ∧
        getStartTimestamp representable period time config = .ok start := by
  unfold getStartTimestampByTimestamp
  rw [if_neg (not_le.mpr fits)]
  by_cases large : time ≥ 2 ^ 63
  · rw [if_pos large]
    exact iff_of_false (fun h => by cases h) fun h => absurd h.1 (not_lt.mpr large)
  rw [if_neg large, and_iff_right (not_le.mp large)]
  cases inside : representable time with
  | false => exact iff_of_false (fun h => by cases h) fun h => by cases h.1
  | true => exact (and_iff_right rfl).symm

theorem getStartTimestampByTimestamp_plain_eq_ok_iff :
    getStartTimestampByTimestamp representable period time ⟨false⟩ = .ok start ↔
      time < 2 ^ 63 ∧ representable time = true ∧ start = time := by
  rw [getStartTimestampByTimestamp_iff_getStartTimestamp fits]
  refine and_congr_right' (and_congr_right' ⟨fun found => ?_, fun same => ?_⟩)
  · exact (Except.ok.inj found).symm
  · rw [same]
    rfl

theorem getStartTimestampByTimestamp_rounded_eq_ok
    (found : getStartTimestampByTimestamp representable period time ⟨true⟩ = .ok start) :
    time < 2 ^ 63 ∧ representable time = true ∧ HasFirstStart period time ∧
      sinceSlot period time ≤ time * nanosPerSec ∧
      representable ((time * nanosPerSec - sinceSlot period time + period.nanos) /
        nanosPerSec).toNat = true ∧
      start = ((time * nanosPerSec - sinceSlot period time) / nanosPerSec).toNat := by
  obtain ⟨large, outside, found⟩ :=
    (getStartTimestampByTimestamp_iff_getStartTimestamp fits).mp found
  obtain ⟨first, hfirst, found⟩ := bind_eq_ok_iff.mp found
  obtain ⟨has, rfl⟩ := firstStart_eq_ok_iff.mp hfirst
  obtain ⟨nanos, hnanos, found⟩ := bind_eq_ok_iff.mp found
  obtain ⟨rfl, inside⟩ := roundedStart_spec hnanos
  split_ifs at found with negative
  cases found
  exact ⟨large, outside, has, by omega, inside, rfl⟩

/-- When a rounded start can be computed. -/
theorem exists_getStartTimestampByTimestamp_rounded_iff (pos : 0 < period.nanos)
    (closed : Closed representable) :
    (∃ start, getStartTimestampByTimestamp representable period time ⟨true⟩ = .ok start) ↔
      time < 2 ^ 63 ∧ representable time = true ∧ HasFirstStart period time ∧
        sinceSlot period time ≤ time * nanosPerSec ∧
        representable ((time * nanosPerSec - sinceSlot period time + period.nanos) /
          nanosPerSec).toNat = true := by
  constructor
  · rintro ⟨start, found⟩
    obtain ⟨large, outside, has, nonneg, inside, -⟩ :=
      getStartTimestampByTimestamp_rounded_eq_ok fits found
    exact ⟨large, outside, has, nonneg, inside⟩
  · rintro ⟨large, outside, has, nonneg, inside⟩
    obtain ⟨nanos, found⟩ := exists_roundedStart closed pos has inside
    obtain ⟨rfl, -⟩ := roundedStart_spec found
    refine ⟨((time * nanosPerSec - sinceSlot period time) / nanosPerSec).toNat, ?_⟩
    refine (getStartTimestampByTimestamp_iff_getStartTimestamp fits).mpr ⟨large, outside, ?_⟩
    refine bind_eq_ok_iff.mpr ⟨_, firstStart_eq_ok_iff.mpr ⟨has, rfl⟩, ?_⟩
    refine bind_eq_ok_iff.mpr ⟨_, found, ?_⟩
    rw [if_neg (by omega)]

end Fits

end Spec

/-! ## Slots of whole seconds within a day -/

/-- The start of the slot of a time: slots follow each other from midnight on. -/
def slotStart (secs time : ℕ) : ℕ := midnight time + (time - midnight time) / secs * secs

/-- A period of whole seconds, at least one and at most a day. -/
structure DailyPeriod (period : Duration) (secs : ℕ) : Prop where
  nanos_eq : period.nanos = secs * 10 ^ 9
  pos : 1 ≤ secs
  le_day : secs ≤ secsPerDay

namespace DailyPeriod

variable {representable : ℕ → Bool} {period : Duration} {secs time : ℕ}
  {config : StartTimestampConfig}

theorem asSecs_eq (daily : DailyPeriod period secs) : period.asSecs = secs := by
  rw [Duration.asSecs, daily.nanos_eq, Nat.mul_div_cancel _ (by decide)]

/-- The slot of a time contains it. -/
theorem slotStart_le_lt (daily : DailyPeriod period secs) :
    slotStart secs time ≤ time ∧ time < slotStart secs time + secs := by
  have early : midnight time ≤ time := Nat.div_mul_le_self _ _
  have low := Nat.div_mul_le_self (time - midnight time) secs
  have high := Nat.lt_div_mul_add (a := time - midnight time) daily.pos
  unfold slotStart
  omega

/-- The time since midnight, up to the start of the slot and from there on. -/
theorem slotStart_add_mod : slotStart secs time + (time - midnight time) % secs = time := by
  have early : midnight time ≤ time := Nat.div_mul_le_self _ _
  have whole := Nat.div_add_mod' (time - midnight time) secs
  unfold slotStart
  omega

theorem pos_nanos (daily : DailyPeriod period secs) : 0 < period.nanos := by
  have := daily.pos
  rw [daily.nanos_eq]
  omega

private theorem le_ofDays (daily : DailyPeriod period secs) :
    period.nanos ≤ (Duration.ofDays 1).nanos := by
  have := daily.le_day
  simp only [daily.nanos_eq, Duration.ofDays, secsPerDay] at this ⊢
  omega

private theorem fits_chrono (daily : DailyPeriod period secs) :
    period.nanos / 10 ^ 6 < 2 ^ 63 := by
  have := daily.le_day
  rw [daily.nanos_eq]
  unfold secsPerDay at this
  omega

/-- Slots of whole seconds are counted from midnight. -/
private theorem nanos_of_slotStart (daily : DailyPeriod period secs) :
    time * nanosPerSec - sinceSlot period time = slotStart secs time * nanosPerSec ∧
      time * nanosPerSec - sinceSlot period time + period.nanos =
        (slotStart secs time + secs : ℕ) * nanosPerSec := by
  have early : midnight time ≤ time := Nat.div_mul_le_self _ _
  have counted : (time : ℤ) - countedFrom period time = (time - midnight time : ℕ) := by
    rw [countedFrom, if_pos daily.le_ofDays]
    omega
  have nanos : (period.nanos : ℤ) = secs * nanosPerSec := by
    rw [daily.nanos_eq, Int.natCast_mul]
    rfl
  have since : sinceSlot period time = ((time - midnight time) % secs : ℕ) * nanosPerSec := by
    rw [sinceSlot, counted, nanos, Int.mul_comm, Int.mul_comm (secs : ℤ),
      Int.mul_emod_mul_of_pos _ _ (by decide), Int.natCast_emod, Int.mul_comm]
  have split := @slotStart_add_mod secs time
  have start : time * nanosPerSec - sinceSlot period time = slotStart secs time * nanosPerSec := by
    rw [since, ← Int.sub_mul]
    congr 1
    omega
  exact ⟨start, by rw [start, nanos, Int.natCast_add, Int.add_mul]⟩

/-- The start of a partition is the start of the slot or the time itself. What it took
to compute it was in the calendar. -/
theorem getStartTimestampByTimestamp_eq_ok (daily : DailyPeriod period secs) {start : ℕ}
    (found : getStartTimestampByTimestamp representable period time config = .ok start) :
    start = (if config.round then slotStart secs time else time) ∧
      time < 2 ^ 63 ∧ representable time = true ∧
      (config.round = true → representable (slotStart secs time + secs) = true) := by
  obtain ⟨round⟩ := config
  cases round with
  | false =>
    obtain ⟨large, outside, rfl⟩ :=
      (getStartTimestampByTimestamp_plain_eq_ok_iff daily.fits_chrono).mp found
    exact ⟨rfl, large, outside, fun h => by cases h⟩
  | true =>
    obtain ⟨large, outside, -, -, inside, rfl⟩ :=
      getStartTimestampByTimestamp_rounded_eq_ok daily.fits_chrono found
    rw [daily.nanos_of_slotStart.2, Int.mul_ediv_cancel _ (by decide), Int.toNat_natCast] at inside
    rw [daily.nanos_of_slotStart.1, Int.mul_ediv_cancel _ (by decide), Int.toNat_natCast]
    exact ⟨rfl, large, outside, fun _ => inside⟩

/-- A timestamp has a start if the calendar covers it and, where starts are rounded,
the end of its slot. -/
theorem exists_getStartTimestampByTimestamp (daily : DailyPeriod period secs)
    (closed : Closed representable) (fits : time < 2 ^ 63) (inside : representable time = true)
    (ends : config.round = true → representable (slotStart secs time + secs) = true) :
    ∃ start, getStartTimestampByTimestamp representable period time config = .ok start := by
  obtain ⟨round⟩ := config
  cases round with
  | false =>
    exact ⟨time, (getStartTimestampByTimestamp_plain_eq_ok_iff daily.fits_chrono).mpr
      ⟨fits, inside, rfl⟩⟩
  | true =>
    rw [exists_getStartTimestampByTimestamp_rounded_iff daily.fits_chrono daily.pos_nanos closed]
    refine ⟨fits, inside, Or.inl daily.le_ofDays, ?_, ?_⟩
    · have start := (@nanos_of_slotStart period secs time daily).1
      simp only [nanosPerSec] at start ⊢
      omega
    · rw [daily.nanos_of_slotStart.2, Int.mul_ediv_cancel _ (by decide), Int.toNat_natCast]
      exact ends rfl

end DailyPeriod

end Bob.Backend

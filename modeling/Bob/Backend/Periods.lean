/-
# Partitions for every accepted period

The period of partitions comes from the node file, and all that its check asks is that
it is at most 366 days. For whole seconds up to a day the start that is computed for a
timestamp is the start of its slot of the day, and the new partition covers the
timestamp. For other periods it may be otherwise. A start is cut down to whole seconds
and so is the period, so the end of the partition may come too early. The week is
counted from Tuesday, and a Monday is not provided for. A period of more than a week
is refused, and one of zero makes the search for the start run forever.
-/

import Bob.Backend.Slots

namespace Bob.Backend

open Bob.Configs Bob.Math

variable {keySize : ℕ} {engine : StorageEngine keySize} {settings : Settings}
  {config : StartTimestampConfig} {secs last time : ℕ}

theorem Settings.CalendarEndsAt.closed (calendar : settings.CalendarEndsAt last) :
    Closed settings.representable := by
  intro earlier later le inside
  rw [calendar.covers] at inside ⊢
  exact le.trans inside

/-! ## Slots of a day -/

/-- A time of the same day is in the slot of another exactly if it has the same slot. -/
theorem slotStart_eq_of_same_day {other : ℕ} (day : midnight other = midnight time)
    (le : slotStart secs time ≤ other) (lt : other < slotStart secs time + secs) :
    slotStart secs other = slotStart secs time := by
  have quotient : (other - midnight time) / secs = (time - midnight time) / secs := by
    unfold slotStart at le lt
    apply Nat.div_eq_of_lt_le
    · omega
    · rw [Nat.add_mul, Nat.one_mul]
      omega
  rw [slotStart, slotStart, day, quotient]

theorem midnight_le_slotStart : midnight time ≤ slotStart secs time := Nat.le_add_right _ _

theorem midnight_eq_of_le {other : ℕ} (after : midnight time ≤ other) (before : other ≤ time) :
    midnight other = midnight time := by
  unfold midnight secsPerDay at *
  omega

/-- For a period of whole seconds up to a day, the rounded start for a timestamp is the last
multiple of the period after midnight that is not after it. All times of the day in that
slot get the same start, the new partition covers the timestamp, and a partition that is
there already with this start would have been found. -/
theorem start_of_daily_slot (daily : DailyPeriod settings.timestampPeriod secs)
    (calendar : settings.CalendarEndsAt last) (inside : time + secs ≤ last) :
    ∃ start, getStartTimestampByTimestamp settings.representable settings.timestampPeriod time
        ⟨true⟩ = .ok start ∧
      start ≤ time ∧ time < start + secs ∧
      (∃ k, start = midnight time + k * secs) ∧ midnight start = midnight time ∧
      (∀ other, midnight other = midnight time → start ≤ other → other < start + secs →
        getStartTimestampByTimestamp settings.representable settings.timestampPeriod other
          ⟨true⟩ = .ok start) ∧
      (∃ holder : Holder engine, Group.createPearlByTimestamp settings time ⟨true⟩ = .ok holder ∧
        holder.startTimestamp = start ∧ holder.getsIntoInterval time = true) ∧
      ∀ (holders : List (Holder engine)), ∀ holder ∈ holders, holder.startTimestamp = start →
        holder.endTimestamp = start + secs →
        ∃ i found, Group.findActualHolder holders time = .ok (i, found) ∧
          found.getsIntoInterval time = true ∧
          ((∀ other ∈ holders, slotStart secs other.startTimestamp = other.startTimestamp) →
            found.startTimestamp = start) := by
  obtain ⟨le, lt⟩ : slotStart secs time ≤ time ∧ time < slotStart secs time + secs :=
    daily.slotStart_le_lt
  have late : midnight time ≤ slotStart secs time := midnight_le_slotStart
  -- every time of the slot has the start of the slot
  have computed {other : ℕ} (day : midnight other = midnight time)
      (after : slotStart secs time ≤ other) (before : other < slotStart secs time + secs) :
      getStartTimestampByTimestamp settings.representable settings.timestampPeriod other ⟨true⟩ =
        .ok (slotStart secs time) := by
    have same := slotStart_eq_of_same_day day after before
    obtain ⟨start, found⟩ := @DailyPeriod.exists_getStartTimestampByTimestamp
      settings.representable _ _ other ⟨true⟩ daily calendar.closed
      (by have := calendar.last_lt; omega) ((calendar.covers _).mpr (by omega))
      fun _ => (calendar.covers _).mpr (by omega)
    rw [found, (daily.getStartTimestampByTimestamp_eq_ok found).1, if_pos rfl, same]
  have created : Group.createPearlByTimestamp settings time ⟨true⟩ =
      .ok (Group.createPearlHolder settings (slotStart secs time) : Holder engine) :=
    bind_eq_ok_iff.mpr ⟨_, computed rfl le lt, rfl⟩
  refine ⟨slotStart secs time, computed rfl le lt, le, lt, ⟨_, rfl⟩, midnight_eq_of_le late le,
    fun other day => computed day, ⟨_, created, rfl, ?_⟩, ?_⟩
  · exact Group.getsIntoInterval_of_created daily created
  · intro holders holder listed start ends
    have covers : holder.getsIntoInterval time = true := by
      simp only [Holder.getsIntoInterval, start, ends, Bool.and_eq_true, decide_eq_true_eq]
      exact ⟨le, lt⟩
    cases hfound : Group.findActualHolder holders time with
    | error e =>
      rw [Group.getsIntoInterval_of_findActualHolder hfound holder listed] at covers
      cases covers
    | ok indexed =>
      obtain ⟨i, found⟩ := indexed
      obtain ⟨here, early, before⟩ := Group.findActualHolder_spec hfound
      refine ⟨i, found, rfl, by simp [Holder.getsIntoInterval, early, before], fun slots => ?_⟩
      -- it starts in the slot and at the start of a slot
      have after := Group.startTimestamp_le_of_findActualHolder hfound listed covers
      rw [start] at after
      rw [← slots found (List.mem_of_getElem? here)]
      exact slotStart_eq_of_same_day (midnight_eq_of_le (late.trans after) early) after
        (early.trans_lt lt)

/-- Eight in the morning, with a period of seven hours: the slot starts at seven. -/
theorem start_of_morning_slot :
    ∃ start, getStartTimestampByTimestamp (fun time => time ≤ 8210266876799)
        ⟨25200 * 10 ^ 9⟩ 28800 ⟨true⟩ = .ok start ∧ start ≤ 28800 ∧ 28800 < start + 25200 := by
  obtain ⟨start, found, le, lt, -⟩ := @start_of_daily_slot 8 (logEngine 8)
    { Group.chronoSettings with timestampPeriod := ⟨25200 * 10 ^ 9⟩ } 25200 8210266876799 28800
    ⟨rfl, by decide, by decide⟩ ⟨fun time => by simp [Group.chronoSettings], by decide⟩ (by decide)
  exact ⟨start, found, le, lt⟩

/-! ## All accepted periods -/

/-- The nanoseconds between the start that is computed for a time and the time. -/
def sinceStart (config : StartTimestampConfig) (period : Duration) (time : ℕ) : ℤ :=
  if config.round then sinceSlot period time else 0

/-- The times for which a start can be computed whose partition covers them. -/
structure Coverable (config : StartTimestampConfig) (period : Duration) (last time : ℕ) :
    Prop where
  /-- The whole seconds of the period reach from the start behind the time. -/
  roomy : sinceStart config period time + nanosPerSec ≤ period.asSecs * nanosPerSec
  /-- A rounded start needs a period of at most a week, and above a day no Monday. -/
  first : config.round = true → HasFirstStart period time
  /-- The slot does not start before the epoch. -/
  notNegative : config.round = true → sinceSlot period time ≤ time * nanosPerSec
  /-- The slot ends in the calendar. -/
  inCalendar : config.round = true →
    (time * nanosPerSec - sinceSlot period time + period.nanos) / nanosPerSec ≤ last

theorem BackendSettings.period_le_of_validate {ext : Externals} {backend : BackendSettings}
    {period : Duration} (accepted : backend.validate ext = .ok ())
    (parsed : ext.parseHumanDuration backend.timestampPeriod = .ok period) :
    period.nanos ≤ (Duration.ofDays 366).nanos := by
  simp only [BackendSettings.validate, seq_eq_ok_iff] at accepted
  have checked := accepted.2.2.2.1
  rw [BackendSettings.checkTimestampPeriod, parsed] at checked
  dsimp only at checked
  split_ifs at checked with huge long
  exact not_lt.mp long

/-- A start that was cut down to seconds, and the whole seconds of the period: they reach
behind the time exactly if they would from where the slot starts. -/
private theorem covers_iff {since : ℤ} {seconds : ℕ} (nonneg : 0 ≤ since)
    (le : since ≤ time * nanosPerSec) :
    (((time * nanosPerSec - since) / nanosPerSec).toNat ≤ time ∧
      time < ((time * nanosPerSec - since) / nanosPerSec).toNat + seconds) ↔
    since + nanosPerSec ≤ seconds * nanosPerSec := by
  simp only [nanosPerSec] at le ⊢
  omega

/-- A partition covers the time if its start is not after the time and its end is. The end
fits 64 bits. -/
private theorem exists_covering_iff (small : time < 2 ^ 63)
    (short : settings.timestampPeriodAsSecs < 2 ^ 63) :
    (∃ holder : Holder engine, Group.createPearlByTimestamp settings time config = .ok holder ∧
      holder.getsIntoInterval time = true ∧ holder.endTimestamp < 2 ^ 64) ↔
    ∃ start, getStartTimestampByTimestamp settings.representable settings.timestampPeriod time
      config = .ok start ∧ start ≤ time ∧ time < start + settings.timestampPeriodAsSecs := by
  constructor
  · rintro ⟨holder, created, covers, -⟩
    obtain ⟨start, found, made⟩ := bind_eq_ok_iff.mp created
    cases made
    rw [Holder.getsIntoInterval, Bool.and_eq_true] at covers
    exact ⟨start, found, of_decide_eq_true covers.1, of_decide_eq_true covers.2⟩
  · rintro ⟨start, found, le, lt⟩
    refine ⟨Group.createPearlHolder settings start, bind_eq_ok_iff.mpr ⟨start, found, rfl⟩, ?_, ?_⟩
    · simp [Holder.getsIntoInterval, Group.createPearlHolder, le, lt]
    · simp only [Group.createPearlHolder]
      omega

/-- For every accepted period, a start can be computed for a timestamp, with a partition that
covers it, exactly if the timestamp is coverable. -/
theorem accepted_period_covers_iff {ext : Externals} {backend : BackendSettings}
    (accepted : backend.validate ext = .ok ())
    (parsed : ext.parseHumanDuration backend.timestampPeriod = .ok settings.timestampPeriod)
    (calendar : settings.CalendarEndsAt last) (inside : time ≤ last)
    (config : StartTimestampConfig) :
    (∃ holder : Holder engine, Group.createPearlByTimestamp settings time config = .ok holder ∧
      holder.getsIntoInterval time = true ∧ holder.endTimestamp < 2 ^ 64) ↔
    Coverable config settings.timestampPeriod last time := by
  have year := BackendSettings.period_le_of_validate accepted parsed
  dsimp only [Duration.ofDays] at year
  have fits : settings.timestampPeriod.nanos / 10 ^ 6 < 2 ^ 63 := by omega
  have short : settings.timestampPeriodAsSecs < 2 ^ 63 := by
    unfold Settings.timestampPeriodAsSecs Duration.asSecs
    omega
  have represented : settings.representable time = true := (calendar.covers _).mpr inside
  have small : time < 2 ^ 63 := inside.trans_lt calendar.last_lt
  rw [exists_covering_iff small short, Settings.timestampPeriodAsSecs]
  obtain ⟨round⟩ := config
  cases round with
  | false =>
    simp only [getStartTimestampByTimestamp_plain_eq_ok_iff fits, small, represented, true_and,
      exists_eq_left, le_refl]
    constructor
    · intro lt
      have unrounded {P : Prop} (round : false = true) : P := absurd round Bool.false_ne_true
      refine ⟨?_, unrounded, unrounded, unrounded⟩
      simp only [sinceStart, nanosPerSec, Bool.false_eq_true, if_false]
      omega
    · intro coverable
      have roomy := coverable.roomy
      simp only [sinceStart, nanosPerSec, Bool.false_eq_true, if_false] at roomy
      omega
  | true =>
    constructor
    · rintro ⟨start, found, le, lt⟩
      obtain ⟨-, -, has, early, ends, rfl⟩ := getStartTimestampByTimestamp_rounded_eq_ok fits found
      refine ⟨?_, fun _ => has, fun _ => early, fun _ => ?_⟩
      · exact (covers_iff (sinceSlot_nonneg has) early).mp ⟨le, lt⟩
      · rw [calendar.covers] at ends
        omega
    · intro coverable
      have has := coverable.first rfl
      have early := coverable.notNegative rfl
      have nonneg := sinceSlot_nonneg has
      have roomy : sinceSlot settings.timestampPeriod time + nanosPerSec ≤
        settings.timestampPeriod.asSecs * nanosPerSec := coverable.roomy
      have pos : 0 < settings.timestampPeriod.nanos := by
        by_contra zero
        rw [not_lt, Nat.le_zero] at zero
        simp only [Duration.asSecs, zero, nanosPerSec] at roomy
        omega
      have ends := (calendar.covers _).mpr (Int.toNat_le.mpr (coverable.inCalendar rfl))
      obtain ⟨start, found⟩ :=
        (exists_getStartTimestampByTimestamp_rounded_iff fits pos calendar.closed).mpr
          ⟨small, represented, has, early, ends⟩
      refine ⟨start, found, ?_⟩
      obtain ⟨-, -, -, -, -, rfl⟩ := getStartTimestampByTimestamp_rounded_eq_ok fits found
      exact (covers_iff nonneg early).mpr roomy

/-- The durations of the examples, as `humantime` reads them. -/
def humanDurations : Externals where
  parseUri := fun address => .ok ⟨some 20000, address⟩
  parseHumanDuration := fun text =>
    if text = "0s" then .ok ⟨0⟩
    else if text = "500ms" then .ok ⟨500 * 10 ^ 6⟩
    else if text = "1s 500ms" then .ok ⟨1500 * 10 ^ 6⟩
    else if text = "2d" then .ok (.ofDays 2)
    else if text = "7d" then .ok (.ofDays 7)
    else if text = "8d" then .ok (.ofDays 8)
    else .error "expected number at 0"
  parseSocketAddr := fun _ => .ok ()
  showDuration := fun period => s!"PT{period.asSecs}S"

def backendWith (period : String) : BackendSettings := ⟨"bob", "alien", period, "500ms"⟩

def settingsWith (period : Duration) : Settings :=
  { Group.chronoSettings with timestampPeriod := period }

/-- The first Friday is in a slot of two days that starts on Thursday. -/
theorem friday_covered :
    ∃ holder : Holder (logEngine 8),
      Group.createPearlByTimestamp (settingsWith (.ofDays 2)) 86400 .default = .ok holder ∧
        holder.getsIntoInterval 86400 = true ∧ holder.endTimestamp < 2 ^ 64 := by
  have accepted : (backendWith "2d").validate humanDurations = .ok () := by decide
  have calendar : (settingsWith (.ofDays 2)).CalendarEndsAt 8210266876799 :=
    ⟨fun time => by simp [settingsWith, Group.chronoSettings], by decide⟩
  refine (accepted_period_covers_iff accepted (by decide) calendar (by decide) .default).mpr ?_
  exact ⟨by decide, fun _ => by unfold HasFirstStart; decide, fun _ => by decide,
    fun _ => by decide⟩

/-- Accepted periods with which a partition cannot be made for a timestamp, or does not
cover it. With a period of zero the search for a start never ends. With half a second, or
one and a half, the partition made for second one ends before it. With seven days, a Monday
and the first days of the epoch make the node abort, and with eight days every time does. -/
theorem accepted_periods_fail :
    (∀ period ∈ ["0s", "500ms", "1s 500ms", "7d", "8d"],
      (backendWith period).validate humanDurations = .ok ()) ∧
    (∀ fuel result, coverTime Group.chronoSettings.representable 0 nanosPerSec fuel 0 ≠
      .ok result) ∧
    (Group.createPearlByTimestamp (settingsWith ⟨500 * 10 ^ 6⟩) 1 .default :
      Except Panic (Holder (logEngine 8))) = .ok ⟨1, 1, none⟩ ∧
    (Group.createPearlByTimestamp (settingsWith ⟨1500 * 10 ^ 6⟩) 1 .default :
      Except Panic (Holder (logEngine 8))) = .ok ⟨0, 1, none⟩ ∧
    (Group.createPearlByTimestamp (settingsWith (.ofDays 7)) (4 * 86400) .default :
      Except Panic (Holder (logEngine 8))) = .error ⟨"attempt to subtract with overflow"⟩ ∧
    (Group.createPearlByTimestamp (settingsWith (.ofDays 7)) 0 .default :
      Except Panic (Holder (logEngine 8))) =
      .error ⟨"called `Result::unwrap()` on an `Err` value"⟩ ∧
    (Group.createPearlByTimestamp (settingsWith (.ofDays 8)) 0 .default :
      Except Panic (Holder (logEngine 8))) = .error ⟨"pearid: PT691200S is too large"⟩ :=
  ⟨by decide, fun fuel _ => coverTime_zero_ne_ok fuel, rfl, rfl, rfl, rfl, rfl⟩

end Bob.Backend

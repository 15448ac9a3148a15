/-
# Timestamps that have a partition

The timestamp of a put or of a forced delete is chosen by the client, and the start
of its partition is computed with the calendar of the `chrono` package. That
calendar ends long before the largest timestamp does. A timestamp behind its end
makes the node abort, and so does one in the last slot before it when starts are
rounded, because the search for the start adds a period to it.
-/

import Bob.Backend.Group

namespace Bob.Backend

open Bob.Configs Bob.Math

variable {keySize : ℕ} {engine : StorageEngine keySize} {settings : Settings}
  {config : StartTimestampConfig} {secs last time : ℕ} {holder : Holder engine}

/-! ## Intervals -/

/-- The interval of a partition. -/
def Holder.interval (holder : Holder engine) : ℕ × ℕ := (holder.startTimestamp, holder.endTimestamp)

def Group.intervals (g : Group engine) : List (ℕ × ℕ) := g.holders.map (·.interval)

namespace Holder

variable {written : Holder engine} {key : BobKey keySize} {data : BobData} {bobMeta : BobMeta}
  {force : Bool}

theorem interval_write (done : holder.write key data = .ok written) :
    written.interval = holder.interval := by
  unfold write at done
  split at done
  · cases done
  · split at done
    · cases done
      rfl
    · cases done

theorem interval_delete {count : ℕ}
    (done : holder.delete key bobMeta force = .ok (written, count)) :
    written.interval = holder.interval := by
  unfold delete at done
  split at done
  · cases done
  · split at done
    · cases done
      rfl
    · cases done

/-- Whatever becomes of a write, the partition keeps its interval. -/
theorem interval_putCommon : (Group.putCommon holder key data).2.interval = holder.interval := by
  unfold Group.putCommon
  split
  · rename_i done
    exact interval_write done
  · split_ifs <;> rfl

theorem interval_deleteCommon :
    (Group.deleteCommon holder key bobMeta force).2.interval = holder.interval := by
  unfold Group.deleteCommon
  split
  · rename_i done
    exact interval_delete done
  · split_ifs <;> rfl

end Holder

theorem Group.map_fst_intervals {g : Group engine} :
    g.intervals.map Prod.fst = g.holders.map (·.startTimestamp) := by
  rw [intervals, List.map_map]
  rfl

/-- A partition that keeps its interval is replaced. -/
theorem Group.intervals_setHolder {g : Group engine} {index : ℕ} {old new : Holder engine}
    (here : g.holders[index]? = some old) (same : new.interval = old.interval) :
    (g.setHolder index new).intervals = g.intervals :=
  map_set_of_eq here same

/-! ## Starts that can be computed -/

/-- The calendar covers the seconds up to `last`, which fits a signed number. -/
structure Settings.CalendarEndsAt (settings : Settings) (last : ℕ) : Prop where
  covers : ∀ time, settings.representable time = true ↔ time ≤ last
  last_lt : last < 2 ^ 63

namespace Group

/-- A partition that is made for a timestamp covers its slot, or the period from the
timestamp on. -/
theorem createPearlByTimestamp_eq_ok (daily : DailyPeriod settings.timestampPeriod secs)
    (created : createPearlByTimestamp settings time config = .ok holder) :
    holder.startTimestamp = (if config.round then slotStart secs time else time) ∧
      holder.endTimestamp = holder.startTimestamp + secs ∧ holder.storage = none := by
  obtain ⟨start, hstart, made⟩ := bind_eq_ok_iff.mp created
  cases made
  refine ⟨(daily.getStartTimestampByTimestamp_eq_ok hstart).1, ?_, rfl⟩
  rw [createPearlHolder, Settings.timestampPeriodAsSecs, daily.asSecs_eq]

/-- Such a partition covers the timestamp. -/
theorem getsIntoInterval_of_created (daily : DailyPeriod settings.timestampPeriod secs)
    (created : createPearlByTimestamp settings time config = .ok holder) :
    holder.getsIntoInterval time = true := by
  obtain ⟨start, ends, -⟩ := createPearlByTimestamp_eq_ok daily created
  obtain ⟨le, lt⟩ : slotStart secs time ≤ time ∧ time < slotStart secs time + secs :=
    daily.slotStart_le_lt
  have := daily.pos
  rw [Holder.getsIntoInterval, ends, start]
  simp only [Bool.and_eq_true, decide_eq_true_eq]
  split_ifs <;> omega

/-- Of two partitions of the same length, one covers a time that the other does not, so
they do not start together. -/
theorem startTimestamp_ne_of_covers {other : Holder engine}
    (ends : holder.endTimestamp = holder.startTimestamp + secs)
    (ends' : other.endTimestamp = other.startTimestamp + secs)
    (covers : holder.getsIntoInterval time = true) (misses : other.getsIntoInterval time = false) :
    other.startTimestamp ≠ holder.startTimestamp := by
  intro same
  rw [Holder.getsIntoInterval, ends', same, ← ends] at misses
  rw [Holder.getsIntoInterval, misses] at covers
  cases covers

/-- The start of a partition can be computed exactly when the calendar covers the
timestamp and, where starts are rounded, the end of its slot. -/
theorem exists_createPearlByTimestamp_iff (daily : DailyPeriod settings.timestampPeriod secs)
    (calendar : settings.CalendarEndsAt last) :
    (∃ holder : Holder engine, createPearlByTimestamp settings time config = .ok holder) ↔
    time ≤ last ∧ (config.round = true → slotStart secs time + secs ≤ last) := by
  constructor
  · rintro ⟨holder, created⟩
    obtain ⟨start, hstart, -⟩ := bind_eq_ok_iff.mp created
    obtain ⟨-, -, inside, ends⟩ := daily.getStartTimestampByTimestamp_eq_ok hstart
    exact ⟨(calendar.covers _).mp inside, fun round => (calendar.covers _).mp (ends round)⟩
  · rintro ⟨inside, ends⟩
    have closed : ∀ earlier later, earlier ≤ later → settings.representable later = true →
        settings.representable earlier = true := fun earlier later le covered =>
      (calendar.covers _).mpr (le.trans ((calendar.covers _).mp covered))
    obtain ⟨start, hstart⟩ := daily.exists_getStartTimestampByTimestamp closed
      (inside.trans_lt calendar.last_lt) ((calendar.covers _).mpr inside)
      fun round => (calendar.covers _).mpr (ends round)
    exact ⟨_, bind_eq_ok_iff.mpr ⟨start, hstart, rfl⟩⟩

/-- A partition can be computed for a timestamp, without a panic and without an
overflow, exactly when the calendar covers the timestamp and, where starts are
rounded, the end of its slot. -/
theorem partition_computed_iff (daily : DailyPeriod settings.timestampPeriod secs)
    (calendar : settings.CalendarEndsAt last) (time : UInt64) (config : StartTimestampConfig) :
    (∃ holder : Holder engine, createPearlByTimestamp settings time.toNat config = .ok holder ∧
      holder.endTimestamp < 2 ^ 64) ↔
    time.toNat ≤ last ∧ (config.round = true → slotStart secs time.toNat + secs ≤ last) := by
  rw [← @exists_createPearlByTimestamp_iff _ engine _ _ _ _ _ daily calendar]
  refine exists_congr fun holder => and_iff_left_of_imp fun created => ?_
  obtain ⟨inside, -⟩ := (exists_createPearlByTimestamp_iff daily calendar).mp ⟨holder, created⟩
  obtain ⟨start, ends, -⟩ := createPearlByTimestamp_eq_ok daily created
  obtain ⟨early, -⟩ : slotStart secs time.toNat ≤ time.toNat ∧ _ := daily.slotStart_le_lt
  have short := daily.le_day
  have := calendar.last_lt
  unfold secsPerDay at short
  rw [ends, start]
  split_ifs <;> omega

/-- Settings with a period of a day and the calendar of the `chrono` package, which
ends with the year 262142. -/
def chronoSettings : Settings where
  timestampPeriod := .ofDays 1
  skipHoldersByTimestampStepWhenReading := none
  alienDisk := none
  representable := fun time => time ≤ 8210266876799

theorem epoch_partition_computed :
    ∃ holder : Holder (logEngine 8),
      createPearlByTimestamp chronoSettings (0 : UInt64).toNat .default = .ok holder ∧
      holder.endTimestamp < 2 ^ 64 := by
  have daily : DailyPeriod chronoSettings.timestampPeriod 86400 :=
    ⟨by decide, by decide, by decide⟩
  have calendar : chronoSettings.CalendarEndsAt 8210266876799 :=
    ⟨fun time => by simp [chronoSettings], by decide⟩
  exact (partition_computed_iff daily calendar 0 .default).mpr ⟨by decide, fun _ => by decide⟩

/-- Three timestamps of a put that abort the node: one that is no signed number, the
first second behind the calendar, and its last second if starts are rounded. -/
theorem late_timestamps_panic :
    (createPearlByTimestamp chronoSettings (18446744073709551615 : UInt64).toNat ⟨false⟩ :
      Except Panic (Holder (logEngine 8))) =
      .error ⟨"called `Result::unwrap()` on an `Err` value"⟩ ∧
    (createPearlByTimestamp chronoSettings (8210266876800 : UInt64).toNat ⟨false⟩ :
      Except Panic (Holder (logEngine 8))) = .error ⟨"time out of range"⟩ ∧
    (createPearlByTimestamp chronoSettings (8210266876799 : UInt64).toNat ⟨true⟩ :
      Except Panic (Holder (logEngine 8))) =
      .error ⟨"`NaiveDateTime + TimeDelta` overflowed"⟩ :=
  ⟨rfl, rfl, rfl⟩

end Group

end Bob.Backend

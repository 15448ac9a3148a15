/-
# Metrics

A task receives counters, gauges and times and from time to time takes a snapshot. A
counter is the sum of all its values, and a gauge is its last value. The mean of a time
is that of the values since the snapshot before, whose sum and number are reset each
time.

The entry of a time is made by its first message. It starts with one measurement, and the
message is then counted as well. So in the snapshot after its first message a key has the
mean of one measurement too many, and in all later ones the right one.
-/

import Bob.Common.Checked
import Bob.Math.Sequencing
import Mathlib.Data.List.DropRight
import Mathlib.Algebra.BigOperators.Group.List.Basic

namespace Bob.Metrics

open Bob.Math

/-! ## The source -/

abbrev MetricKey := String

structure MetricInner where
  key : MetricKey
  value : ℕ
  timestamp : ℤ
  deriving DecidableEq, Repr

inductive Metric
  | gauge (metric : MetricInner)
  | counter (metric : MetricInner)
  | time (metric : MetricInner)
  deriving DecidableEq, Repr

def Metric.map (f : MetricInner → MetricInner) : Metric → Metric
  | gauge metric => gauge (f metric)
  | counter metric => counter (f metric)
  | time metric => time (f metric)

def Metric.withTimestamp (metric : Metric) (timestamp : ℤ) : Metric :=
  metric.map fun metric => { metric with timestamp := timestamp }

structure CounterEntry where
  sum : ℕ
  timestamp : ℤ
  deriving DecidableEq, Repr

def CounterEntry.new (timestamp : ℤ) : CounterEntry := ⟨0, timestamp⟩

structure GaugeEntry where
  value : ℕ
  timestamp : ℤ
  deriving DecidableEq, Repr

structure TimeEntry where
  summaryTime : ℕ
  measurementsAmount : ℕ
  timestamp : ℤ
  mean : Option ℕ
  deriving DecidableEq, Repr

def TimeEntry.new (timestamp : ℤ) : TimeEntry := ⟨0, 1, timestamp, none⟩

/-- The mean of the measurements, which are then forgotten. -/
def TimeEntry.close (entry : TimeEntry) : TimeEntry where
  summaryTime := 0
  measurementsAmount := 0
  timestamp := entry.timestamp
  mean := match entry.measurementsAmount with
    | 0 => none
    | val => some (entry.summaryTime / val)

structure MetricsSnapshot where
  countersMap : MetricKey → Option CounterEntry
  gaugesMap : MetricKey → Option GaugeEntry
  timesMap : MetricKey → Option TimeEntry

namespace MetricsSnapshot

def default : MetricsSnapshot := ⟨fun _ => none, fun _ => none, fun _ => none⟩

def processCounter (snapshot : MetricsSnapshot) (counter : MetricInner) :
    Except Panic MetricsSnapshot := do
  let entry := (snapshot.countersMap counter.key).getD (.new counter.timestamp)
  let sum ← fits "add" (entry.sum + counter.value)
  return { snapshot with
    countersMap := Function.update snapshot.countersMap counter.key
      (some ⟨sum, counter.timestamp⟩) }

def processGauge (snapshot : MetricsSnapshot) (gauge : MetricInner) : MetricsSnapshot :=
  { snapshot with
    gaugesMap := Function.update snapshot.gaugesMap gauge.key
      (some ⟨gauge.value, gauge.timestamp⟩) }

def processTime (snapshot : MetricsSnapshot) (time : MetricInner) :
    Except Panic MetricsSnapshot := do
  let entry := (snapshot.timesMap time.key).getD (.new time.timestamp)
  let summaryTime ← fits "add" (entry.summaryTime + time.value)
  return { snapshot with
    timesMap := Function.update snapshot.timesMap time.key
      (some ⟨summaryTime, entry.measurementsAmount + 1, time.timestamp, entry.mean⟩) }

/-- The snapshot that is returned is a copy of what is kept. -/
def updateAndGetMomentSnapshot (snapshot : MetricsSnapshot) : MetricsSnapshot :=
  { snapshot with timesMap := fun key => (snapshot.timesMap key).map TimeEntry.close }

def process (snapshot : MetricsSnapshot) : Metric → Except Panic MetricsSnapshot
  | .counter counter => snapshot.processCounter counter
  | .gauge gauge => .ok (snapshot.processGauge gauge)
  | .time time => snapshot.processTime time

end MetricsSnapshot

/-! ## Messages and snapshots -/

inductive Event
  | message (metric : Metric)
  | snapshot
  deriving DecidableEq, Repr

def step (state : MetricsSnapshot) : Event → Except Panic MetricsSnapshot
  | .message metric => state.process metric
  | .snapshot => .ok state.updateAndGetMomentSnapshot

/-- What is kept after some events. After a snapshot this is what it shows. -/
def run (events : List Event) : Except Panic MetricsSnapshot := events.foldlM step .default

theorem run_append (events : List Event) (event : Event) :
    run (events ++ [event]) = (run events >>= fun state => step state event) := by
  simp [run, List.foldlM_append]

def Metric.asCounter : Metric → Option MetricInner
  | counter metric => some metric
  | _ => none

def Metric.asGauge : Metric → Option MetricInner
  | gauge metric => some metric
  | _ => none

def Metric.asTime : Metric → Option MetricInner
  | time metric => some metric
  | _ => none

/-- The value of a message of one kind for a key. -/
def valueFor (kind : Metric → Option MetricInner) (key : MetricKey) : Event → Option ℕ
  | .message metric => (kind metric).bind fun inner =>
    if inner.key = key then some inner.value else none
  | .snapshot => none

/-- The values that were received for a key. -/
def valuesFor (kind : Metric → Option MetricInner) (key : MetricKey) (events : List Event) :
    List ℕ :=
  events.filterMap (valueFor kind key)

def counterValues : MetricKey → List Event → List ℕ := valuesFor Metric.asCounter

def gaugeValues : MetricKey → List Event → List ℕ := valuesFor Metric.asGauge

def timeValues : MetricKey → List Event → List ℕ := valuesFor Metric.asTime

section Values

variable {kind : Metric → Option MetricInner} {key : MetricKey} {events : List Event}

theorem valuesFor_append (event : Event) :
    valuesFor kind key (events ++ [event]) =
      valuesFor kind key events ++ (valueFor kind key event).toList := by
  cases own : valueFor kind key event <;> simp [valuesFor, own]

theorem valuesFor_append_of_none {event : Event} (other : valueFor kind key event = none) :
    valuesFor kind key (events ++ [event]) = valuesFor kind key events := by
  rw [valuesFor_append, other]
  exact List.append_nil _

theorem valuesFor_append_of_some {event : Event} {value : ℕ}
    (own : valueFor kind key event = some value) :
    valuesFor kind key (events ++ [event]) = valuesFor kind key events ++ [value] := by
  rw [valuesFor_append, own]
  rfl

end Values

/-- The events after the last snapshot. -/
def sinceSnapshot (events : List Event) : List Event := events.rtakeWhile (· ≠ .snapshot)

@[simp] theorem sinceSnapshot_nil : sinceSnapshot [] = [] := rfl

@[simp] theorem sinceSnapshot_snapshot (events : List Event) :
    sinceSnapshot (events ++ [.snapshot]) = [] := by
  simp [sinceSnapshot]

@[simp] theorem sinceSnapshot_message (events : List Event) (metric : Metric) :
    sinceSnapshot (events ++ [.message metric]) = sinceSnapshot events ++ [.message metric] := by
  simp [sinceSnapshot]

/-! ## What is kept -/

/-- The value that is kept for a counter. -/
def total (values : List ℕ) : Option ℕ := if values = [] then none else some values.sum

/-- All messages for the key came after the last snapshot. -/
def FirstWindow (key : MetricKey) (events : List Event) : Prop :=
  timeValues key (sinceSnapshot events) = timeValues key events

instance (key : MetricKey) (events : List Event) : Decidable (FirstWindow key events) :=
  inferInstanceAs (Decidable (_ = _))

/-- The measurements that are counted for a key, one too many in its first window. -/
def amount (key : MetricKey) (events : List Event) : ℕ :=
  (timeValues key (sinceSnapshot events)).length + if FirstWindow key events then 1 else 0

/-- The sum and the number of the measurements that are kept for a key. -/
def window (key : MetricKey) (events : List Event) : Option (ℕ × ℕ) :=
  if timeValues key events = [] then none
  else some ((timeValues key (sinceSnapshot events)).sum, amount key events)

/-- What is kept after some events. -/
structure Keeps (events : List Event) (state : MetricsSnapshot) : Prop where
  counters : ∀ key, (state.countersMap key).map (·.sum) = total (counterValues key events)
  gauges : ∀ key, (state.gaugesMap key).map (·.value) = (gaugeValues key events).getLast?
  times : ∀ key, (state.timesMap key).map (fun entry =>
    (entry.summaryTime, entry.measurementsAmount)) = window key events

/-- The sums fit in 64 bits. -/
structure SumsFit (events : List Event) : Prop where
  counters : ∀ key, (counterValues key events).sum < 2 ^ 64
  times : ∀ key before, before <+: events → (timeValues key (sinceSnapshot before)).sum < 2 ^ 64

theorem SumsFit.of_append {events later : List Event} (small : SumsFit (events ++ later)) :
    SumsFit events := by
  refine ⟨fun key => lt_of_le_of_lt ?_ (small.counters key), fun key before initial => ?_⟩
  · rw [counterValues, valuesFor, valuesFor, List.filterMap_append, List.sum_append]
    exact Nat.le_add_right _ _
  · exact small.times key before (initial.trans (List.prefix_append _ _))

section Window

variable {key : MetricKey} {events : List Event}

theorem total_append (values : List ℕ) (value : ℕ) :
    total (values ++ [value]) = some (((total values).getD 0) + value) := by
  unfold total
  rw [if_neg (by simp), List.sum_append, List.sum_singleton]
  split_ifs with empty
  · simp [empty]
  · rfl

theorem timeValues_sinceSnapshot_eq_nil (empty : timeValues key events = []) :
    timeValues key (sinceSnapshot events) = [] := by
  have suffix : timeValues key (sinceSnapshot events) <:+ timeValues key events :=
    (List.rtakeWhile_suffix _ _).filterMap _
  rw [empty] at suffix
  exact List.suffix_nil.mp suffix

theorem window_message_of_none {metric : Metric}
    (other : valueFor Metric.asTime key (.message metric) = none) :
    window key (events ++ [.message metric]) = window key events := by
  have all : timeValues key (events ++ [.message metric]) = timeValues key events :=
    valuesFor_append_of_none other
  have here : timeValues key (sinceSnapshot (events ++ [.message metric])) =
      timeValues key (sinceSnapshot events) := by
    rw [sinceSnapshot_message]
    exact valuesFor_append_of_none other
  have first : FirstWindow key (events ++ [.message metric]) ↔ FirstWindow key events := by
    rw [FirstWindow, all, here, FirstWindow]
  simp only [window, amount, first, all, here]

/-- A measurement is added to the window, which is a new one if there was none. -/
theorem window_message_of_some {metric : Metric} {value : ℕ}
    (own : valueFor Metric.asTime key (.message metric) = some value) :
    window key (events ++ [.message metric]) =
      some (((window key events).getD (0, 1)).1 + value,
        ((window key events).getD (0, 1)).2 + 1) := by
  have all : timeValues key (events ++ [.message metric]) = timeValues key events ++ [value] :=
    valuesFor_append_of_some own
  have here : timeValues key (sinceSnapshot (events ++ [.message metric])) =
      timeValues key (sinceSnapshot events) ++ [value] := by
    rw [sinceSnapshot_message]
    exact valuesFor_append_of_some own
  have first : FirstWindow key (events ++ [.message metric]) ↔ FirstWindow key events := by
    rw [FirstWindow, all, here, FirstWindow, List.append_left_inj]
  have nonempty : timeValues key events ++ [value] ≠ [] := by simp
  simp only [window, amount, first, all, here, if_neg nonempty, List.sum_append,
    List.sum_singleton, List.length_append, List.length_singleton]
  by_cases empty : timeValues key events = []
  · -- the first message of the key
    have none := timeValues_sinceSnapshot_eq_nil empty
    have isFirst : FirstWindow key events := none.trans empty.symm
    rw [if_pos empty, none, if_pos isFirst]
    simp
  · rw [if_neg empty, Option.getD_some]
    simp only [Option.some.injEq, Prod.mk.injEq, true_and]
    omega

/-- A snapshot begins a new window. -/
theorem window_snapshot :
    window key (events ++ [.snapshot]) = (window key events).map fun _ => (0, 0) := by
  have all : timeValues key (events ++ [.snapshot]) = timeValues key events :=
    valuesFor_append_of_none rfl
  have here : timeValues key (sinceSnapshot (events ++ [.snapshot])) = [] := by
    rw [sinceSnapshot_snapshot]
    rfl
  by_cases empty : timeValues key events = []
  · rw [window, all, if_pos empty, window, if_pos empty]
    rfl
  · have later : ¬ FirstWindow key (events ++ [.snapshot]) := by
      rw [FirstWindow, all, here]
      exact fun none => empty none.symm
    rw [window, all, if_neg empty, amount, here, if_neg later, window, if_neg empty]
    rfl

end Window

namespace Keeps

variable {events : List Event} {state : MetricsSnapshot}

theorem nil : Keeps [] .default := ⟨fun _ => rfl, fun _ => rfl, fun _ => rfl⟩

theorem counter (keeps : Keeps events state) (metric : MetricInner)
    (small : SumsFit (events ++ [.message (.counter metric)])) :
    ∃ next, state.processCounter metric = .ok next ∧
      Keeps (events ++ [.message (.counter metric)]) next := by
  have own : valueFor Metric.asCounter metric.key (.message (.counter metric)) =
      some metric.value := by simp [valueFor, Metric.asCounter]
  have grown : counterValues metric.key (events ++ [.message (.counter metric)]) =
      counterValues metric.key events ++ [metric.value] := valuesFor_append_of_some own
  have sum :
      some (((state.countersMap metric.key).getD (.new metric.timestamp)).sum + metric.value) =
        total (counterValues metric.key (events ++ [.message (.counter metric)])) := by
    rw [grown, total_append, ← keeps.counters]
    cases state.countersMap metric.key <;> rfl
  have bound : ((state.countersMap metric.key).getD (.new metric.timestamp)).sum +
      metric.value < 2 ^ 64 := by
    have := small.counters metric.key
    rw [total, if_neg (by simp [grown])] at sum
    rwa [Option.some.inj sum]
  refine ⟨_, bind_eq_ok_iff.mpr ⟨_, fits_eq_ok bound, rfl⟩, fun key => ?_, fun key => ?_,
    fun key => ?_⟩
  · by_cases here : key = metric.key
    · subst here
      simpa using sum
    · have other : valueFor Metric.asCounter key (.message (.counter metric)) = none := by
        simp [valueFor, Metric.asCounter, Ne.symm here]
      rw [counterValues, valuesFor_append_of_none other]
      dsimp only
      rw [Function.update_of_ne here]
      exact keeps.counters key
  · rw [gaugeValues, valuesFor_append_of_none rfl]
    exact keeps.gauges key
  · rw [window_message_of_none rfl]
    exact keeps.times key

theorem gauge (keeps : Keeps events state) (metric : MetricInner) :
    Keeps (events ++ [.message (.gauge metric)]) (state.processGauge metric) := by
  refine ⟨fun key => ?_, fun key => ?_, fun key => ?_⟩
  · rw [counterValues, valuesFor_append_of_none rfl]
    exact keeps.counters key
  · by_cases here : key = metric.key
    · subst here
      have own : valueFor Metric.asGauge metric.key (.message (.gauge metric)) =
          some metric.value := by simp [valueFor, Metric.asGauge]
      rw [gaugeValues, valuesFor_append_of_some own]
      simp [MetricsSnapshot.processGauge]
    · have other : valueFor Metric.asGauge key (.message (.gauge metric)) = none := by
        simp [valueFor, Metric.asGauge, Ne.symm here]
      rw [gaugeValues, valuesFor_append_of_none other, MetricsSnapshot.processGauge]
      dsimp only
      rw [Function.update_of_ne here]
      exact keeps.gauges key
  · rw [window_message_of_none rfl]
    exact keeps.times key

theorem time (keeps : Keeps events state) (metric : MetricInner)
    (small : SumsFit (events ++ [.message (.time metric)])) :
    ∃ next, state.processTime metric = .ok next ∧
      Keeps (events ++ [.message (.time metric)]) next := by
  have own : valueFor Metric.asTime metric.key (.message (.time metric)) =
      some metric.value := by simp [valueFor, Metric.asTime]
  have grown : some (((state.timesMap metric.key).getD (.new metric.timestamp)).summaryTime +
      metric.value, ((state.timesMap metric.key).getD (.new metric.timestamp)).measurementsAmount +
        1) = window metric.key (events ++ [.message (.time metric)]) := by
    rw [window_message_of_some own, ← keeps.times]
    cases state.timesMap metric.key <;> rfl
  have bound : ((state.timesMap metric.key).getD (.new metric.timestamp)).summaryTime +
      metric.value < 2 ^ 64 := by
    have fit := small.times metric.key _ List.prefix_rfl
    have seen : timeValues metric.key (events ++ [.message (.time metric)]) ≠ [] := by
      rw [timeValues, valuesFor_append_of_some own]
      simp
    rw [window, if_neg seen] at grown
    obtain ⟨sum, -⟩ := Prod.mk.inj (Option.some.inj grown)
    rwa [sum]
  refine ⟨_, bind_eq_ok_iff.mpr ⟨_, fits_eq_ok bound, rfl⟩, fun key => ?_, fun key => ?_,
    fun key => ?_⟩
  · rw [counterValues, valuesFor_append_of_none rfl]
    exact keeps.counters key
  · rw [gaugeValues, valuesFor_append_of_none rfl]
    exact keeps.gauges key
  · by_cases here : key = metric.key
    · subst here
      simpa using grown
    · have other : valueFor Metric.asTime key (.message (.time metric)) = none := by
        simp [valueFor, Metric.asTime, Ne.symm here]
      rw [window_message_of_none other]
      simpa [here] using keeps.times key

theorem snapshot (keeps : Keeps events state) :
    Keeps (events ++ [.snapshot]) state.updateAndGetMomentSnapshot := by
  refine ⟨fun key => ?_, fun key => ?_, fun key => ?_⟩
  · rw [counterValues, valuesFor_append_of_none rfl]
    exact keeps.counters key
  · rw [gaugeValues, valuesFor_append_of_none rfl]
    exact keeps.gauges key
  · rw [window_snapshot, ← keeps.times, MetricsSnapshot.updateAndGetMomentSnapshot, Option.map_map,
      Option.map_map]
    rfl

/-- One event. -/
theorem step (keeps : Keeps events state) (event : Event) (small : SumsFit (events ++ [event])) :
    ∃ next, Metrics.step state event = .ok next ∧ Keeps (events ++ [event]) next := by
  match event with
  | .message (.counter metric) => exact keeps.counter metric small
  | .message (.gauge metric) => exact ⟨_, rfl, keeps.gauge metric⟩
  | .message (.time metric) => exact keeps.time metric small
  | .snapshot => exact ⟨_, rfl, keeps.snapshot⟩

end Keeps

/-- As long as the sums fit, what is kept follows the events. -/
theorem exists_run_keeps {events : List Event} (small : SumsFit events) :
    ∃ state, run events = .ok state ∧ Keeps events state := by
  induction events using List.reverseRecOn with
  | nil => exact ⟨_, rfl, .nil⟩
  | append_singleton events event ih =>
    obtain ⟨state, ran, keeps⟩ := ih small.of_append
    obtain ⟨next, stepped, keepsNext⟩ := keeps.step event small
    exact ⟨next, by rw [run_append, ran]; exact stepped, keepsNext⟩

/-! ## Snapshots -/

/-- The mean of some measurements, rounded down. -/
def mean (values : List ℕ) : Option ℕ :=
  if values = [] then none else some (values.sum / values.length)

/-- The snapshot after some events shows the mean of the measurements since the one before,
the sums of all counters, and the last values of gauges. -/
structure Shows (events : List Event) (shot : MetricsSnapshot) : Prop where
  times : ∀ key, (shot.timesMap key).bind (·.mean) = mean (timeValues key (sinceSnapshot events))
  counters : ∀ key, (shot.countersMap key).map (·.sum) = total (counterValues key events)
  gauges : ∀ key, (shot.gaugesMap key).map (·.value) = (gaugeValues key events).getLast?

/-- The mean that a snapshot shows. -/
theorem Keeps.mean_eq {events : List Event} {state : MetricsSnapshot} (keeps : Keeps events state)
    (key : MetricKey) :
    (state.updateAndGetMomentSnapshot.timesMap key).bind (·.mean) =
      (window key events).bind fun kept => if kept.2 = 0 then none else some (kept.1 / kept.2) := by
  rw [← keeps.times, MetricsSnapshot.updateAndGetMomentSnapshot]
  dsimp only
  cases state.timesMap key with
  | none => rfl
  | some entry =>
    simp only [Option.map_some, Option.bind_some, TimeEntry.close]
    cases entry.measurementsAmount <;> rfl

theorem mean_window_eq_iff (key : MetricKey) (events : List Event) :
    (window key events).bind (fun kept => if kept.2 = 0 then none else some (kept.1 / kept.2)) =
        mean (timeValues key (sinceSnapshot events)) ↔
      (FirstWindow key events → timeValues key events ≠ [] →
        (timeValues key events).sum / ((timeValues key events).length + 1) =
          (timeValues key events).sum / (timeValues key events).length) := by
  by_cases empty : timeValues key events = []
  · rw [window, if_pos empty, mean, if_pos (timeValues_sinceSnapshot_eq_nil empty)]
    exact iff_of_true rfl fun _ seen => absurd empty seen
  rw [window, if_neg empty, Option.bind_some, amount]
  by_cases first : FirstWindow key events
  · have all : timeValues key (sinceSnapshot events) = timeValues key events := first
    rw [if_pos first, all, mean, if_neg empty]
    simp [first, empty]
  · rw [if_neg first, mean]
    simp [first, List.length_eq_zero_iff]

/-- A snapshot is right just when the measurement too many makes no difference for the keys
that are in it for the first time. -/
theorem snapshot_shows_iff {events : List Event} (small : SumsFit events) :
    ∃ shot, run (events ++ [.snapshot]) = .ok shot ∧
      (Shows events shot ↔ ∀ key, FirstWindow key events → timeValues key events ≠ [] →
        (timeValues key events).sum / ((timeValues key events).length + 1) =
          (timeValues key events).sum / (timeValues key events).length) := by
  obtain ⟨state, ran, keeps⟩ := exists_run_keeps small
  refine ⟨state.updateAndGetMomentSnapshot, by rw [run_append, ran]; rfl, ?_⟩
  simp only [← mean_window_eq_iff, ← keeps.mean_eq]
  constructor
  · exact fun shows key => shows.times key
  · exact fun times => ⟨times, keeps.counters, keeps.gauges⟩

/-- One measurement. -/
def oneTime (value : ℕ) : List Event := [.message (.time ⟨"k", value, 1⟩)]

theorem sumsFit_oneTime {value : ℕ} (small : value < 2 ^ 64) : SumsFit (oneTime value) := by
  refine ⟨fun key => Nat.two_pow_pos 64, fun key before initial => ?_⟩
  have single : before <+: [] ++ [.message (.time ⟨"k", value, 1⟩)] := initial
  rcases List.prefix_concat_iff.mp single with rfl | empty
  · rw [sinceSnapshot_message, sinceSnapshot_nil]
    by_cases own : "k" = key
    · simpa [timeValues, valuesFor, valueFor, Metric.asTime, own] using small
    · simp [timeValues, valuesFor, valueFor, Metric.asTime, own]
  · rw [List.prefix_nil.mp empty]
    exact Nat.two_pow_pos 64

/-- A first measurement of zero has the right mean. -/
theorem snapshot_of_zero_shows :
    SumsFit (oneTime 0) ∧
      ∃ shot, run (oneTime 0 ++ [.snapshot]) = .ok shot ∧ Shows (oneTime 0) shot := by
  have small : SumsFit (oneTime 0) := sumsFit_oneTime (by decide)
  obtain ⟨shot, ran, right⟩ := snapshot_shows_iff small
  refine ⟨small, shot, ran, right.mpr fun key _ _ => ?_⟩
  by_cases own : "k" = key
  · simp [oneTime, timeValues, valuesFor, valueFor, Metric.asTime, own]
  · simp [oneTime, timeValues, valuesFor, valueFor, Metric.asTime, own]

/-- A first measurement of ten is shown as a mean of five. -/
theorem snapshot_of_ten_shows_five :
    SumsFit (oneTime 10) ∧
      ∃ shot, run (oneTime 10 ++ [.snapshot]) = .ok shot ∧
        (shot.timesMap "k").bind (·.mean) = some 5 ∧
        mean (timeValues "k" (sinceSnapshot (oneTime 10))) = some 10 ∧
        ¬ Shows (oneTime 10) shot := by
  refine ⟨sumsFit_oneTime (by decide), _, rfl, rfl, by decide, fun shows => ?_⟩
  exact absurd (shows.times "k") (by decide)

/-! ## The accumulator -/

/-- What the task gets from its channel. -/
inductive Received
  | metric (metric : Metric)
  | closed
  | timeout
  deriving DecidableEq, Repr

def maxMetricsPerPeriod : ℕ := 100000

/-- The loop that receives metrics, as far as they may still be received in this period.
Returns what is kept, what is left in the channel, and whether that is closed. -/
def receive (timestamp : ℤ) : ℕ → List Received → MetricsSnapshot →
    Except Panic (MetricsSnapshot × List Received × Bool)
  | 0, channel, snapshot => .ok (snapshot, channel, false)
  | _, [], snapshot => .ok (snapshot, [], false)
  | _, .timeout :: channel, snapshot => .ok (snapshot, channel, false)
  | _, .closed :: channel, snapshot => .ok (snapshot, channel, true)
  | left + 1, .metric metric :: channel, snapshot => do
    let snapshot ← snapshot.process (metric.withTimestamp timestamp)
    receive timestamp left channel snapshot

/-- The periods of the task, each with the time at which it begins. Returns the snapshots that
were made readable. -/
def accumulate : List ℤ → List Received → MetricsSnapshot → Except Panic (List MetricsSnapshot)
  | [], _, _ => .ok []
  | timestamp :: periods, channel, snapshot => do
    let (snapshot, channel, closed) ← receive timestamp maxMetricsPerPeriod channel snapshot
    if closed then return []
    else
      let readable := snapshot.updateAndGetMomentSnapshot
      let later ← accumulate periods channel readable
      return readable :: later

/-! ### Its events -/

def receiveEvents (timestamp : ℤ) : ℕ → List Received → List Event × List Received × Bool
  | 0, channel => ([], channel, false)
  | _, [] => ([], [], false)
  | _, .timeout :: channel => ([], channel, false)
  | _, .closed :: channel => ([], channel, true)
  | left + 1, .metric metric :: channel =>
    let later := receiveEvents timestamp left channel
    (.message (metric.withTimestamp timestamp) :: later.1, later.2)

def accumulateEvents : List ℤ → List Received → List Event
  | [], _ => []
  | timestamp :: periods, channel =>
    let received := receiveEvents timestamp maxMetricsPerPeriod channel
    if received.2.2 then received.1
    else received.1 ++ .snapshot :: accumulateEvents periods received.2.1

theorem receive_eq (timestamp : ℤ) (left : ℕ) (channel : List Received)
    (snapshot : MetricsSnapshot) :
    receive timestamp left channel snapshot = (do
      let snapshot ← (receiveEvents timestamp left channel).1.foldlM step snapshot
      return (snapshot, (receiveEvents timestamp left channel).2)) := by
  induction left generalizing channel snapshot with
  | zero => cases channel <;> rfl
  | succ left ih =>
    match channel with
    | [] | .timeout :: _ | .closed :: _ => rfl
    | .metric metric :: channel =>
      simp only [receive, receiveEvents, List.foldlM_cons, step, bind_assoc, ih]

/-- A readable snapshot is what is kept after the events before it. -/
theorem exists_before_of_mem_accumulate {periods : List ℤ} {channel : List Received}
    {snapshot : MetricsSnapshot} {readable : List MetricsSnapshot}
    (accumulated : accumulate periods channel snapshot = .ok readable) {shot : MetricsSnapshot}
    (member : shot ∈ readable) :
    ∃ before after, accumulateEvents periods channel = before ++ .snapshot :: after ∧
      (before ++ [.snapshot]).foldlM step snapshot = .ok shot := by
  induction periods generalizing channel snapshot readable with
  | nil =>
    cases accumulated
    cases member
  | cons timestamp periods ih =>
    rw [accumulate, receive_eq, bind_assoc] at accumulated
    obtain ⟨kept, received, accumulated⟩ := bind_eq_ok_iff.mp accumulated
    rw [pure_bind] at accumulated
    rw [accumulateEvents]
    dsimp only at accumulated ⊢
    split_ifs at accumulated ⊢
    · cases accumulated
      cases member
    · obtain ⟨later, rest, done⟩ := bind_eq_ok_iff.mp accumulated
      cases done
      rcases List.mem_cons.mp member with rfl | inLater
      · exact ⟨_, _, rfl, by rw [List.foldlM_append, received]; rfl⟩
      · obtain ⟨before, after, split, ran⟩ := ih rest inLater
        refine ⟨_ ++ .snapshot :: before, after, by rw [split, List.append_assoc]; rfl, ?_⟩
        rw [List.append_assoc, List.foldlM_append, received]
        exact ran

/-- Each readable snapshot shows the counters and gauges of the messages before it, and the
means apart from those of keys that are new in it. -/
theorem accumulate_shows {periods : List ℤ} {channel : List Received}
    {readable : List MetricsSnapshot} (small : SumsFit (accumulateEvents periods channel))
    (accumulated : accumulate periods channel .default = .ok readable) {shot : MetricsSnapshot}
    (member : shot ∈ readable) :
    ∃ before after, accumulateEvents periods channel = before ++ .snapshot :: after ∧
      (∀ key, ¬ FirstWindow key before →
        (shot.timesMap key).bind (·.mean) = mean (timeValues key (sinceSnapshot before))) ∧
      (∀ key, (shot.countersMap key).map (·.sum) = total (counterValues key before)) ∧
      ∀ key, (shot.gaugesMap key).map (·.value) = (gaugeValues key before).getLast? := by
  obtain ⟨before, after, split, ran⟩ := exists_before_of_mem_accumulate accumulated member
  rw [split] at small
  obtain ⟨state, kept, keeps⟩ := exists_run_keeps small.of_append
  have again : run (before ++ [.snapshot]) = .ok shot := ran
  rw [run_append, kept] at again
  cases again
  refine ⟨before, after, split, fun key later => ?_, keeps.counters, keeps.gauges⟩
  rw [keeps.mean_eq, mean_window_eq_iff]
  exact fun first => absurd first later

end Bob.Metrics

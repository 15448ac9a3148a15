/-
# Statistics of disks

A task reads the statistics of the kernel again and again. A line has the name of a device and
its counters in columns, and for the devices of the node the task sends the difference to the
line before.

The guard for the column of the I/O time is off by one: a line of exactly twelve columns passes
it, and its column twelve does not exist. The differences are taken with wrapping, but they are
added without: after counters have gone backwards, a build with overflow checks aborts. Every
other content of the file is answered, and the I/O time is taken from its column just when there
is one.
-/

import Bob.Common.Checked
import Bob.Common.NodeConfig
import Bob.Common.Status

namespace Bob.Server

open Bob.Math Bob.Configs

/-! ## Differences of readings -/

structure DiffContainer (T : Type) where
  last : Option T
  deriving DecidableEq, Repr

/-- The difference to the last value, if there is one. The value is the last one from now on. -/
def DiffContainer.diff {T : Type} [Sub T] (container : DiffContainer T) (new : T) :
    Option T × DiffContainer T :=
  match container.last with
  | some last => (some (new - last), ⟨some new⟩)
  | none => (none, ⟨some new⟩)

structure DiskStats where
  reads : UInt64
  writes : UInt64
  ioTime : UInt64
  extended : Bool
  deriving DecidableEq, Repr

/-- Differences of counters wrap around. -/
instance : Sub DiskStats where
  sub self rhs :=
    { reads := self.reads - rhs.reads
      writes := self.writes - rhs.writes
      ioTime := self.ioTime - rhs.ioTime
      extended := self.extended && rhs.extended }

/-! ## The collector -/

inductive CommandError
  | unavailable
  | primary (message : String)
  deriving DecidableEq, Repr

structure DiskStatsContainer where
  metricPrefix : String
  stats : DiffContainer DiskStats
  deriving DecidableEq, Repr

/-- A value for the recorder. It is divided by the elapsed time. -/
structure Gauge where
  name : String
  amount : UInt64
  elapsed : Duration
  deriving DecidableEq, Repr

structure DiskStatCollector where
  procfsAvl : Bool
  diskMetricData : Dict String DiskStatsContainer
  /-- In nanoseconds. -/
  updTimestamp : ℕ
  /-- What the recorder was given. -/
  sent : List Gauge

namespace DiskStatCollector

def diskStatFile : String := "/proc/diskstats"

def hwDisksFolder : String := "hardware.disks"

/-- Each disk has a name, and a device if that could be found out. -/
def new (disks : List (Option String × String)) (now : ℕ) : DiskStatCollector where
  procfsAvl := true
  diskMetricData := disks.foldl (fun data disk => disk.1.elim data fun devName =>
    data.insert devName ⟨s!"{hwDisksFolder}.{disk.2}", ⟨none⟩⟩) ∅
  updTimestamp := now
  sent := []

/-- The column at an index that must exist. -/
def column (parts : List (List Char)) (i : ℕ) : Except Panic (List Char) :=
  match parts[i]? with
  | some part => .ok part
  | none =>
    .error ⟨s!"index out of bounds: the len is {parts.length} but the index is {i}"⟩

def cannotParse : CommandError :=
  .primary s!"Can't parse {diskStatFile} values to unsigned int"

def parseStatLine (parts : List (List Char)) : Except Panic (Except CommandError DiskStats) := do
  let rIos ← column parts 3
  let wIos ← column parts 7
  match parseU64 rIos, parseU64 wIos with
  | .ok reads, .ok writes =>
    if parts.length ≥ 12 then do
      let ioTime ← column parts 12
      match parseU64 ioTime with
      | .ok ioTime => return .ok ⟨reads, writes, ioTime, true⟩
      | .error _ => return .error cannotParse
    else return .ok ⟨reads, writes, 0, false⟩
  | _, _ => return .error cannotParse

/-- The gauges of a difference. The sum may overflow. -/
def gauges (build : Build) (elapsed : Duration) (metricPrefix : String) (diff : DiskStats) :
    Except Panic (List Gauge) := do
  let operations ← build.add diff.reads diff.writes
  return ⟨s!"{metricPrefix}_iops", operations, elapsed⟩ ::
    if diff.extended then [⟨s!"{metricPrefix}_util", diff.ioTime, elapsed⟩] else []

/-- What is answered, and the collector after that. -/
abbrev Outcome := Except Panic (Except CommandError Unit × DiskStatCollector)

variable (build : Build)

/-- Use the line of a monitored device. -/
def useLine (elapsed : Duration) (device : String) (ds : DiskStatsContainer)
    (lsp : List (List Char)) (collector : DiskStatCollector) : Outcome := do
  match ← parseStatLine lsp with
  | .error e => return (.error e, collector)
  | .ok newDs =>
    -- the new counters are stored also when there is nothing to compare them with
    let (diff?, stats) := ds.stats.diff newDs
    let updated := { collector with
      diskMetricData := collector.diskMetricData.insert device ⟨ds.metricPrefix, stats⟩ }
    match diff? with
    | none => return (.ok (), updated)
    | some diff =>
      let sent ← gauges build elapsed ds.metricPrefix diff
      return (.ok (), { updated with sent := collector.sent ++ sent })

def columns (line : List Char) : List (List Char) := words isWhitespace line

def notEnough : CommandError :=
  .primary s!"Not enough diskstat info in {diskStatFile} for metrics calculation"

def processLine (elapsed : Duration) (line : List Char) (collector : DiskStatCollector) :
    Outcome := do
  let lsp := columns line
  if lsp.length ≥ 8 then do
    let device ← column lsp 2
    match collector.diskMetricData.lookup (String.ofList device) with
    | some ds => useLine build elapsed (String.ofList device) ds lsp collector
    | none => return (.ok (), collector)
  else return (.error notEnough, { collector with procfsAvl := false })

/-- The loop over the lines is left at the first error. -/
def processLines (elapsed : Duration) : List (List Char) → DiskStatCollector → Outcome
  | [], collector => .ok (.ok (), collector)
  | line :: rest, collector => do
    match ← processLine build elapsed line collector with
    | (.ok (), collector) => processLines elapsed rest collector
    | (.error e, collector) => return (.error e, collector)

/-- `str::lines`. -/
def linesOf (contents : List Char) : List (List Char) :=
  let pieces := contents.splitOn '\n'
  pieces.dropLast.map (fun line => if line.getLast? = some '\r' then line.dropLast else line) ++
    pieces.getLast?.toList.filter (!·.isEmpty)

/-- A file that cannot be read has no contents. -/
def fileContents (path : String) (contents : Option (List Char)) :
    Except String (List (List Char)) :=
  match contents with
  | some contents => .ok (linesOf contents)
  | none => .error s!"Can't read file {path}"

def diskstats (contents : Option (List Char)) (collector : DiskStatCollector) :
    Except CommandError (List (List Char)) × DiskStatCollector :=
  if !collector.procfsAvl then (.error .unavailable, collector)
  else
    match fileContents diskStatFile contents with
    | .ok lines => (.ok lines, collector)
    | .error e => (.error (.primary e), { collector with procfsAvl := false })

def diffcontainerThreshold : Duration := ⟨500 * 10 ^ 6⟩

/-- The file and the clock when a call looks at them. -/
structure Reading where
  contents : Option (List Char)
  now : ℕ

def collectAndSendMetrics (reading : Reading) (collector : DiskStatCollector) : Outcome :=
  match collector.diskstats reading.contents with
  | (.error e, collector) => .ok (.error e, collector)
  | (.ok lines, collector) =>
    let elapsed : Duration := ⟨reading.now - collector.updTimestamp⟩
    if elapsed.nanos > diffcontainerThreshold.nanos then
      processLines build elapsed lines { collector with updTimestamp := reading.now }
    else .ok (.ok (), collector)

/-- The calls of the task. An error is logged, a panic ends the task. -/
def collectAll : List Reading → DiskStatCollector →
    Except Panic (List (Except CommandError Unit) × DiskStatCollector)
  | [], collector => .ok ([], collector)
  | reading :: rest, collector => do
    let (answer, collector) ← collectAndSendMetrics build reading collector
    let (answers, collector) ← collectAll rest collector
    return (answer :: answers, collector)

/-! ## The lines that are looked at -/

/-- A line, and what the collector is when it looks at it. -/
structure Visit where
  collector : DiskStatCollector
  elapsed : Duration
  line : List Char

def visitsOfLines (elapsed : Duration) : List (List Char) → DiskStatCollector → List Visit
  | [], _ => []
  | line :: rest, collector =>
    ⟨collector, elapsed, line⟩ ::
      match processLine build elapsed line collector with
      | .ok (.ok (), collector) => visitsOfLines elapsed rest collector
      | _ => []

def visitsOfReading (reading : Reading) (collector : DiskStatCollector) : List Visit :=
  match collector.diskstats reading.contents with
  | (.error _, _) => []
  | (.ok lines, collector) =>
    let elapsed : Duration := ⟨reading.now - collector.updTimestamp⟩
    if elapsed.nanos > diffcontainerThreshold.nanos then
      visitsOfLines build elapsed lines { collector with updTimestamp := reading.now }
    else []

def visits : List Reading → DiskStatCollector → List Visit
  | [], _ => []
  | reading :: rest, collector =>
    visitsOfReading build reading collector ++
      match collectAndSendMetrics build reading collector with
      | .ok (_, collector) => visits rest collector
      | .error _ => []

/-! ## What is promised, and what breaks it -/

/-- The counters of a line: the I/O time is in column twelve, if there is one. -/
structure ReadFrom (parts : List (List Char)) (stats : DiskStats) : Prop where
  reads : ∃ part, parts[3]? = some part ∧ parseU64 part = .ok stats.reads
  writes : ∃ part, parts[7]? = some part ∧ parseU64 part = .ok stats.writes
  extended : stats.extended = true ↔ 12 < parts.length
  ioTime : ∀ part, parts[12]? = some part → parseU64 part = .ok stats.ioTime

/-- The line of a monitored device is used: its counters are stored, and the utilization is sent
just when this line and the one before have the I/O time. -/
structure Used (visit : Visit) (device : String) (ds : DiskStatsContainer)
    (after : DiskStatCollector) (stats : DiskStats) (made : List Gauge) : Prop where
  readFrom : ReadFrom (columns visit.line) stats
  stored : after.diskMetricData.lookup device = some ⟨ds.metricPrefix, ⟨some stats⟩⟩
  sent : after.sent = visit.collector.sent ++ made
  utilization : ∀ amount, ⟨s!"{ds.metricPrefix}_util", amount, visit.elapsed⟩ ∈ made ↔
    ∃ last, ds.stats.last = some last ∧ last.extended = true ∧ 12 < (columns visit.line).length ∧
      amount = stats.ioTime - last.ioTime

/-- The line is about this device of the node. -/
def Visit.Monitors (visit : Visit) (device : String) (ds : DiskStatsContainer) : Prop :=
  8 ≤ (columns visit.line).length ∧
    (∃ part, (columns visit.line)[2]? = some part ∧ String.ofList part = device) ∧
    visit.collector.diskMetricData.lookup device = some ds

/-- No call panics, and the I/O time is the one in column twelve. -/
structure CollectsRight (collector : DiskStatCollector) (readings : List Reading) : Prop where
  returns : ∃ answers after, collectAll build readings collector = .ok (answers, after)
  used : ∀ visit ∈ visits build readings collector, ∀ device ds, visit.Monitors device ds →
    ∀ after, processLine build visit.elapsed visit.line visit.collector = .ok (.ok (), after) →
      ∃ stats made, Used visit device ds after stats made

/-- Twelve columns, with counters of reads and writes. -/
def CutShort (parts : List (List Char)) : Prop :=
  parts.length = 12 ∧ (∃ part, parts[3]? = some part ∧ (parseU64 part).isOk) ∧
    ∃ part, parts[7]? = some part ∧ (parseU64 part).isOk

/-- The wrapped differences do not fit when they are added. -/
def Overflows (ds : DiskStatsContainer) (stats : DiskStats) : Prop :=
  ∃ last, ds.stats.last = some last ∧
    2 ^ 64 ≤ (stats.reads - last.reads).toNat + (stats.writes - last.writes).toNat

def Visit.Breaks (visit : Visit) : Prop :=
  ∃ device ds, visit.Monitors device ds ∧
    (CutShort (columns visit.line) ∨ build = .overflowChecks ∧
      ∃ stats, parseStatLine (columns visit.line) = .ok (.ok stats) ∧ Overflows ds stats)

/-! ## One line -/

section Line

variable {build} {parts : List (List Char)} {stats : DiskStats} {elapsed : Duration}
  {metricPrefix device : String} {ds : DiskStatsContainer} {collector after : DiskStatCollector}

theorem column_eq_ok_iff {i : ℕ} {part : List Char} :
    column parts i = .ok part ↔ parts[i]? = some part := by
  unfold column
  split
  · rename_i found
    rw [found, Except.ok.injEq, Option.some.injEq]
  · rename_i missing
    rw [missing]
    constructor <;> intro wrong <;> cases wrong

theorem exists_column {i : ℕ} (lt : i < parts.length) :
    ∃ part, parts[i]? = some part ∧ column parts i = .ok part :=
  ⟨parts[i], List.getElem?_eq_getElem lt, column_eq_ok_iff.mpr (List.getElem?_eq_getElem lt)⟩

theorem readFrom_of_parseStatLine (parsed : parseStatLine parts = .ok (.ok stats)) :
    ReadFrom parts stats := by
  obtain ⟨rIos, at3, parsed⟩ := bind_eq_ok_iff.mp parsed
  obtain ⟨wIos, at7, parsed⟩ := bind_eq_ok_iff.mp parsed
  rw [column_eq_ok_iff] at at3 at7
  split at parsed
  · rename_i reads writes readsEq writesEq
    split_ifs at parsed with long
    · obtain ⟨ioTime, at12, parsed⟩ := bind_eq_ok_iff.mp parsed
      rw [column_eq_ok_iff] at at12
      split at parsed
      · rename_i value valueEq
        cases parsed
        refine ⟨⟨rIos, at3, readsEq⟩, ⟨wIos, at7, writesEq⟩, ?_, fun part there => ?_⟩
        · exact iff_of_true rfl (List.getElem?_eq_some_iff.mp at12).1
        · rwa [← Option.some.inj (at12.symm.trans there)]
      · cases parsed
    · cases parsed
      refine ⟨⟨rIos, at3, readsEq⟩, ⟨wIos, at7, writesEq⟩, ?_, fun part there => ?_⟩
      · exact iff_of_false Bool.false_ne_true (by omega)
      · exact absurd (List.getElem?_eq_some_iff.mp there).1 (by omega)
  · cases parsed

/-- A line with enough columns is answered unless it is cut short. -/
theorem exists_parseStatLine_iff (long : 8 ≤ parts.length) :
    (∃ answer, parseStatLine parts = .ok answer) ↔ ¬ CutShort parts := by
  obtain ⟨rIos, at3, column3⟩ := exists_column (show 3 < parts.length by omega)
  obtain ⟨wIos, at7, column7⟩ := exists_column (show 7 < parts.length by omega)
  rw [parseStatLine, column3, column7]
  simp only [bind, Except.bind]
  cases readsEq : parseU64 rIos with
  | error e =>
    refine iff_of_true ⟨_, rfl⟩ ?_
    rintro ⟨-, ⟨part, there, counts⟩, -⟩
    cases at3.symm.trans there
    rw [readsEq] at counts
    cases counts
  | ok reads =>
  cases writesEq : parseU64 wIos with
  | error e =>
    refine iff_of_true ⟨_, rfl⟩ ?_
    rintro ⟨-, -, part, there, counts⟩
    cases at7.symm.trans there
    rw [writesEq] at counts
    cases counts
  | ok writes =>
  -- twelve columns pass the guard, and the last of them has index eleven
  by_cases twelve : parts.length = 12
  · refine iff_of_false ?_ (not_not_intro
      ⟨twelve, ⟨rIos, at3, by rw [readsEq]; rfl⟩, wIos, at7, by rw [writesEq]; rfl⟩)
    rintro ⟨answer, parsed⟩
    dsimp only at parsed
    rw [if_pos twelve.ge] at parsed
    obtain ⟨ioTime, at12, -⟩ := bind_eq_ok_iff.mp parsed
    rw [column_eq_ok_iff] at at12
    exact absurd (List.getElem?_eq_some_iff.mp at12).1 (by omega)
  · refine iff_of_true ?_ (fun cut => twelve cut.1)
    by_cases extended : parts.length ≥ 12
    · obtain ⟨ioTime, -, column12⟩ := exists_column (show 12 < parts.length by omega)
      dsimp only
      rw [if_pos extended, column12]
      dsimp only
      cases parseU64 ioTime with
      | ok value => exact ⟨_, rfl⟩
      | error e => exact ⟨_, rfl⟩
    · exact ⟨_, if_neg extended⟩

/-- The sum of a difference is checked only in a build with overflow checks. -/
theorem exists_gauges_iff {diff : DiskStats} :
    (∃ made, gauges build elapsed metricPrefix diff = .ok made) ↔
      ¬ (build = .overflowChecks ∧ 2 ^ 64 ≤ diff.reads.toNat + diff.writes.toNat) := by
  constructor
  · rintro ⟨made, computed⟩ ⟨checked, overflow⟩
    obtain ⟨operations, added, -⟩ := bind_eq_ok_iff.mp computed
    exact absurd ((Build.eq_add_of_add_eq_ok added).2 checked) (by omega)
  · intro fine
    have added : build.add diff.reads diff.writes = .ok (diff.reads + diff.writes) := by
      cases build with
      | overflowChecks => exact if_pos (by by_contra beyond; exact fine ⟨rfl, by omega⟩)
      | release => rfl
    rw [gauges, added]
    exact ⟨_, rfl⟩

theorem iops_ne_util (metricPrefix : String) :
    s!"{metricPrefix}_iops" ≠ s!"{metricPrefix}_util" := by
  intro same
  have chars := congrArg String.toList same
  rw [String.toList_append, String.toList_append, List.append_cancel_left_eq] at chars
  exact absurd chars (by decide)

/-- The utilization is among the gauges of a difference just when both lines have it. -/
theorem util_mem_gauges_iff {diff : DiskStats} {made : List Gauge}
    (computed : gauges build elapsed metricPrefix diff = .ok made) (amount : UInt64) :
    ⟨s!"{metricPrefix}_util", amount, elapsed⟩ ∈ made ↔
      diff.extended = true ∧ amount = diff.ioTime := by
  obtain ⟨operations, -, computed⟩ := bind_eq_ok_iff.mp computed
  cases computed
  cases diff.extended <;> simp [(iops_ne_util metricPrefix).symm]

/-- The collector with the counters of a device. -/
def storing (collector : DiskStatCollector) (device : String) (ds : DiskStatsContainer)
    (stats : DiskStats) : DiskStatCollector :=
  { collector with diskMetricData :=
      collector.diskMetricData.insert device ⟨ds.metricPrefix, ⟨some stats⟩⟩ }

theorem useLine_of_first (parsed : parseStatLine parts = .ok (.ok stats))
    (first : ds.stats.last = none) :
    useLine build elapsed device ds parts collector =
      .ok (.ok (), collector.storing device ds stats) := by
  rw [useLine, parsed]
  simp only [bind, Except.bind, DiffContainer.diff, first]
  rfl

theorem useLine_of_next {last : DiskStats} (parsed : parseStatLine parts = .ok (.ok stats))
    (next : ds.stats.last = some last) :
    useLine build elapsed device ds parts collector =
      gauges build elapsed ds.metricPrefix (stats - last) >>= fun made =>
        .ok (.ok (),
          { collector.storing device ds stats with sent := collector.sent ++ made }) := by
  rw [useLine, parsed]
  simp only [bind, Except.bind, DiffContainer.diff, next]
  rfl

/-- Using a line is answered unless it is cut short or its differences overflow. -/
theorem exists_useLine_iff (long : 8 ≤ parts.length) :
    (∃ outcome, useLine build elapsed device ds parts collector = .ok outcome) ↔
      ¬ (CutShort parts ∨ build = .overflowChecks ∧
        ∃ stats, parseStatLine parts = .ok (.ok stats) ∧ Overflows ds stats) := by
  by_cases cut : CutShort parts
  · refine iff_of_false ?_ (not_not_intro (.inl cut))
    rintro ⟨outcome, ran⟩
    obtain ⟨answer, parsed, -⟩ := bind_eq_ok_iff.mp ran
    exact (exists_parseStatLine_iff long).mp ⟨answer, parsed⟩ cut
  obtain ⟨answer, parsed⟩ := (exists_parseStatLine_iff long).mpr cut
  cases answer with
  | error e =>
    refine iff_of_true ?_ ?_
    · rw [useLine, parsed]
      exact ⟨_, rfl⟩
    · rintro (cut' | ⟨-, stats, parsed', -⟩)
      · exact cut cut'
      · cases parsed.symm.trans parsed'
  | ok stats =>
  cases last : ds.stats.last with
  | none =>
    refine iff_of_true ⟨_, useLine_of_first parsed last⟩ ?_
    rintro (cut' | ⟨-, -, -, _, some, -⟩)
    · exact cut cut'
    · cases last.symm.trans some
  | some before =>
    rw [useLine_of_next parsed last]
    constructor
    · rintro ⟨outcome, ran⟩
      obtain ⟨made, computed, -⟩ := bind_eq_ok_iff.mp ran
      have fine := exists_gauges_iff.mp ⟨made, computed⟩
      rintro (cut' | ⟨checked, stats', parsed', last', there, overflow⟩)
      · exact cut cut'
      · cases parsed.symm.trans parsed'
        cases last.symm.trans there
        exact fine ⟨checked, overflow⟩
    · intro fine
      have fit : ¬ (build = .overflowChecks ∧
          2 ^ 64 ≤ (stats - before).reads.toNat + (stats - before).writes.toNat) :=
        fun both => fine (.inr ⟨both.1, stats, parsed, before, last, both.2⟩)
      obtain ⟨made, computed⟩ := exists_gauges_iff.mpr fit
      exact ⟨_, bind_eq_ok_iff.mpr ⟨made, computed, rfl⟩⟩

end Line

/-! ## Visits -/

section Visits

variable {build} {visit : Visit} {device : String} {ds : DiskStatsContainer}
  {after : DiskStatCollector}

/-- A line is about at most one device. -/
theorem Visit.Monitors.unique {device' : String} {ds' : DiskStatsContainer}
    (monitors : visit.Monitors device ds) (other : visit.Monitors device' ds') :
    device = device' ∧ ds = ds' := by
  obtain ⟨-, ⟨part, there, rfl⟩, monitored⟩ := monitors
  obtain ⟨-, ⟨part', there', rfl⟩, monitored'⟩ := other
  cases there.symm.trans there'
  exact ⟨rfl, Option.some.inj (monitored.symm.trans monitored')⟩

theorem processLine_of_monitors (monitors : visit.Monitors device ds) :
    processLine build visit.elapsed visit.line visit.collector =
      useLine build visit.elapsed device ds (columns visit.line) visit.collector := by
  obtain ⟨long, ⟨part, there, rfl⟩, monitored⟩ := monitors
  rw [processLine]
  rw [if_pos long, column_eq_ok_iff.mpr there]
  simp only [bind, Except.bind, monitored]

theorem exists_processLine_of_not_monitors
    (not : ∀ device ds, ¬ visit.Monitors device ds) :
    ∃ outcome, processLine build visit.elapsed visit.line visit.collector = .ok outcome := by
  rw [processLine]
  by_cases long : 8 ≤ (columns visit.line).length
  · obtain ⟨part, there, column2⟩ := exists_column (show 2 < (columns visit.line).length by omega)
    rw [if_pos long, column2]
    simp only [bind, Except.bind]
    cases monitored : visit.collector.diskMetricData.lookup (String.ofList part) with
    | none => exact ⟨_, rfl⟩
    | some ds => exact absurd ⟨long, ⟨part, there, rfl⟩, monitored⟩ (not _ ds)
  · exact ⟨_, if_neg long⟩

/-- A line is answered unless it breaks the promise. -/
theorem exists_processLine_iff (visit : Visit) :
    (∃ outcome, processLine build visit.elapsed visit.line visit.collector = .ok outcome) ↔
      ¬ visit.Breaks build := by
  by_cases monitored : ∃ device ds, visit.Monitors device ds
  · obtain ⟨device, ds, monitors⟩ := monitored
    rw [processLine_of_monitors monitors, exists_useLine_iff monitors.1, not_iff_not]
    constructor
    · exact fun broken => ⟨device, ds, monitors, broken⟩
    · rintro ⟨device', ds', monitors', broken⟩
      obtain ⟨rfl, rfl⟩ := monitors.unique monitors'
      exact broken
  · refine iff_of_true (exists_processLine_of_not_monitors ?_) ?_
    · exact fun device ds monitors => monitored ⟨device, ds, monitors⟩
    · exact fun ⟨device, ds, monitors, _⟩ => monitored ⟨device, ds, monitors⟩

/-- A line that is answered without an error is used for its device. -/
theorem exists_used (monitors : visit.Monitors device ds)
    (ran : processLine build visit.elapsed visit.line visit.collector = .ok (.ok (), after)) :
    ∃ stats made, Used visit device ds after stats made := by
  rw [processLine_of_monitors monitors] at ran
  obtain ⟨answer, parsed, -⟩ := bind_eq_ok_iff.mp ran
  cases answer with
  | error e =>
    rw [useLine, parsed] at ran
    cases ran
  | ok stats =>
  have readFrom := readFrom_of_parseStatLine parsed
  cases last : ds.stats.last with
  | none =>
    rw [useLine_of_first parsed last] at ran
    cases ran
    refine ⟨stats, [], readFrom, AList.lookup_insert _, (List.append_nil _).symm, fun amount => ?_⟩
    refine iff_of_false List.not_mem_nil ?_
    rintro ⟨before, there, -⟩
    cases last.symm.trans there
  | some before =>
    rw [useLine_of_next parsed last] at ran
    obtain ⟨made, computed, returned⟩ := bind_eq_ok_iff.mp ran
    cases returned
    refine ⟨stats, made, readFrom, AList.lookup_insert _, rfl, fun amount => ?_⟩
    rw [util_mem_gauges_iff computed]
    constructor
    · rintro ⟨both, same⟩
      obtain ⟨now, earlier⟩ := Bool.and_eq_true_iff.mp both
      exact ⟨before, last, earlier, readFrom.extended.mp now, same⟩
    · rintro ⟨last', there, earlier, long, same⟩
      cases last.symm.trans there
      exact ⟨Bool.and_eq_true_iff.mpr ⟨readFrom.extended.mpr long, earlier⟩, same⟩

end Visits

/-! ## Whole runs -/

section Runs

variable {build} {elapsed : Duration} {readings : List Reading}

/-- The loop over the lines returns unless a line that it gets to breaks the promise. -/
theorem exists_processLines_iff (lines : List (List Char)) : ∀ collector,
    (∃ outcome, processLines build elapsed lines collector = .ok outcome) ↔
      ∀ visit ∈ visitsOfLines build elapsed lines collector, ¬ visit.Breaks build := by
  -- the visits go on just where the loop does: after a line that is answered without an error
  induction lines with
  | nil =>
    intro collector
    exact iff_of_true ⟨_, rfl⟩ fun _ none => absurd none List.not_mem_nil
  | cons line rest ih =>
    intro collector
    have first : (∃ outcome, processLine build elapsed line collector = .ok outcome) ↔
      ¬ Visit.Breaks build ⟨collector, elapsed, line⟩ :=
      exists_processLine_iff ⟨collector, elapsed, line⟩
    rw [processLines, visitsOfLines, List.forall_mem_cons, ← first]
    cases processLine build elapsed line collector with
    | error panic =>
      exact iff_of_false not_exists_error_eq_ok fun fine => not_exists_error_eq_ok fine.1
    | ok outcome =>
      rcases outcome with ⟨answer, collector'⟩
      cases answer with
      | ok _ => exact (ih collector').trans ⟨fun fine => ⟨⟨_, rfl⟩, fine⟩, And.right⟩
      | error e =>
        exact iff_of_true ⟨_, rfl⟩ ⟨⟨_, rfl⟩, fun _ none => absurd none List.not_mem_nil⟩

theorem exists_collectAndSendMetrics_iff {reading : Reading} {collector : DiskStatCollector} :
    (∃ outcome, collectAndSendMetrics build reading collector = .ok outcome) ↔
      ∀ visit ∈ visitsOfReading build reading collector, ¬ visit.Breaks build := by
  rw [collectAndSendMetrics, visitsOfReading]
  rcases collector.diskstats reading.contents with ⟨answer, collector'⟩
  cases answer with
  | error e => exact iff_of_true ⟨_, rfl⟩ fun _ none => absurd none List.not_mem_nil
  | ok lines =>
    dsimp only
    split_ifs with due
    · exact exists_processLines_iff lines _
    · exact iff_of_true ⟨_, rfl⟩ fun _ none => absurd none List.not_mem_nil

/-- All calls return unless a line that they get to breaks the promise. -/
theorem exists_collectAll_iff (readings : List Reading) : ∀ collector,
    (∃ result, collectAll build readings collector = .ok result) ↔
      ∀ visit ∈ visits build readings collector, ¬ visit.Breaks build := by
  induction readings with
  | nil =>
    intro collector
    exact iff_of_true ⟨_, rfl⟩ fun _ none => absurd none List.not_mem_nil
  | cons reading rest ih =>
    intro collector
    rw [collectAll, visits, List.forall_mem_append, ← exists_collectAndSendMetrics_iff]
    cases collectAndSendMetrics build reading collector with
    | error panic =>
      exact iff_of_false not_exists_error_eq_ok fun fine => not_exists_error_eq_ok fine.1
    | ok outcome =>
      rcases outcome with ⟨answer, collector'⟩
      rw [and_iff_right ⟨_, rfl⟩]
      have rest_iff : (∃ result, (collectAll build rest collector' >>= fun later =>
          .ok (answer :: later.1, later.2)) = .ok result) ↔
          ∃ result, collectAll build rest collector' = .ok result :=
        exists_bind_eq_ok_iff fun _ => ⟨_, rfl⟩
      exact rest_iff.trans (ih collector')

/-- All calls return and use the I/O time of the right column, exactly when no line that they
get to is cut short or overflows. -/
theorem collectsRight_iff (collector : DiskStatCollector) (readings : List Reading) :
    CollectsRight build collector readings ↔
      ∀ visit ∈ visits build readings collector, ¬ visit.Breaks build := by
  rw [← exists_collectAll_iff]
  constructor
  · rintro ⟨⟨answers, after, ran⟩, -⟩
    exact ⟨_, ran⟩
  · rintro ⟨⟨answers, after⟩, ran⟩
    refine ⟨⟨answers, after, ran⟩, fun visit _ device ds monitors after returned => ?_⟩
    exact exists_used monitors returned

/-- A node whose only disk is on the device `sda`. -/
def onSda : DiskStatCollector := new [(some "sda", "disk1")] 0

/-- A reading of one line, after so many seconds. -/
def lineAfter (seconds : ℕ) (line : String) : Reading := ⟨some line.toList, seconds * 10 ^ 9⟩

/-- A line of twelve columns panics in every build. Counters that start again panic in a build
with overflow checks. -/
theorem cut_short_and_restarted_panic :
    (collectAll .release [lineAfter 1 "8 0 sda 100 0 0 0 100 0 0 0 0\n"] onSda =
        .error ⟨"index out of bounds: the len is 12 but the index is 12"⟩ ∧
      collectAll .overflowChecks [lineAfter 1 "8 0 sda 100 0 0 0 100 0 0 0 0 50 0\n",
          lineAfter 2 "8 0 sda 1 0 0 0 1 0 0 0 0 2 0\n"] onSda =
        .error ⟨"attempt to add with overflow"⟩) ∧
      ¬ CollectsRight .release onSda [lineAfter 1 "8 0 sda 100 0 0 0 100 0 0 0 0\n"] := by
  refine ⟨⟨rfl, rfl⟩, ?_⟩
  rintro ⟨⟨answers, after, ran⟩, -⟩
  cases ran

end Runs

end DiskStatCollector

end Bob.Server

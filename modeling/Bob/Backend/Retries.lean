/-
# Operations that are tried again

The pearl section of the node file says how often an operation is tried, and how long to wait
between two tries. Opening the storage of a partition is such an operation, and three of its
steps are, too.

The number of tries is not validated. With zero of them the loop over the tries is left at once,
and what follows the loop is marked as unreachable. With one or more, the operation is tried
until it succeeds or there are no tries left, and opening a storage makes a bounded number of
calls. It may still abort after them, if the files are of an unsupported version.
-/

import Bob.Common.Routing
import Bob.Math.Stepwise

namespace Bob.Backend.Retries

open Bob.Math Bob.Configs

/-! ## Trying again -/

/-- What a run does: it calls operations and sleeps. -/
inductive Event (ι : Type)
  | called (operation : ι)
  | slept (delay : Duration)
  deriving DecidableEq, Repr

variable {ι ε α : Type}

def Event.isCall : Event ι → Bool
  | called _ => true
  | slept _ => false

/-- The number of calls in a log. -/
def callCount (log : List (Event ι)) : ℕ := log.countP Event.isCall

/-- A computation that logs what it does, and may panic. -/
abbrev Logged (ι α : Type) := StateT (List (Event ι)) (Except Panic) α

/-- Call an operation. Its answer depends on the number of calls before. -/
def call (operation : ι) (answers : ℕ → α) : Logged ι α :=
  fun log => .ok (answers (callCount log), log ++ [.called operation])

def sleep (delay : Duration) : Logged ι Unit := fun log => .ok ((), log ++ [.slept delay])

/-- The loop over the numbers of the attempts that are left. -/
def tryAttempts (f : Logged ι (Except ε α)) (retryDelay : Duration) (retryCount : ℕ) :
    List ℕ → Logged ι (Except ε α)
  | [] => fun _ => .error ⟨"internal error: entered unreachable code"⟩
  | attempt :: rest => do
    match ← f with
    | .ok value => return .ok value
    | .error e =>
      if attempt = retryCount - 1 then return .error e
      else do
        sleep retryDelay
        tryAttempts f retryDelay retryCount rest

/-- The pearl section with the number of tries, which the validation does not look at. -/
structure Pearl extends PearlConfig where
  failRetryCount : UInt64
  deriving DecidableEq, Repr

namespace Pearl

variable (pearl : Pearl) (ext : Externals)

def validate : Except Stop Unit := pearl.toPearlConfig.validate ext

def retryTimeout : Except Panic Duration :=
  (ext.parseHumanDuration pearl.failRetryTimeout).mapError fun _ => ⟨"parse humantime duration"⟩

def tryMultipleTimesAsync (f : Logged ι (Except ε α)) (retryDelay : Duration) :
    Logged ι (Except ε α) :=
  tryAttempts f retryDelay pearl.failRetryCount.toNat (List.range pearl.failRetryCount.toNat)

def tryMultipleTimes (f : Logged ι (Except ε α)) (retryDelay : Duration) :
    Logged ι (Except ε α) :=
  pearl.tryMultipleTimesAsync f retryDelay

end Pearl

/-! ## Opening a storage -/

inductive IOErrorKind
  | permissionDenied
  | other
  | different
  deriving DecidableEq, Repr

/-- An error of any kind, as far as opening a storage looks at it. -/
inductive AnyError (keySize : ℕ)
  | bob (err : Error keySize)
  | io (kind : IOErrorKind)
  /-- An error of the engine, with its text if files have an unsupported version. -/
  | pearl (unsupported : Option String)
  | different
  deriving DecidableEq, Repr

/-- What is called to open a storage. -/
inductive OpeningCall
  | checkOrCreateDirectory
  | dropPearlLockFile
  | build
  | init
  | initLazy
  deriving DecidableEq, Repr

/-- What the calls answer, by the number of calls before. -/
structure Opening (keySize : ℕ) (S : Type) where
  checkOrCreateDirectory : ℕ → Except (Error keySize) Unit
  dropPearlLockFile : ℕ → Except (Error keySize) Unit
  build : ℕ → Except (AnyError keySize) S
  /-- Whether the current time is in the interval of the partition. -/
  getsIntoInterval : ℕ → Bool
  /-- The debug text of an error. -/
  init : ℕ → Except String Unit
  initLazy : ℕ → Except String Unit

variable {keySize : ℕ} {S : Type}

namespace Opening

variable (opening : Opening keySize S) (pearl : Pearl) (ext : Externals)

/-- Run with the delay of the pearl section. -/
def timed (run : Duration → Logged ι α) : Logged ι α := do
  let retryDelay ← liftM (pearl.retryTimeout ext)
  run retryDelay

def initPearl : Logged OpeningCall (Except (Error keySize) Unit) := do
  let res ←
    if opening.getsIntoInterval (callCount (← MonadState.get)) then call .init opening.init
    else call .initLazy opening.initLazy
  return res.mapError fun err => .storage s!"pearl error: {err}"

def initHolder : Logged OpeningCall (Except (AnyError keySize) S) := do
  match ← timed pearl ext (pearl.tryMultipleTimesAsync
      (call .checkOrCreateDirectory opening.checkOrCreateDirectory)) with
  | .error e => return .error (.bob e)
  | .ok () =>
    match ← timed pearl ext (pearl.tryMultipleTimesAsync
        (call .dropPearlLockFile opening.dropPearlLockFile)) with
    | .error e => return .error (.bob e)
    | .ok () =>
      match ← timed pearl ext (pearl.tryMultipleTimes (call .build opening.build)) with
      | .error e => return .error e
      | .ok storage =>
        match ← opening.initPearl with
        | .error e => return .error (.bob e)
        | .ok () => return .ok storage

/-- The tries to open the storage. -/
def retriedInit : Logged OpeningCall (Except (AnyError keySize) S) :=
  timed pearl ext (pearl.tryMultipleTimesAsync (opening.initHolder pearl ext))

end Opening

/-- The error for the caller. Files of an unsupported version abort. -/
def AnyError.toError : AnyError keySize → Except Panic (Error keySize)
  | pearl (some err) => .error ⟨s!"unsupported pearl blob file version: {err}"⟩
  | pearl none => .ok (.storage "Failed to init holder")
  | io .permissionDenied => .ok .possibleDiskDisconnection
  | io .other => .ok .possibleDiskDisconnection
  | io .different => .ok (.storage "Failed to init holder")
  | bob err => .ok err
  | different => .ok (.storage "Failed to init holder")

def Opening.createAndPrepareStorage (opening : Opening keySize S) (pearl : Pearl)
    (ext : Externals) : Logged OpeningCall (Except (Error keySize) S) := do
  match ← opening.retriedInit pearl ext with
  | .ok storage => return .ok storage
  | .error e => do
    let err ← liftM e.toError
    return .error err

/-! ## What is promised -/

/-- The operation is called until its first success, but at most `tries` times, with a sleep
between two calls, and the last answer is returned. -/
def RetriedRight (pearl : Pearl) (retryDelay : Duration) (results : ℕ → Except ε α)
    (tries : ℕ) : Prop :=
  ∃ last < tries, (∀ j < last, ∃ e, results j = .error e) ∧
    ((∃ value, results last = .ok value) ∨ last + 1 = tries) ∧
    pearl.tryMultipleTimesAsync (call () results) retryDelay [] =
      .ok (results last, (List.replicate (last + 1) (.called ())).intersperse (.slept retryDelay))

/-- Both the function itself and its nested use return. -/
structure RetriesRight (pearl : Pearl) (ext : Externals) (retryDelay : Duration)
    (results : ℕ → Except ε α) (opening : Opening keySize S) : Prop where
  retried : RetriedRight pearl retryDelay results (max pearl.failRetryCount.toNat 1)
  opened : ∃ outcome log, opening.createAndPrepareStorage pearl ext [] = .ok (outcome, log) ∧
    callCount log ≤
      max pearl.failRetryCount.toNat 1 * (3 * max pearl.failRetryCount.toNat 1 + 1)

/-- The number of calls when the tries of an operation after `first` calls have succeeded, if one
of them does. -/
def triedBy (answers : ℕ → Except ε α) (tries first : ℕ) : Option ℕ :=
  ((List.range tries).find? fun j => (answers (first + j)).isOk).map (first + · + 1)

namespace Opening

variable (opening : Opening keySize S) (tries : ℕ)

/-- The number of calls when a try to open the storage has failed, if it does. -/
def failedBy (first : ℕ) : Option ℕ :=
  match triedBy opening.checkOrCreateDirectory tries first with
  | none => some (first + tries)
  | some made =>
    match triedBy opening.dropPearlLockFile tries made with
    | none => some (made + tries)
    | some unlocked =>
      match triedBy opening.build tries unlocked with
      | none => some (unlocked + tries)
      | some built =>
        if (if opening.getsIntoInterval built then opening.init built
          else opening.initLazy built).isOk then none
        else some (built + 1)

/-- A try gets to the engine, no try of which succeeds, and the last answer of the engine is an
unsupported version. -/
def UnsupportedFrom (first : ℕ) : Prop :=
  ∃ made, triedBy opening.checkOrCreateDirectory tries first = some made ∧
    ∃ unlocked, triedBy opening.dropPearlLockFile tries made = some unlocked ∧
      triedBy opening.build tries unlocked = none ∧
      ∃ err, opening.build (unlocked + tries - 1) = .error (.pearl (some err))

/-- The last one of this many tries and one more does so, after all others have failed. -/
def UnsupportedAfter : ℕ → ℕ → Prop
  | 0, first => opening.UnsupportedFrom tries first
  | more + 1, first => ∃ next, opening.failedBy tries first = some next ∧
      UnsupportedAfter more next

/-- The last try to open the storage finds files of an unsupported version, as what it calls
answers. -/
def Unsupported (pearl : Pearl) : Prop :=
  opening.UnsupportedAfter pearl.failRetryCount.toNat (pearl.failRetryCount.toNat - 1) 0

end Opening

/-! ## One turn of the loop -/

section Turn

variable {f : Logged ι (Except ε α)} {retryDelay : Duration} {retryCount attempt : ℕ}
  {rest : List ℕ} {log log' : List (Event ι)}

theorem tryAttempts_of_ok {value : α} (ran : f log = .ok (.ok value, log')) :
    tryAttempts f retryDelay retryCount (attempt :: rest) log = .ok (.ok value, log') :=
  bind_apply_eq ran rfl

theorem tryAttempts_of_last {e : ε} (ran : f log = .ok (.error e, log'))
    (last : attempt = retryCount - 1) :
    tryAttempts f retryDelay retryCount (attempt :: rest) log = .ok (.error e, log') :=
  bind_apply_eq ran (congrFun (if_pos last) log')

theorem tryAttempts_of_error {e : ε} (ran : f log = .ok (.error e, log'))
    (notLast : attempt ≠ retryCount - 1) :
    tryAttempts f retryDelay retryCount (attempt :: rest) log =
      tryAttempts f retryDelay retryCount rest (log' ++ [.slept retryDelay]) :=
  bind_apply_eq ran (congrFun (if_neg notLast) log')

/-- A property of the attempts that are left is kept by each of them: it holds after a success
and after the last failure, and a failure hands it on to the attempts after it. -/
structure KeptByAttempts (f : Logged ι (Except ε α)) (retryDelay : Duration)
    (Q : ℕ → List (Event ι) → Except ε α × List (Event ι) → Prop) : Prop where
  returns : ∀ log, ∃ outcome, f log = .ok outcome
  done : ∀ more log value log', f log = .ok (.ok value, log') → Q more log (.ok value, log')
  last : ∀ log e log', f log = .ok (.error e, log') → Q 0 log (.error e, log')
  again : ∀ more log e log' outcome, f log = .ok (.error e, log') →
    Q more (log' ++ [.slept retryDelay]) outcome → Q (more + 1) log outcome

variable {Q : ℕ → List (Event ι) → Except ε α × List (Event ι) → Prop}

theorem KeptByAttempts.exists_tryAttempts (kept : KeptByAttempts f retryDelay Q) (more : ℕ) :
    ∀ start log, start + more + 1 = retryCount →
      ∃ outcome, tryAttempts f retryDelay retryCount (List.range' start (more + 1)) log =
        .ok outcome ∧ Q more log outcome := by
  induction more with
  | zero =>
    intro start log total
    obtain ⟨⟨answer, log'⟩, ran⟩ := kept.returns log
    cases answer with
    | ok value => exact ⟨_, tryAttempts_of_ok ran, kept.done _ _ _ _ ran⟩
    | error e => exact ⟨_, tryAttempts_of_last ran (by omega), kept.last _ _ _ ran⟩
  | succ more ih =>
    intro start log total
    obtain ⟨⟨answer, log'⟩, ran⟩ := kept.returns log
    cases answer with
    | ok value => exact ⟨_, tryAttempts_of_ok ran, kept.done _ _ _ _ ran⟩
    | error e =>
      obtain ⟨outcome, looped, holds⟩ :=
        ih (start + 1) (log' ++ [.slept retryDelay]) (by omega)
      exact ⟨outcome, (tryAttempts_of_error ran (by omega)).trans looped,
        kept.again _ _ _ _ _ ran holds⟩

theorem KeptByAttempts.exists_tryMultipleTimesAsync {pearl : Pearl} {more : ℕ}
    (kept : KeptByAttempts f retryDelay Q) (total : pearl.failRetryCount.toNat = more + 1)
    (log : List (Event ι)) :
    ∃ outcome, pearl.tryMultipleTimesAsync f retryDelay log = .ok outcome ∧
      Q more log outcome := by
  rw [Pearl.tryMultipleTimesAsync, List.range_eq_range', total]
  exact kept.exists_tryAttempts more 0 log (by omega)

end Turn

@[simp]
theorem callCount_append (log log' : List (Event ι)) :
    callCount (log ++ log') = callCount log + callCount log' :=
  List.countP_append

@[simp]
theorem callCount_called (operation : ι) : callCount [.called operation] = 1 := rfl

@[simp]
theorem callCount_slept (delay : Duration) : callCount [(.slept delay : Event ι)] = 0 := rfl

theorem callCount_intersperse (operation : ι) (delay : Duration) (k : ℕ) :
    callCount ((List.replicate (k + 1) (.called operation)).intersperse (.slept delay)) =
      k + 1 := by
  induction k with
  | zero => rfl
  | succ k ih =>
    rw [List.replicate_succ, List.replicate_succ, List.intersperse_cons_cons,
      ← List.replicate_succ]
    simp [callCount, Event.isCall, List.countP_cons] at ih ⊢
    omega

/-! ## The calls of the loop -/

section Calls

variable (results : ℕ → Except ε α) (operation : ι) (retryDelay : Duration)

/-- A number of failures with a sleep after each, and the attempt that ends the loop. -/
def Tried (more : ℕ) (log : List (Event ι)) (outcome : Except ε α × List (Event ι)) : Prop :=
  ∃ k ≤ more, (∀ j < k, ∃ e, results (callCount log + j) = .error e) ∧
    ((∃ value, results (callCount log + k) = .ok value) ∨ k = more) ∧
    outcome = (results (callCount log + k),
      log ++ (List.replicate (k + 1) (.called operation)).intersperse (.slept retryDelay))

variable {results operation retryDelay} {more : ℕ} {log : List (Event ι)}

theorem tried_of_first
    (ended : (∃ value, results (callCount log) = .ok value) ∨ more = 0) :
    Tried results operation retryDelay more log
      (results (callCount log), log ++ [.called operation]) :=
  ⟨0, Nat.zero_le _, fun j lt => absurd lt (Nat.not_lt_zero j), ended.imp_right Eq.symm, rfl⟩

/-- The attempts after a failure count it as the first one. -/
theorem Tried.after_error {e : ε} {outcome : Except ε α × List (Event ι)}
    (failed : results (callCount log) = .error e)
    (later : Tried results operation retryDelay more
      (log ++ [.called operation] ++ [.slept retryDelay]) outcome) :
    Tried results operation retryDelay (more + 1) log outcome := by
  obtain ⟨k, le, failures, ended, rfl⟩ := later
  have counted : callCount (log ++ [.called operation] ++ [.slept retryDelay]) =
      callCount log + 1 := by
    rw [callCount_append, callCount_append, callCount_called, callCount_slept, Nat.add_zero]
  have shifted (j : ℕ) : callCount log + 1 + j = callCount log + (j + 1) := by omega
  simp only [counted, shifted] at failures ended ⊢
  refine ⟨k + 1, by omega, fun j lt => ?_, ended.imp_right (congrArg (· + 1)), ?_⟩
  · cases j with
    | zero => exact ⟨e, failed⟩
    | succ j => exact failures j (by omega)
  · simp [List.replicate_succ]

theorem keptByAttempts_tried :
    KeptByAttempts (call operation results) retryDelay
      (Tried results operation retryDelay) where
  returns := fun _ => ⟨_, rfl⟩
  done := by
    intro more log value log' ran
    obtain ⟨answered, rfl⟩ := Prod.mk.inj (Except.ok.inj ran)
    rw [← answered]
    exact tried_of_first (.inl ⟨value, answered⟩)
  last := by
    intro log e log' ran
    obtain ⟨answered, rfl⟩ := Prod.mk.inj (Except.ok.inj ran)
    rw [← answered]
    exact tried_of_first (.inr rfl)
  again := by
    intro more log e log' outcome ran later
    obtain ⟨answered, rfl⟩ := Prod.mk.inj (Except.ok.inj ran)
    exact later.after_error answered

end Calls

theorem retriedRight_of_pos {pearl : Pearl} {results : ℕ → Except ε α} {retryDelay : Duration}
    (pos : 1 ≤ pearl.failRetryCount.toNat) :
    RetriedRight pearl retryDelay results pearl.failRetryCount.toNat := by
  obtain ⟨more, total⟩ := Nat.exists_eq_add_of_le' pos
  have kept : KeptByAttempts (call () results) retryDelay (Tried results () retryDelay) :=
    keptByAttempts_tried
  obtain ⟨outcome, ran, k, le, failed, ended, rfl⟩ := kept.exists_tryMultipleTimesAsync total []
  have zero : callCount ([] : List (Event Unit)) = 0 := rfl
  simp only [zero, Nat.zero_add] at failed ended ran
  exact ⟨k, by omega, failed, ended.imp_right (by omega), ran⟩

theorem tryMultipleTimesAsync_of_zero {pearl : Pearl} {f : Logged ι (Except ε α)}
    (none : pearl.failRetryCount.toNat = 0) (retryDelay : Duration) (log : List (Event ι)) :
    pearl.tryMultipleTimesAsync f retryDelay log =
      .error ⟨"internal error: entered unreachable code"⟩ := by
  rw [Pearl.tryMultipleTimesAsync, none]
  rfl

theorem Pearl.exists_retryTimeout {pearl : Pearl} {ext : Externals}
    (accepted : pearl.validate ext = .ok ()) :
    ∃ retryDelay, pearl.retryTimeout ext = .ok retryDelay := by
  obtain ⟨_, _, afterUnset⟩ := bind_eq_ok_iff.mp accepted
  obtain ⟨_, _, afterStep⟩ := bind_eq_ok_iff.mp afterUnset
  obtain ⟨_, checked, _⟩ := bind_eq_ok_iff.mp afterStep
  cases parsed : ext.parseHumanDuration pearl.failRetryTimeout with
  | ok retryDelay => exact ⟨retryDelay, by rw [retryTimeout, parsed]; rfl⟩
  | error e =>
    rw [parsed] at checked
    cases checked

/-! ## The calls of an opening -/

/-- Only an unsupported version aborts. -/
theorem AnyError.toError_eq_error_iff (e : AnyError keySize) :
    (∃ panic, e.toError = .error panic) ↔ ∃ err, e = .pearl (some err) := by
  constructor
  · rintro ⟨panic, aborts⟩
    match e, aborts with
    | .pearl (some err), _ => exact ⟨err, rfl⟩
  · rintro ⟨err, rfl⟩
    exact ⟨_, rfl⟩

namespace Opening

variable {opening : Opening keySize S} {pearl : Pearl} {ext : Externals}

theorem le_of_triedBy {answers : ℕ → Except ε α} {tries first next : ℕ}
    (tried : triedBy answers tries first = some next) : next ≤ first + tries := by
  obtain ⟨j, found, rfl⟩ := Option.map_eq_some_iff.mp tried
  have lt := List.mem_range.mp (List.mem_of_find?_eq_some found)
  omega

/-- The first success among the tries, or the last failure. -/
theorem exists_triedBy (accepted : pearl.validate ext = .ok ())
    (pos : 1 ≤ pearl.failRetryCount.toNat) (operation : ι) (results : ℕ → Except ε α)
    (log : List (Event ι)) :
    ∃ log', (∃ value, timed pearl ext (pearl.tryMultipleTimesAsync (call operation results)) log =
          .ok (.ok value, log') ∧
        triedBy results pearl.failRetryCount.toNat (callCount log) = some (callCount log')) ∨
      ∃ e, timed pearl ext (pearl.tryMultipleTimesAsync (call operation results)) log =
          .ok (.error e, log') ∧
        triedBy results pearl.failRetryCount.toNat (callCount log) = none ∧
        results (callCount log + pearl.failRetryCount.toNat - 1) = .error e ∧
        callCount log' = callCount log + pearl.failRetryCount.toNat := by
  obtain ⟨retryDelay, parsed⟩ := Pearl.exists_retryTimeout accepted
  have timed_eq : timed pearl ext (pearl.tryMultipleTimesAsync (call operation results)) =
      pearl.tryMultipleTimesAsync (call operation results) retryDelay := by
    rw [timed, parsed]
    rfl
  rw [timed_eq]
  obtain ⟨more, total⟩ := Nat.exists_eq_add_of_le' pos
  have kept : KeptByAttempts (call operation results) retryDelay
      (Tried results operation retryDelay) := keptByAttempts_tried
  obtain ⟨outcome, ran, k, le, failed, ended, rfl⟩ := kept.exists_tryMultipleTimesAsync total log
  have calls : callCount (log ++ (List.replicate (k + 1) (.called operation)).intersperse
      (.slept retryDelay)) = callCount log + k + 1 := by
    rw [callCount_append, callCount_intersperse, Nat.add_assoc]
  have refused (j : ℕ) (lt : j < k) : (results (callCount log + j)).isOk = false := by
    obtain ⟨e, answer⟩ := failed j lt
    rw [answer]
    rfl
  refine ⟨log ++ (List.replicate (k + 1) (.called operation)).intersperse (.slept retryDelay), ?_⟩
  cases answer : results (callCount log + k) with
  | ok value =>
    refine .inl ⟨value, answer ▸ ran, ?_⟩
    have first : ((List.range pearl.failRetryCount.toNat).find? fun j =>
        (results (callCount log + j)).isOk) = some k := by
      rw [List.find?_range_eq_some]
      exact ⟨by rw [answer]; rfl, List.mem_range.mpr (by omega), fun j lt => by
        rw [refused j lt]; rfl⟩
    rw [triedBy, first, calls]
    rfl
  | error e =>
    obtain rfl : k = more := ended.resolve_left fun ⟨value, ok⟩ => nomatch answer.symm.trans ok
    have never : ((List.range pearl.failRetryCount.toNat).find? fun j =>
        (results (callCount log + j)).isOk) = none := by
      rw [List.find?_eq_none]
      intro j member
      rw [List.mem_range, total] at member
      rcases Nat.lt_succ_iff_lt_or_eq.mp member with lt | rfl
      · simp [refused j lt]
      · simp [answer, Except.isOk, Except.toBool]
    refine .inr ⟨e, answer ▸ ran, ?_, ?_, ?_⟩
    · rw [triedBy, never]
      rfl
    · rw [total, ← Nat.add_assoc, Nat.add_sub_cancel, answer]
    · rw [calls, total, Nat.add_assoc]

/-- How a try ended, after `first` calls. -/
def Tells (opening : Opening keySize S) (tries first : ℕ) :
    Except (AnyError keySize) S → ℕ → Prop
  | .ok _, _ => opening.failedBy tries first = none ∧ ¬ opening.UnsupportedFrom tries first
  | .error e, next => opening.failedBy tries first = some next ∧
      ((∃ err, e = .pearl (some err)) ↔ opening.UnsupportedFrom tries first)

theorem exists_initPearl (opening : Opening keySize S) (log : List (Event OpeningCall)) :
    ∃ log', opening.initPearl log =
        .ok ((if opening.getsIntoInterval (callCount log) then opening.init (callCount log)
          else opening.initLazy (callCount log)).mapError fun err =>
            .storage s!"pearl error: {err}", log') ∧
      callCount log' = callCount log + 1 := by
  refine ⟨log ++ [.called (if opening.getsIntoInterval (callCount log) then .init else .initLazy)],
    bind_apply_eq rfl ?_, by simp⟩
  dsimp only
  cases opening.getsIntoInterval (callCount log) <;> rfl

/-- One try, by the answers of what it calls: three operations with their tries, and one
without. -/
theorem exists_initHolder (accepted : pearl.validate ext = .ok ())
    (pos : 1 ≤ pearl.failRetryCount.toNat) (log : List (Event OpeningCall)) :
    ∃ answer log', opening.initHolder pearl ext log = .ok (answer, log') ∧
      callCount log' ≤ callCount log + (3 * pearl.failRetryCount.toNat + 1) ∧
      opening.Tells pearl.failRetryCount.toNat (callCount log) answer (callCount log') := by
  -- an operation that fails at all its tries ends the try
  obtain ⟨log₁, ⟨_, ran₁, made⟩ | ⟨e, ran₁, never, -, calls⟩⟩ :=
    exists_triedBy accepted pos .checkOrCreateDirectory opening.checkOrCreateDirectory log
  case inr =>
    refine ⟨_, log₁, bind_apply_eq ran₁ rfl, by omega, by simp [failedBy, never, calls],
      iff_of_false nofun (by simp [UnsupportedFrom, never])⟩
  have le₁ := le_of_triedBy made
  obtain ⟨log₂, ⟨_, ran₂, unlocked⟩ | ⟨e, ran₂, never, -, calls⟩⟩ :=
    exists_triedBy accepted pos .dropPearlLockFile opening.dropPearlLockFile log₁
  case inr =>
    refine ⟨_, log₂, bind_apply_eq ran₁ (bind_apply_eq ran₂ rfl), by omega,
      by simp [failedBy, made, never, calls],
      iff_of_false nofun (by simp [UnsupportedFrom, made, never])⟩
  have le₂ := le_of_triedBy unlocked
  obtain ⟨log₃, ⟨storage, ran₃, built⟩ | ⟨e, ran₃, never, answer, calls⟩⟩ :=
    exists_triedBy accepted pos .build opening.build log₂
  case inr =>
    refine ⟨_, log₃, bind_apply_eq ran₁ (bind_apply_eq ran₂ (bind_apply_eq ran₃ rfl)),
      by omega, by simp [failedBy, made, unlocked, never, calls], ?_⟩
    simp [UnsupportedFrom, made, unlocked, never, answer]
  have supported : ¬ opening.UnsupportedFrom pearl.failRetryCount.toNat (callCount log) := by
    simp [UnsupportedFrom, made, unlocked, built]
  have le₃ := le_of_triedBy built
  obtain ⟨log₄, ran₄, calls⟩ := opening.exists_initPearl log₃
  cases started : (if opening.getsIntoInterval (callCount log₃) then opening.init (callCount log₃)
      else opening.initLazy (callCount log₃)) with
  | ok _ =>
    rw [started] at ran₄
    refine ⟨.ok storage, log₄, bind_apply_eq ran₁ (bind_apply_eq ran₂ (bind_apply_eq ran₃
      (bind_apply_eq ran₄ rfl))), by omega, ?_, supported⟩
    simp [failedBy, made, unlocked, built, started, Except.isOk, Except.toBool]
  | error text =>
    rw [started] at ran₄
    refine ⟨_, log₄, bind_apply_eq ran₁ (bind_apply_eq ran₂ (bind_apply_eq ran₃
      (bind_apply_eq ran₄ rfl))), by omega, ?_, iff_of_false nofun supported⟩
    simp [failedBy, made, unlocked, built, started, calls, Except.isOk, Except.toBool]

/-- The tries stay within their budget, and end with an unsupported version exactly when the
answers say so. -/
theorem exists_retriedInit (opening : Opening keySize S) (accepted : pearl.validate ext = .ok ())
    (pos : 1 ≤ pearl.failRetryCount.toNat) :
    ∃ answer log, opening.retriedInit pearl ext [] = .ok (answer, log) ∧
      callCount log ≤ pearl.failRetryCount.toNat * (3 * pearl.failRetryCount.toNat + 1) ∧
      ((∃ err, answer = .error (.pearl (some err))) ↔ opening.Unsupported pearl) := by
  obtain ⟨more, total⟩ := Nat.exists_eq_add_of_le' pos
  obtain ⟨retryDelay, parsed⟩ := Pearl.exists_retryTimeout accepted
  set cost := 3 * pearl.failRetryCount.toNat + 1
  have told {log answer log'} (ran : opening.initHolder pearl ext log = .ok (answer, log')) :
      callCount log' ≤ callCount log + cost ∧
        opening.Tells pearl.failRetryCount.toNat (callCount log) answer (callCount log') := by
    obtain ⟨answer', log'', ran', tells⟩ := exists_initHolder accepted pos log
    cases ran.symm.trans ran'
    exact tells
  have kept : KeptByAttempts (opening.initHolder pearl ext) retryDelay fun more log outcome =>
      callCount outcome.2 ≤ callCount log + (more + 1) * cost ∧
        ((∃ err, outcome.1 = .error (.pearl (some err))) ↔
          opening.UnsupportedAfter pearl.failRetryCount.toNat more (callCount log)) := by
    refine ⟨fun log => ?_, fun more log value log' ran => ?_, fun log e log' ran => ?_,
      fun more log e log' outcome ran later => ?_⟩
    · obtain ⟨answer, log', ran, -⟩ := exists_initHolder accepted pos log
      exact ⟨_, ran⟩
    · obtain ⟨within, through, supported⟩ := told ran
      refine ⟨within.trans (Nat.add_le_add_left (Nat.le_mul_of_pos_left cost more.succ_pos) _),
        iff_of_false nofun ?_⟩
      cases more with
      | zero => exact supported
      | succ more =>
        rintro ⟨next, failed, -⟩
        cases through.symm.trans failed
    · obtain ⟨within, -, unsupported⟩ := told ran
      refine ⟨within.trans_eq (by rw [Nat.zero_add, Nat.one_mul]), ?_⟩
      rw [UnsupportedAfter, ← unsupported]
      simp
    -- a failed try pays its own share and leads to the next one, the sleep costs nothing
    · obtain ⟨within, failed, -⟩ := told ran
      rw [callCount_append, callCount_slept, Nat.add_zero] at later
      constructor
      · rw [Nat.succ_mul (more + 1)]
        omega
      · rw [later.2, UnsupportedAfter, failed]
        simp
  obtain ⟨⟨answer, log⟩, ran, within, tells⟩ := kept.exists_tryMultipleTimesAsync total []
  refine ⟨answer, log, ?_, ?_, ?_⟩
  · rw [retriedInit, timed, parsed]
    exact ran
  · rw [total]
    exact within.trans_eq (Nat.zero_add _)
  · rw [tells, Unsupported, total]
    rfl

/-- With at least one try, an opening returns within its budget unless the version is
unsupported. -/
theorem createAndPrepareStorage_iff (accepted : pearl.validate ext = .ok ())
    (pos : 1 ≤ pearl.failRetryCount.toNat) :
    (∃ outcome log, opening.createAndPrepareStorage pearl ext [] = .ok (outcome, log) ∧
      callCount log ≤ pearl.failRetryCount.toNat * (3 * pearl.failRetryCount.toNat + 1)) ↔
    ¬ opening.Unsupported pearl := by
  obtain ⟨answer, log, ran, within, unsupported⟩ := exists_retriedInit opening accepted pos
  rw [← unsupported]
  cases answer with
  | ok storage => exact iff_of_true ⟨.ok storage, log, bind_apply_eq ran rfl, within⟩ nofun
  | error e =>
    have aborts := e.toError_eq_error_iff
    have opened : opening.createAndPrepareStorage pearl ext [] =
        e.toError.bind fun err => .ok (.error err, log) := by
      refine bind_apply_eq ran ?_
      dsimp only
      cases e.toError <;> rfl
    rw [opened]
    cases converted : e.toError with
    | ok err =>
      refine iff_of_true ⟨.error err, log, rfl, within⟩ ?_
      rintro ⟨text, same⟩
      obtain ⟨panic, failed⟩ := aborts.mpr ⟨text, Except.error.inj same⟩
      cases converted.symm.trans failed
    | error panic =>
      obtain ⟨text, same⟩ := aborts.mp ⟨panic, converted⟩
      exact iff_of_false nofun (not_not_intro ⟨text, congrArg _ same⟩)

end Opening

/-! ## When the promise is kept -/

/-- Without a try, the loop is left at once. -/
theorem not_retriedRight_of_zero {pearl : Pearl} {retryDelay : Duration}
    {results : ℕ → Except ε α} {tries : ℕ} (zero : pearl.failRetryCount.toNat = 0) :
    ¬ RetriedRight pearl retryDelay results tries := by
  rintro ⟨last, -, -, -, returned⟩
  rw [tryMultipleTimesAsync_of_zero zero] at returned
  cases returned

/-- For an accepted pearl section, what is promised holds exactly when there is at least one try
and the last one does not find an unsupported version. -/
theorem retriesRight_iff {pearl : Pearl} {ext : Externals} (accepted : pearl.validate ext = .ok ())
    (retryDelay : Duration) (results : ℕ → Except ε α) (opening : Opening keySize S) :
    RetriesRight pearl ext retryDelay results opening ↔
      1 ≤ pearl.failRetryCount.toNat ∧ ¬ opening.Unsupported pearl := by
  rcases Nat.eq_zero_or_pos pearl.failRetryCount.toNat with zero | pos
  · refine iff_of_false (fun right => ?_) (fun fine => ?_)
    · exact not_retriedRight_of_zero zero right.retried
    · exact absurd fine.1 (by omega)
  · have tries : max pearl.failRetryCount.toNat 1 = pearl.failRetryCount.toNat :=
      Nat.max_eq_left pos
    constructor
    · rintro ⟨-, opened⟩
      rw [tries] at opened
      exact ⟨pos, (Opening.createAndPrepareStorage_iff accepted pos).mp opened⟩
    · rintro ⟨-, supported⟩
      refine ⟨?_, ?_⟩
      · rw [tries]
        exact retriedRight_of_pos pos
      · rw [tries]
        exact (Opening.createAndPrepareStorage_iff accepted pos).mpr supported

/-- The pearl section of the test mode, with another number of tries. -/
def Pearl.testmode (failRetryCount : UInt64) : Pearl where
  blobFileNamePrefix := "bob"
  failRetryTimeout := "100ms"
  alienDisk := some "disk1"
  settings := ⟨"bob", "alien", "1d", "100ms"⟩
  skipHoldersByTimestampStepWhenReading := none
  failRetryCount := failRetryCount

/-- The lock file is gone at the third call, and the engine starts at the second try. -/
def Opening.late : Opening 8 Unit where
  checkOrCreateDirectory := fun _ => .ok ()
  dropPearlLockFile := fun calls => if calls < 2 then .error (.storage "locked") else .ok ()
  build := fun _ => .ok ()
  getsIntoInterval := fun _ => true
  init := fun calls => if calls < 5 then .error "busy" else .ok ()
  initLazy := fun _ => .ok ()

theorem retriesRight_iff_three_tries :
    (Pearl.testmode 3).validate Virtual.lenientExternals = .ok () ∧
      RetriesRight (Pearl.testmode 3) Virtual.lenientExternals ⟨5⟩
        (fun calls => if calls < 2 then .error calls else .ok ()) Opening.late := by
  refine ⟨rfl, (retriesRight_iff rfl ⟨5⟩ _ Opening.late).mpr ⟨by decide, ?_⟩⟩
  -- the first try fails after five calls, the second one does not
  rintro ⟨next, failed, later⟩
  obtain rfl : next = 5 := (Option.some.inj failed).symm
  obtain ⟨after, failed', -⟩ := later
  cases failed'

/-- An accepted pearl section with zero tries: the operation is not called, and opening a
storage panics. -/
theorem zero_tries_reach_the_unreachable :
    (Pearl.testmode 0).validate Virtual.lenientExternals = .ok () ∧
      (Pearl.testmode 0).tryMultipleTimesAsync (call () fun _ => (.ok () : Except Unit Unit)) ⟨5⟩ []
        = .error ⟨"internal error: entered unreachable code"⟩ ∧
      Opening.late.createAndPrepareStorage (Pearl.testmode 0) Virtual.lenientExternals [] =
        .error ⟨"internal error: entered unreachable code"⟩ ∧
      ¬ RetriesRight (Pearl.testmode 0) Virtual.lenientExternals ⟨5⟩
        (fun _ => (.ok () : Except Unit Unit)) Opening.late :=
  ⟨rfl, rfl, rfl, fun right => not_retriedRight_of_zero rfl right.retried⟩

end Bob.Backend.Retries

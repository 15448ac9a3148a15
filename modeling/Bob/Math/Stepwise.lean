/-
# What a stateful computation leads to

A computation over a state leads to a fact if every run that returns, from a state with
the invariant, keeps the invariant, moves the state along a given preorder, and ends with
the fact. A fact that the preorder preserves and that one step of a sequence or a loop
leads to holds at the end. So a sequence of steps leads to all facts of its steps.
-/

import Mathlib.Data.List.Basic
import Bob.Math.Sequencing

namespace Bob.Math

variable {σ ε α β : Type} {I : σ → Prop} {R : σ → σ → Prop} {P Q : σ → Prop}

/-- The fact is not lost along the relation. -/
def Stable (R : σ → σ → Prop) (P : σ → Prop) : Prop :=
  ∀ s s', R s s' → P s → P s'

/-- Every run that returns keeps the invariant, moves along the relation, and ends with
the fact. -/
def Leads (I : σ → Prop) (R : σ → σ → Prop) (P : σ → Prop) (c : StateT σ (Except ε) α) : Prop :=
  ∀ s a s', I s → c s = .ok (a, s') → I s' ∧ R s s' ∧ P s'

/-- A step of a sequence that returns. -/
theorem bind_apply_eq_ok_iff {first : StateT σ (Except ε) α} {next : α → StateT σ (Except ε) β}
    {s s' : σ} {b : β} : (first >>= next) s = .ok (b, s') ↔
      ∃ a mid, first s = .ok (a, mid) ∧ next a mid = .ok (b, s') := by
  change (first s >>= fun value => next value.1 value.2) = .ok (b, s') ↔ _
  rw [bind_eq_ok_iff]
  simp

/-- A check that passes is no step. -/
theorem liftM_bind_eq {check : Except ε α} {a : α} (passed : check = .ok a)
    (next : α → StateT σ (Except ε) β) :
    ((liftM check : StateT σ (Except ε) α) >>= next) = next a := by
  rw [passed]
  rfl

theorem Stable.imp {c : Prop} (stable : Stable R P) : Stable R fun s => c → P s :=
  fun s s' moved before holds => stable s s' moved (before holds)

theorem Stable.forall_mem {ι : Type} {items : List ι} {P : ι → σ → Prop}
    (stable : ∀ item ∈ items, Stable R (P item)) :
    Stable R fun s => ∀ item ∈ items, P item s := by
  intro s s' moved before item member
  exact stable item member s s' moved (before item member)

namespace Leads

variable {c : StateT σ (Except ε) α}

theorem weaken (leads : Leads I R P c) (weaker : ∀ s, P s → Q s) : Leads I R Q c := by
  intro s a s' inv ran
  obtain ⟨kept, moved, holds⟩ := leads s a s' inv ran
  exact ⟨kept, moved, weaker s' holds⟩

/-- A computation that leaves the state alone. -/
theorem of_unchanged [IsPreorder σ R] (same : ∀ s a s', c s = .ok (a, s') → s' = s) :
    Leads I R (fun _ => True) c := by
  intro s a s' inv ran
  obtain rfl := same s a s' ran
  exact ⟨inv, refl_of R s', trivial⟩

theorem pure [IsPreorder σ R] (a : α) :
    Leads I R (fun _ => True) (Pure.pure a : StateT σ (Except ε) α) := by
  apply of_unchanged
  rintro s _ s' ran
  cases ran
  rfl

theorem bind [IsTrans σ R] {next : α → StateT σ (Except ε) β} (first : Leads I R P c)
    (second : ∀ a, Leads I R Q (next a)) (stable : Stable R P) :
    Leads I R (fun s => P s ∧ Q s) (c >>= next) := by
  intro s b s' inv ran
  obtain ⟨a, mid, ranFirst, ranSecond⟩ := bind_apply_eq_ok_iff.mp ran
  obtain ⟨inv, moved, holds⟩ := first s a mid inv ranFirst
  obtain ⟨inv, moved', holds'⟩ := second a mid b s' inv ranSecond
  exact ⟨inv, trans_of R moved moved', stable mid s' moved' holds, holds'⟩

/-- The second step only matters for what it keeps. -/
theorem bind_left [IsTrans σ R] {next : α → StateT σ (Except ε) β} (first : Leads I R P c)
    (second : ∀ a, Leads I R (fun _ => True) (next a)) (stable : Stable R P) :
    Leads I R P (c >>= next) :=
  (first.bind second stable).weaken fun _ both => both.1

/-- A loop leads to the facts of all its rounds. -/
theorem foldlM [IsPreorder σ R] {ι : Type} {items : List ι} {P : ι → σ → Prop}
    {step : α → ι → StateT σ (Except ε) α} (init : α)
    (round : ∀ acc, ∀ item ∈ items, Leads I R (P item) (step acc item))
    (stable : ∀ item ∈ items, Stable R (P item)) :
    Leads I R (fun s => ∀ item ∈ items, P item s) (items.foldlM step init) := by
  induction items generalizing init with
  | nil => exact (Leads.pure init).weaken fun _ _ _ absent => absurd absent List.not_mem_nil
  | cons item rest ih =>
    rw [List.foldlM_cons]
    have later (acc : α) := ih acc (fun acc other member => round acc other (.tail _ member))
      fun other member => stable other (.tail _ member)
    refine ((round init item (.head _)).bind later (stable item (.head _))).weaken ?_
    rintro s ⟨first, others⟩ other member
    obtain rfl | member := List.mem_cons.mp member
    · exact first
    · exact others other member

/-- A map leads to the facts of all its calls. -/
theorem mapM [IsPreorder σ R] {ι : Type} {items : List ι} {P : ι → σ → Prop}
    {call : ι → StateT σ (Except ε) α} (each : ∀ item ∈ items, Leads I R (P item) (call item))
    (stable : ∀ item ∈ items, Stable R (P item)) :
    Leads I R (fun s => ∀ item ∈ items, P item s) (items.mapM call) := by
  induction items with
  | nil => exact (Leads.pure []).weaken fun _ _ _ absent => absurd absent List.not_mem_nil
  | cons item rest ih =>
    rw [List.mapM_cons]
    have later := ih (fun other member => each other (.tail _ member))
      fun other member => stable other (.tail _ member)
    have whole := (each item (.head _)).bind
      (fun a => later.bind_left (fun results => Leads.pure (a :: results))
        (Stable.forall_mem fun other member => stable other (.tail _ member)))
      (stable item (.head _))
    refine whole.weaken ?_
    rintro s ⟨first, others⟩ other member
    obtain rfl | member := List.mem_cons.mp member
    · exact first
    · exact others other member

end Leads

/-! ## Facts about the answer -/

/-- Every run that returns moves along the relation, and ends with the fact about its
answer. -/
def Yields (R : σ → σ → Prop) (Q : α → σ → Prop) (c : StateT σ (Except ε) α) : Prop :=
  ∀ s a s', c s = .ok (a, s') → R s s' ∧ Q a s'

namespace Yields

variable {Q : α → σ → Prop} {c : StateT σ (Except ε) α}

theorem weaken {Q' : α → σ → Prop} (yields : Yields R Q c) (weaker : ∀ a s, Q a s → Q' a s) :
    Yields R Q' c := by
  intro s a s' ran
  obtain ⟨moved, holds⟩ := yields s a s' ran
  exact ⟨moved, weaker a s' holds⟩

theorem pure [IsPreorder σ R] {a : α} (holds : ∀ s, Q a s) :
    Yields R Q (Pure.pure a : StateT σ (Except ε) α) := by
  rintro s _ s' ran
  cases ran
  exact ⟨refl_of R s, holds s⟩

/-- The second step sees the answer of the first, and what is known about it. -/
theorem bind [IsTrans σ R] {Q' : β → σ → Prop} {next : α → StateT σ (Except ε) β}
    (first : Yields R Q c) (stable : ∀ a, Stable R (Q a))
    (second : ∀ a, Yields R (fun b s => Q a s → Q' b s) (next a)) : Yields R Q' (c >>= next) := by
  intro s b s' ran
  obtain ⟨a, mid, ranFirst, ranSecond⟩ := bind_apply_eq_ok_iff.mp ran
  obtain ⟨moved, holds⟩ := first s a mid ranFirst
  obtain ⟨moved', holds'⟩ := second a mid b s' ranSecond
  exact ⟨trans_of R moved moved', holds' (stable a mid s' moved' holds)⟩

/-- Only the relation matters. -/
theorem bind_trivial [IsTrans σ R] {next : α → StateT σ (Except ε) β}
    (first : Yields R (fun _ _ => True) c) (second : ∀ a, Yields R (fun _ _ => True) (next a)) :
    Yields R (fun _ _ => True) (c >>= next) :=
  first.bind (fun _ _ _ _ _ => trivial) fun a => (second a).weaken fun _ _ _ _ => trivial

/-- A loop whose result is good only if every round was: a good result has the facts of
all rounds. -/
theorem foldlM [IsPreorder σ R] {ι : Type} {items : List ι} {P : ι → σ → Prop} (good : α → Prop)
    {step : α → ι → StateT σ (Except ε) α} (init : α)
    (round : ∀ acc, ∀ item ∈ items,
      Yields R (fun acc' s => good acc' → good acc ∧ P item s) (step acc item))
    (stable : ∀ item ∈ items, Stable R (P item)) :
    Yields R (fun acc s => good acc → good init ∧ ∀ item ∈ items, P item s)
      (items.foldlM step init) := by
  induction items generalizing init with
  | nil => exact Yields.pure fun _ fine => ⟨fine, fun _ absent => absurd absent List.not_mem_nil⟩
  | cons item rest ih =>
    rw [List.foldlM_cons]
    have later (acc : α) := ih acc (fun acc other member => round acc other (.tail _ member))
      fun other member => stable other (.tail _ member)
    refine (round init item (.head _)).bind (fun acc s s' moved known fine => ?_) fun acc => ?_
    · exact ⟨(known fine).1, stable item (.head _) s s' moved (known fine).2⟩
    · refine (later acc).weaken fun acc' s known first fine => ?_
      obtain ⟨fineHere, others⟩ := known fine
      obtain ⟨fineBefore, here⟩ := first fineHere
      refine ⟨fineBefore, fun other member => ?_⟩
      obtain rfl | member := List.mem_cons.mp member
      · exact here
      · exact others other member

theorem foldlM_trivial [IsPreorder σ R] {ι : Type} {items : List ι}
    {step : α → ι → StateT σ (Except ε) α} (init : α)
    (round : ∀ acc, ∀ item ∈ items, Yields R (fun _ _ => True) (step acc item)) :
    Yields R (fun _ _ => True) (items.foldlM step init) :=
  (foldlM (P := fun _ _ => True) (fun _ => True) init
    (fun acc item member => (round acc item member).weaken fun _ _ _ _ => ⟨trivial, trivial⟩)
    fun _ _ _ _ _ _ => trivial).weaken fun _ _ _ => trivial

/-- Only the answer is changed. -/
theorem map (yields : Yields R Q c) (f : α → β) :
    Yields R (fun b s => ∃ a, f a = b ∧ Q a s) (do return f (← c)) := by
  intro s b s' ran
  obtain ⟨a, mid, called, returned⟩ := bind_apply_eq_ok_iff.mp ran
  cases returned
  obtain ⟨moved, holds⟩ := yields s a s' called
  exact ⟨moved, a, rfl, holds⟩

/-- A check that fails ends the run. -/
theorem liftM_bind {check : Except ε β} {next : β → StateT σ (Except ε) α}
    (each : ∀ b, check = .ok b → Yields R Q (next b)) :
    Yields R Q ((liftM check : StateT σ (Except ε) β) >>= next) := by
  cases passed : check with
  | error e =>
    rintro s a s' ran
    cases ran
  | ok b =>
    rw [liftM_bind_eq rfl]
    exact each b passed

/-- Commands that run one after the other: at the end, each has the fact about its own
answer. -/
theorem mapM [IsPreorder σ R] {ι : Type} {commands : List ι} {Q : ι → α → σ → Prop}
    {exec : ι → StateT σ (Except ε) α}
    (each : ∀ command ∈ commands, Yields R (Q command) (exec command))
    (stable : ∀ command ∈ commands, ∀ a, Stable R (Q command a)) :
    Yields R (fun answers s => ∀ entry ∈ commands.zip answers, Q entry.1 entry.2 s)
      (commands.mapM exec) := by
  induction commands with
  | nil => exact Yields.pure fun _ _ absent => absurd absent List.not_mem_nil
  | cons command rest ih =>
    rw [List.mapM_cons]
    have later := ih (fun other member => each other (.tail _ member))
      fun other member => stable other (.tail _ member)
    refine (each command (.head _)).bind (stable command (.head _)) fun a => ?_
    refine later.bind (fun answers s s' moved known entry member => ?_) fun answers => ?_
    · exact stable _ (.tail _ (List.of_mem_zip member).1) _ s s' moved (known entry member)
    · refine .pure fun s known first entry member => ?_
      obtain rfl | member := List.mem_cons.mp member
      · exact first
      · exact known entry member

end Yields

/-! ## Computations that keep a log -/

/-- The computation returns the value, and adds the entries to the log. -/
def Logs {κ : Type} (c : StateT (List κ) (Except ε) α) (value : α) (entries : List κ) : Prop :=
  ∀ log, c log = .ok (value, log ++ entries)

namespace Logs

variable {κ ι : Type} {c : StateT (List κ) (Except ε) α} {value : α} {entries : List κ}

theorem pure : Logs (Pure.pure value : StateT (List κ) (Except ε) α) value [] := by
  intro log
  rw [List.append_nil]
  rfl

theorem bind {next : α → StateT (List κ) (Except ε) β} {result : β} {later : List κ}
    (first : Logs c value entries) (second : Logs (next value) result later) :
    Logs (c >>= next) result (entries ++ later) := by
  intro log
  refine bind_apply_eq_ok_iff.mpr ⟨value, log ++ entries, first log, ?_⟩
  rw [second, List.append_assoc]

/-- Only the answer is changed. -/
theorem bind_pure {next : α → StateT (List κ) (Except ε) β} {result : β}
    (first : Logs c value entries) (second : next value = Pure.pure result) :
    Logs (c >>= next) result entries := by
  have both := first.bind (second ▸ pure : Logs (next value) result [])
  rwa [List.append_nil] at both

theorem mapM {f : ι → StateT (List κ) (Except ε) α} {value : ι → α} {entry : ι → κ}
    (each : ∀ item, Logs (f item) (value item) [entry item]) (items : List ι) :
    Logs (items.mapM f) (items.map value) (items.map entry) := by
  induction items with
  | nil => exact pure
  | cons item rest ih =>
    rw [List.mapM_cons]
    exact (each item).bind (ih.bind_pure rfl)

theorem foldlM {step : α → ι → StateT (List κ) (Except ε) α} (step' : α → ι → α) {entry : ι → κ}
    (each : ∀ acc item, Logs (step acc item) (step' acc item) [entry item]) (items : List ι)
    (init : α) : Logs (items.foldlM step init) (items.foldl step' init) (items.map entry) := by
  induction items generalizing init with
  | nil => exact pure
  | cons item rest ih =>
    rw [List.foldlM_cons]
    exact (each init item).bind (ih _)

end Logs

/-- Commands that leave the state alone can be left out of a run: the others get the same
answers, and the run ends in the same state. -/
theorem mapM_filter_of_unchanged {ι : Type} {commands : List ι}
    {exec : ι → StateT σ (Except ε) α} {matters : ι → Bool}
    (unchanged : ∀ command ∈ commands, matters command = false →
      Yields Eq (fun _ _ => True) (exec command))
    {s s' : σ} {answers : List α} (ran : commands.mapM exec s = .ok (answers, s')) :
    (commands.filter matters).mapM exec s =
      .ok (((commands.zip answers).filter fun entry => matters entry.1).map Prod.snd, s') := by
  induction commands generalizing s answers with
  | nil =>
    cases ran
    rfl
  | cons command rest ih =>
    rw [List.mapM_cons] at ran
    obtain ⟨a, mid, first, ran⟩ := bind_apply_eq_ok_iff.mp ran
    obtain ⟨others, s'', later, ran⟩ := bind_apply_eq_ok_iff.mp ran
    cases ran
    have kept := ih (fun other member => unchanged other (.tail _ member)) later
    rw [List.zip_cons_cons]
    cases here : matters command with
    | true =>
      simp only [List.filter_cons, here, if_true, List.map_cons, List.mapM_cons]
      exact bind_apply_eq_ok_iff.mpr ⟨a, mid, first, bind_apply_eq_ok_iff.mpr ⟨_, _, kept, rfl⟩⟩
    | false =>
      obtain ⟨rfl, -⟩ := unchanged command (.head _) here s a mid first
      simp only [List.filter_cons, here, Bool.false_eq_true, if_false]
      exact kept

/-! ## A state with parts -/

section Parts

variable {ι τ : Type}

/-- Run a computation on one part of the state. -/
def focus [DecidableEq ι] (i : ι) (c : StateT τ (Except ε) α) : StateT (ι → τ) (Except ε) α :=
  fun s => do
    let (a, part) ← c (s i)
    return (a, Function.update s i part)

/-- The relation holds part by part. -/
def Everywhere (R : τ → τ → Prop) (s s' : ι → τ) : Prop := ∀ i, R (s i) (s' i)

instance {R : τ → τ → Prop} [IsPreorder τ R] : IsPreorder (ι → τ) (Everywhere R) where
  refl := fun s i => refl_of R (s i)
  trans := fun _ _ _ first second i => trans_of R (first i) (second i)

theorem Stable.at_part {R : τ → τ → Prop} {P : τ → Prop} (stable : Stable R P) (i : ι) :
    Stable (Everywhere R) fun s => P (s i) :=
  fun s s' moved => stable (s i) (s' i) (moved i)

/-- What a computation leads to at its part. Only some parts need the invariant. -/
theorem Leads.focus [DecidableEq ι] {I P : τ → Prop} {R : τ → τ → Prop} [IsPreorder τ R]
    {parts : ι → Prop} {c : StateT τ (Except ε) α} (leads : Leads I R P c) {i : ι}
    (here : parts i) :
    Leads (fun s : ι → τ => ∀ j, parts j → I (s j)) (Everywhere R) (fun s => P (s i))
      (Math.focus i c) := by
  intro s a s' inv ran
  obtain ⟨⟨a', part⟩, called, returned⟩ := bind_eq_ok_iff.mp ran
  cases returned
  obtain ⟨kept, moved, holds⟩ := leads (s i) _ part (inv i here) called
  refine ⟨fun j member => ?_, fun j => ?_, ?_⟩
  · by_cases same : j = i
    · subst same
      rwa [Function.update_self]
    · rw [Function.update_of_ne same]
      exact inv j member
  · by_cases same : j = i
    · subst same
      rwa [Function.update_self]
    · rw [Function.update_of_ne same]
      exact refl_of R (s j)
  · dsimp only
    rwa [Function.update_self]

theorem Yields.focus [DecidableEq ι] {R : τ → τ → Prop} [IsPreorder τ R] {Q : α → τ → Prop}
    {c : StateT τ (Except ε) α} (yields : Yields R Q c) (i : ι) :
    Yields (Everywhere R) (fun a (s : ι → τ) => Q a (s i)) (Math.focus i c) := by
  intro s a s' ran
  obtain ⟨⟨a', part⟩, called, returned⟩ := bind_eq_ok_iff.mp ran
  cases returned
  obtain ⟨moved, holds⟩ := yields (s i) _ part called
  refine ⟨fun j => ?_, ?_⟩
  · by_cases same : j = i
    · subst same
      rwa [Function.update_self]
    · rw [Function.update_of_ne same]
      exact refl_of R (s j)
  · dsimp only
    rwa [Function.update_self]

end Parts

end Bob.Math

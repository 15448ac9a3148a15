/-
# Sequenced checks in an exception monad

A validation routine is a sequence of checks that stops at the first failure.
It succeeds exactly when every check succeeds, whether the checks are written
one after the other, looped over a list, or mapped over one. These equivalences
turn the success of such a routine into a conjunction.
-/

import Mathlib.Data.List.Forall2

namespace Bob.Math

universe u

variable {ε ε' : Type*} {α β : Type u}

/-- A single check: succeed when the condition holds, else fail with `message`. -/
def ensure (condition : Bool) (message : ε) : Except ε Unit :=
  if condition then .ok () else .error message

@[simp] theorem ensure_eq_ok_iff {condition : Bool} {message : ε} :
    ensure condition message = .ok () ↔ condition = true := by
  cases condition <;> simp [ensure]

theorem bind_eq_ok_iff {first : Except ε α} {next : α → Except ε β} {value : β} :
    (first >>= next) = .ok value ↔ ∃ a, first = .ok a ∧ next a = .ok value := by
  cases first with
  | error e =>
    constructor
    · intro failed
      cases failed
    · rintro ⟨a, failed, _⟩
      cases failed
  | ok a =>
    constructor
    · exact fun done => ⟨a, rfl, done⟩
    · rintro ⟨a', same, done⟩
      cases same
      exact done

/-- A value is that of a computation that succeeds. -/
theorem eq_ok_of_toOption {computed : Except ε α} {value : α}
    (found : computed.toOption = some value) : computed = .ok value := by
  cases computed with
  | error e => cases found
  | ok other => exact congrArg _ (Option.some.inj found)

theorem not_exists_error_eq_ok {e : ε} : ¬ ∃ value, (.error e : Except ε α) = .ok value := by
  rintro ⟨value, wrong⟩
  cases wrong

/-- A computation followed by one that always succeeds succeeds when the first does. -/
theorem exists_bind_eq_ok_iff {first : Except ε α} {next : α → Except ε β}
    (total : ∀ a, ∃ value, next a = .ok value) :
    (∃ value, (first >>= next) = .ok value) ↔ ∃ a, first = .ok a := by
  constructor
  · rintro ⟨value, done⟩
    obtain ⟨a, ha, -⟩ := bind_eq_ok_iff.mp done
    exact ⟨a, ha⟩
  · rintro ⟨a, ha⟩
    obtain ⟨value, hvalue⟩ := total a
    exact ⟨value, bind_eq_ok_iff.mpr ⟨a, ha, hvalue⟩⟩

/-- Two unit checks in a row succeed when both do. -/
theorem seq_eq_ok_iff {first : Except ε Unit} {second : Unit → Except ε Unit} :
    (first >>= second) = .ok () ↔ first = .ok () ∧ second () = .ok () := by
  rw [bind_eq_ok_iff]
  exact ⟨fun ⟨_, hfirst, hsecond⟩ => ⟨hfirst, hsecond⟩, fun h => ⟨(), h⟩⟩

@[simp] theorem mapError_eq_ok_iff {check : Except ε α} {f : ε → ε'} {value : α} :
    check.mapError f = .ok value ↔ check = .ok value := by
  cases check <;> simp [Except.mapError]

/-- A loop of checks succeeds when every iteration does. -/
theorem forM_eq_ok_iff {check : α → Except ε PUnit} {items : List α} :
    forM items check = .ok ⟨⟩ ↔ ∀ item ∈ items, check item = .ok ⟨⟩ := by
  induction items with
  | nil => simp [pure, Except.pure]
  | cons item rest ih =>
    rw [List.forM_cons, bind_eq_ok_iff]
    constructor
    · rintro ⟨_, hitem, hrest⟩ other hother
      rcases List.mem_cons.mp hother with rfl | hmem
      · exact hitem
      · exact ih.mp hrest other hmem
    · intro hall
      exact ⟨⟨⟩, hall item (by simp), ih.mpr fun other hmem => hall other (by simp [hmem])⟩

/-- A fallible map succeeds with `results` when it does so at every position. -/
theorem mapM_eq_ok_iff {f : α → Except ε β} {items : List α} {results : List β} :
    items.mapM f = .ok results ↔ List.Forall₂ (fun a b => f a = .ok b) items results := by
  induction items generalizing results with
  | nil =>
    rw [List.mapM_nil, List.forall₂_nil_left_iff]
    exact ⟨fun done => (Except.ok.inj done).symm, fun empty => congrArg _ empty.symm⟩
  | cons item rest ih =>
    rw [List.mapM_cons, bind_eq_ok_iff]
    constructor
    · rintro ⟨value, hvalue, hrest⟩
      obtain ⟨values, hvalues, hpure⟩ := bind_eq_ok_iff.mp hrest
      cases hpure
      exact .cons hvalue (ih.mp hvalues)
    · intro hall
      cases hall with
      | cons hvalue hrest =>
        exact ⟨_, hvalue, bind_eq_ok_iff.mpr ⟨_, ih.mpr hrest, rfl⟩⟩

/-- A loop whose turns are plain steps behind a check of the item. -/
theorem foldlM_eq_ok_iff {step : β → α → Except ε β} {next : β → α → β} {guard : α → Prop}
    (turn : ∀ acc item result, step acc item = .ok result ↔ guard item ∧ next acc item = result)
    {items : List α} {acc result : β} :
    items.foldlM step acc = .ok result ↔
      (∀ item ∈ items, guard item) ∧ items.foldl next acc = result := by
  induction items generalizing acc with
  | nil => simp [pure, Except.pure]
  | cons item items ih =>
    simp only [List.foldlM_cons, bind_eq_ok_iff, turn, ih, List.forall_mem_cons, List.foldl_cons]
    constructor
    · rintro ⟨_, ⟨first, rfl⟩, rest, rfl⟩
      exact ⟨⟨first, rest⟩, rfl⟩
    · rintro ⟨⟨first, rest⟩, rfl⟩
      exact ⟨_, ⟨first, rfl⟩, rest, rfl⟩

/-- A loop succeeds if its turns do, from any value that the turns before can leave. -/
theorem exists_foldlM_eq_ok {step : β → α → Except ε β} {I : β → Prop} {items : List α}
    (turn : ∀ item ∈ items, ∀ acc, I acc → ∃ next, step acc item = .ok next ∧ I next) {acc : β}
    (start : I acc) : ∃ result, items.foldlM step acc = .ok result := by
  induction items generalizing acc with
  | nil => exact ⟨acc, rfl⟩
  | cons item items ih =>
    obtain ⟨next, done, kept⟩ := turn item List.mem_cons_self acc start
    obtain ⟨result, rest⟩ :=
      ih (fun other member => turn other (List.mem_cons_of_mem _ member)) kept
    refine ⟨result, ?_⟩
    rw [List.foldlM_cons, bind_eq_ok_iff]
    exact ⟨next, done, rest⟩

/-- Every turn of a loop that succeeded did. -/
theorem exists_turn_eq_ok {step : β → α → Except ε β} {items : List α} {acc result : β}
    (done : items.foldlM step acc = .ok result) {item : α} (member : item ∈ items) :
    ∃ before after, step before item = .ok after := by
  induction items generalizing acc with
  | nil => cases member
  | cons first items ih =>
    rw [List.foldlM_cons] at done
    obtain ⟨next, now, later⟩ := bind_eq_ok_iff.mp done
    rcases List.mem_cons.mp member with rfl | rest
    · exact ⟨acc, next, now⟩
    · exact ih later rest

theorem mapM_congr {f g : α → Except ε β} {items : List α}
    (agree : ∀ item ∈ items, f item = g item) : items.mapM f = items.mapM g := by
  induction items with
  | nil => rfl
  | cons item rest ih =>
    rw [List.mapM_cons, List.mapM_cons, agree item List.mem_cons_self,
      ih fun other member => agree other (List.mem_cons_of_mem _ member)]

/-- A fallible map over a list succeeds when it succeeds at every element. -/
theorem exists_mapM_eq_ok {f : α → Except ε β} {items : List α}
    (succeeds : ∀ item ∈ items, ∃ value, f item = .ok value) :
    ∃ results, items.mapM f = .ok results := by
  induction items with
  | nil => exact ⟨[], rfl⟩
  | cons item rest ih =>
    obtain ⟨value, hvalue⟩ := succeeds item (by simp)
    obtain ⟨values, hvalues⟩ := ih fun other hmem => succeeds other (by simp [hmem])
    refine ⟨value :: values, mapM_eq_ok_iff.mpr (.cons hvalue ?_)⟩
    exact mapM_eq_ok_iff.mp hvalues

/-- A guarded map succeeds when the guard holds everywhere; it is then the plain map. -/
theorem mapM_ite_eq_ok_iff {guard : α → Prop} [DecidablePred guard] {g : α → β} {message : ε}
    {items : List α} {results : List β} :
    (items.mapM fun a => if guard a then Except.ok (g a) else .error message) = .ok results ↔
      (∀ a ∈ items, guard a) ∧ results = items.map g := by
  rw [mapM_eq_ok_iff]
  have pointwise (a : α) (b : β) :
      ((if guard a then Except.ok (g a) else .error message) = .ok b) ↔ guard a ∧ g a = b := by
    by_cases holds : guard a <;> simp [holds]
  simp only [pointwise, List.forall₂_and_left, ← List.forall₂_map_left_iff, List.forall₂_eq_eq_eq]
  exact and_congr_right' eq_comm

/-- In a mapped list, every result comes from some item. -/
theorem exists_mem_of_forall₂ {R : α → β → Prop} {items : List α} {results : List β}
    (related : List.Forall₂ R items results) {result : β} (member : result ∈ results) :
    ∃ item ∈ items, R item result := by
  induction related with
  | nil => cases member
  | cons first _ ih =>
    rcases List.mem_cons.mp member with rfl | later
    · exact ⟨_, List.mem_cons_self, first⟩
    · obtain ⟨item, hitem, h⟩ := ih later
      exact ⟨item, List.mem_cons_of_mem _ hitem, h⟩

/-- An entry is replaced by one that some function does not tell from it. -/
theorem map_set_of_eq {f : α → β} {items : List α} {index : ℕ} {old new : α}
    (here : items[index]? = some old) (same : f new = f old) :
    (items.set index new).map f = items.map f := by
  obtain ⟨inside, rfl⟩ := List.getElem?_eq_some_iff.mp here
  rw [List.map_set, same, ← List.getElem_map f, List.set_getElem_self]
  rwa [List.length_map]

/-- Replacing an item by a related one relates the lists. -/
theorem forall₂_set {R : α → α → Prop} (refl : ∀ item, R item item) {items : List α} {i : ℕ}
    {old new : α} (stored : items[i]? = some old) (related : R old new) :
    List.Forall₂ R items (items.set i new) := by
  induction items generalizing i with
  | nil => cases stored
  | cons first rest ih =>
    cases i with
    | zero =>
      cases stored
      exact .cons related (List.forall₂_same.mpr fun item _ => refl item)
    | succ i => exact .cons (refl first) (ih stored)

theorem forall₂_trans {R : α → α → Prop} (trans : ∀ a b c, R a b → R b c → R a c)
    {first second third : List α} (one : List.Forall₂ R first second)
    (two : List.Forall₂ R second third) : List.Forall₂ R first third := by
  induction one generalizing third with
  | nil =>
    cases two
    exact .nil
  | cons head _ ih =>
    cases two with
    | cons head' tail' => exact .cons (trans _ _ _ head head') (ih tail')

/-- A call that succeeds in a state, followed by what is to be done in the next one. -/
theorem bind_apply_eq {σ ε α β : Type} {first : StateT σ (Except ε) α}
    {next : α → StateT σ (Except ε) β} {s s' : σ} {a : α} {result : Except ε (β × σ)}
    (called : first s = .ok (a, s')) (rest : next a s' = result) : (first >>= next) s = result := by
  change (first s >>= fun value => next value.1 value.2) = result
  rw [called]
  exact rest

end Bob.Math

/-
# Requests over a store that answers by what it has

The backend turns a read or an existence check into many questions to its store. Here the
store is any that answers each question by what it has for the operation, in a state that
asking does not change. A check then reports each key that some operation of the key has,
wherever the key stands in the request and however often. A read finds data if a disk that
it asks has the key or, if it asks there, the alien store.
-/

import Bob.Math.Filing
import Bob.Backend.Core

namespace Bob.Backend

open Bob.Math

variable {keySize : ℕ} {σ : Type}

/-! ## What a store answers -/

/-- A store answers for a list of keys as for each of them, or it fails and has none. -/
def AnswersFor (keys : List (BobKey keySize)) (has : BobKey keySize → Bool)
    (answer : Except (Error keySize) (List Bool)) : Prop :=
  answer = .ok (keys.map has) ∨ (∃ e, answer = .error e) ∧ ∀ key, has key = false

theorem answersFor_error {keys : List (BobKey keySize)} {e : Error keySize} :
    AnswersFor keys (fun _ => false) (.error e) := Or.inr ⟨⟨e, rfl⟩, fun _ => rfl⟩

/-- A read through an operation finds data if the operation has the key. -/
def ReadsBy (inner : BackendStorage (StateT σ (Except Panic)) keySize) (s : σ) (op : Operation)
    (key : BobKey keySize) (has : Prop) : Prop :=
  ∃ answer, getSingle inner key op s = .ok (answer, s) ∧ (answer.toOption.isSome = true ↔ has)

/-- Checks answer by what the operation has. -/
def ChecksBy (inner : BackendStorage (StateT σ (Except Panic)) keySize) (s : σ)
    (has : Operation → BobKey keySize → Bool) : Prop :=
  ∀ op keys, ∃ answer,
    (if op.isDataAlien then inner.existAlien op keys else inner.exist op keys) s =
      .ok (answer, s) ∧ AnswersFor keys (has op) answer

/-- The store of a node answers checks of both stores, and reads of the normal one, by what
the operation has. How it reads alien data is left open. -/
structure Truthful (inner : BackendStorage (StateT σ (Except Panic)) keySize) (s : σ)
    (has : Operation → BobKey keySize → Bool) : Prop where
  checks : ChecksBy inner s has
  reads : ∀ vdiskId path key, ReadsBy inner s (.newLocal vdiskId path) key
    (has (.newLocal vdiskId path) key = true)

/-! ## Sorting keys by operation -/

section Grouping

variable {keys : List (BobKey keySize)} {groups : KeysByOperations keySize}
  {key : BobKey keySize} {ind : ℕ}

private theorem pushed_fileKey (op : Operation) :
    ∃ group, fileKey key ind groups op = groups.insert op group ∧
      id group = pushItem key ind ((groups.lookup op).map id) := by
  refine ⟨_, rfl, ?_⟩
  cases groups.lookup op <;> rfl

private theorem foldl_fileKey (aligned : Aligned id keys groups) (here : keys[ind]? = some key)
    (operations : List Operation) :
    Aligned id keys (operations.foldl (fileKey key ind) groups) ∧
      ∀ op i, FiledUnder id (operations.foldl (fileKey key ind) groups) op i ↔
        FiledUnder id groups op i ∨ op ∈ operations ∧ i = ind := by
  induction operations generalizing groups with
  | nil => simp [aligned]
  | cons op rest ih =>
    obtain ⟨group, entered, pushed⟩ := @pushed_fileKey _ groups key ind op
    obtain ⟨aligned', filed⟩ := ih (entered ▸ aligned.insert here pushed)
    refine ⟨aligned', fun op' i => ?_⟩
    rw [List.foldl_cons, filed, entered, filedUnder_insert pushed, List.mem_cons, or_assoc,
      or_and_right]

/-- Sorting succeeds if all keys can be routed. Each position is then entered under the
operations of its key. -/
private theorem exists_groupKeysByOperations {mapper : Virtual} {options : BobGetOptions}
    {operations : BobKey keySize → List Operation}
    (routed : ∀ key, findOperations mapper key options = .ok (operations key)) :
    ∃ groups, groupKeysByOperations mapper keys options = .ok groups ∧ Aligned id keys groups ∧
      ∀ op i, FiledUnder id groups op i ↔ ∃ key, keys[i]? = some key ∧ op ∈ operations key := by
  refine exists_foldlM_filed aligned_empty fun groups key ind aligned here => ?_
  obtain ⟨aligned', filed⟩ := foldl_fileKey aligned here (operations key)
  exact ⟨_, bind_eq_ok_iff.mpr ⟨_, routed key, rfl⟩, aligned', filed⟩

end Grouping

/-! ## Existence checks -/

section Checks

variable {inner : BackendStorage (StateT σ (Except Panic)) keySize} {s : σ}
  {has : Operation → BobKey keySize → Bool} {keys : List (BobKey keySize)} {mapper : Virtual}
  {options : BobGetOptions}

/-- One round of the loop over the operations. -/
private theorem existByOperation_flags (checks : ChecksBy inner s has) {n : ℕ} {flag : ℕ → Bool}
    {entry : Sigma fun _ : Operation => List (BobKey keySize) × List ℕ}
    (aligned : entry.2.2.map (keys[·]?) = entry.2.1.map some) :
    existByOperation inner (flags n flag) entry s =
      .ok (flags n fun i =>
        flag i || (decide (i ∈ entry.2.2) && keys[i]?.any (has entry.1)), s) := by
  obtain ⟨op, filed, indexes⟩ := entry
  obtain ⟨answer, asked, answers⟩ := checks op filed
  unfold existByOperation
  apply bind_apply_eq asked
  rcases answers with rfl | ⟨⟨e, rfl⟩, none⟩
  · exact congrArg (fun result => Except.ok (result, s)) (scatterOr_of_aligned aligned)
  · -- A store that fails writes nothing back, and it has none of the keys.
    refine congrArg (fun result => Except.ok (result, s)) (flags_congr fun i _ => ?_)
    have missing : keys[i]?.any (has op) = false := by
      cases keys[i]? <;> simp [none]
    rw [missing, Bool.and_false, Bool.or_false]

private theorem foldlM_existByOperation (checks : ChecksBy inner s has) {n : ℕ} {flag : ℕ → Bool}
    {entries : List (Sigma fun _ : Operation => List (BobKey keySize) × List ℕ)}
    (aligned : ∀ entry ∈ entries, entry.2.2.map (keys[·]?) = entry.2.1.map some) :
    entries.foldlM (existByOperation inner) (flags n flag) s =
      .ok (flags n fun i => flag i || entries.any fun entry =>
        decide (i ∈ entry.2.2) && keys[i]?.any (has entry.1), s) := by
  induction entries generalizing flag with
  | nil =>
    simp only [List.any_nil, Bool.or_false]
    rfl
  | cons entry rest ih =>
    rw [List.foldlM_cons]
    apply bind_apply_eq (existByOperation_flags checks (aligned entry List.mem_cons_self))
    refine (ih fun other member => aligned other (List.mem_cons_of_mem _ member)).trans ?_
    simp only [List.any_cons, Bool.or_assoc]

/-- A key is reported if one of its operations has it. -/
theorem exist_eq (checks : ChecksBy inner s has)
    {order : AnyOrder (Sigma fun _ : Operation => List (BobKey keySize) × List ℕ)}
    {operations : BobKey keySize → List Operation}
    (routed : ∀ key, findOperations mapper key options = .ok (operations key)) :
    Backend.exist inner mapper order keys options s =
      .ok (.ok (keys.map fun key => (operations key).any fun op => has op key), s) := by
  obtain ⟨groups, sorted, aligned, filed⟩ :=
    @exists_groupKeysByOperations _ keys mapper options operations routed
  have aligned' : ∀ entry ∈ order.arrange groups.entries,
      entry.2.2.map (keys[·]?) = entry.2.1.map some := by
    rintro ⟨op, group⟩ member
    exact aligned op group (Dict.mem_entries_iff.mp (AnyOrder.mem_arrange.mp member))
  have asked : (order.arrange groups.entries).foldlM (existByOperation inner)
      (flags keys.length fun _ => false) s = _ := foldlM_existByOperation checks aligned'
  rw [flags_false] at asked
  have lifted : (liftM (groupKeysByOperations mapper keys options) :
      StateT σ (Except Panic) (KeysByOperations keySize)) s = .ok (groups, s) :=
    bind_eq_ok_iff.mpr ⟨groups, sorted, rfl⟩
  refine (bind_apply_eq lifted (bind_apply_eq asked rfl)).trans ?_
  refine congrArg (fun found => Except.ok (Except.ok found, s)) ?_
  refine flags_eq_map fun i key here => ?_
  rw [Bool.false_or, AnyOrder.any_arrange, Bool.eq_iff_iff, List.any_eq_true, List.any_eq_true]
  simp only [Bool.and_eq_true, decide_eq_true_eq, here, Option.any_some]
  constructor
  · rintro ⟨⟨op, group⟩, member, listed, reported⟩
    obtain ⟨key', here', mine⟩ :=
      (filed op i).mp ⟨group, Dict.mem_entries_iff.mp member, listed⟩
    cases here.symm.trans here'
    exact ⟨op, mine, reported⟩
  · rintro ⟨op, mine, reported⟩
    obtain ⟨group, found, listed⟩ := (filed op i).mpr ⟨key, here, mine⟩
    exact ⟨⟨op, group⟩, Dict.mem_entries_iff.mpr found, listed, reported⟩

/-- The operations of a key are those for its disks here and the one for aliens, as far as
the request asks for them. -/
theorem exists_mem_operations_iff {key : BobKey keySize} {vdiskId : VDiskId}
    {paths : Option (List DiskPath)} {operations : List Operation} {P : Operation → Prop}
    (route : mapper.getOperation key = .ok (vdiskId, paths))
    (listed : findOperations mapper key options = .ok operations) :
    (∃ op ∈ operations, P op) ↔
      options.getNormal = true ∧ (∃ path ∈ paths.getD [], P (.newLocal vdiskId path)) ∨
      options.getAlien = true ∧ P (.newAlien vdiskId) := by
  have listed' : operations =
      (if options.getNormal then (paths.getD []).map (.newLocal vdiskId) else []) ++
        if options.getAlien then [.newAlien vdiskId] else [] := by
    rw [findOperations, route] at listed
    exact (Except.ok.inj listed).symm
  rw [listed']
  simp only [List.mem_append, or_and_right, exists_or]
  refine or_congr ?_ ?_
  · cases options.getNormal <;> simp
  · cases options.getAlien <;> simp

end Checks

/-! ## Reads -/

section Reads

variable {inner : BackendStorage (StateT σ (Except Panic)) keySize} {s : σ} {mapper : Virtual}
  {options : BobGetOptions} {key : BobKey keySize} {vdiskId : VDiskId} {onDisk : DiskPath → Prop}

/-- A read of the disks finds a value if one of them has it. -/
private theorem getFromPaths_spec
    (reads : ∀ path, ReadsBy inner s (.newLocal vdiskId path) key (onDisk path))
    (error : Option (Error keySize)) (paths : List DiskPath) :
    ∃ res, getFromPaths inner key vdiskId error paths s = .ok (res, s) ∧
      (res.toOption.isSome = true ↔ ∃ path ∈ paths, onDisk path) := by
  induction paths generalizing error with
  | nil => exact ⟨.error error, rfl, by simp [Except.toOption]⟩
  | cons path rest ih =>
    obtain ⟨answer, asked, found⟩ := reads path
    rw [getFromPaths]
    cases answer with
    | ok data =>
      refine ⟨.ok data, bind_apply_eq asked rfl, ?_⟩
      have here : onDisk path := found.mp rfl
      simp [here, Except.toOption]
    | error e =>
      obtain ⟨res, later, found'⟩ := ih (some e)
      refine ⟨res, bind_apply_eq asked later, ?_⟩
      have missing : ¬ onDisk path := fun here => by
        simpa [Except.toOption] using found.mpr here
      simp [found', missing]

/-- A read finds a value on a disk or, if it may look there, in the alien store. -/
theorem get_finds_iff {inAlien : Prop} {paths : Option (List DiskPath)}
    (route : mapper.getOperation key = .ok (vdiskId, paths))
    (reads : ∀ path, ReadsBy inner s (.newLocal vdiskId path) key (onDisk path))
    (alien : options.getAlien = true → ReadsBy inner s (.newAlien vdiskId) key inAlien) :
    ∃ res, Backend.get inner mapper key options s = .ok (res, s) ∧
      (res.toOption.isSome = true ↔
        options.getNormal = true ∧ (∃ path ∈ paths.getD [], onDisk path) ∨
        options.getAlien = true ∧ inAlien) := by
  have routed : (liftM (mapper.getOperation key) :
      StateT σ (Except Panic) (VDiskId × Option (List DiskPath))) s =
        .ok ((vdiskId, paths), s) := bind_eq_ok_iff.mpr ⟨_, route, rfl⟩
  obtain ⟨res, asked, found⟩ := getFromPaths_spec reads none (paths.getD [])
  obtain ⟨forceNode, source⟩ := options
  cases source with
  | all =>
    -- The alien store is asked only if no disk has the key.
    cases res with
    | ok data =>
      refine ⟨.ok data, bind_apply_eq routed (bind_apply_eq asked rfl), ?_⟩
      have here := found.mp rfl
      simp only [here, BobGetOptions.getNormal, Except.toOption]
      simp
    | error e =>
      obtain ⟨answer, askedAlien, foundAlien⟩ := alien rfl
      refine ⟨answer, bind_apply_eq routed (bind_apply_eq asked askedAlien), ?_⟩
      have missing : ¬ ∃ path ∈ paths.getD [], onDisk path := fun here => by
        simpa [Except.toOption] using found.mpr here
      simp only [foundAlien, missing, BobGetOptions.getAlien]
      simp
  | normal =>
    cases paths with
    -- a normal read on a node without a replica fails with an internal error
    | none =>
      refine ⟨.error .internal, bind_apply_eq routed rfl, ?_⟩
      simp [BobGetOptions.getAlien, Except.toOption]
    | some paths =>
      cases res with
      | ok data =>
        refine ⟨.ok data, bind_apply_eq routed (bind_apply_eq asked rfl), ?_⟩
        have here := found.mp rfl
        simp only [here, BobGetOptions.getNormal, Except.toOption]
        simp
      | error e =>
        refine ⟨.error (e.getD (.keyNotFound key)),
          bind_apply_eq routed (bind_apply_eq asked rfl), ?_⟩
        have missing : ¬ ∃ path ∈ (some paths).getD [], onDisk path := fun here => by
          simpa [Except.toOption] using found.mpr here
        simp only [missing, BobGetOptions.getAlien, Except.toOption]
        simp
  | alien =>
    obtain ⟨answer, askedAlien, foundAlien⟩ := alien rfl
    refine ⟨answer, bind_apply_eq routed askedAlien, ?_⟩
    simp [foundAlien, BobGetOptions.getNormal, BobGetOptions.getAlien]

end Reads

end Bob.Backend

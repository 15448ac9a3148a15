/-
# Copies on a node

The stores of a node are extended by whatever the node is asked. A put that answers
without an error leaves a copy where a later read looks for it: on the disk that it names
or, if it names none or could not write to it, in the alien store. If all records of a key
are of one value, a node with a copy answers a read with it.
-/

import Bob.Backend.Erasing
import Bob.Backend.Records

namespace Bob.Backend

open Bob.Configs Bob.Math

variable {keySize : ℕ} {engine : StorageEngine keySize} {lawful : engine.Lawful}
  {allowed : BobKey keySize → Record → Prop} {key : BobKey keySize} {data : BobData}
  {bobMeta : BobMeta} {op : Operation} {makeDir : MakeDir}

namespace Pearl

variable {p p' : Pearl engine} {mapper : Virtual} {vdiskId : VDiskId}

/-- The node has the record in one of its stores. -/
def Holds (lawful : engine.Lawful) (p : Pearl engine) (key : BobKey keySize) (r : Record) : Prop :=
  ∃ g ∈ p.groups, g.Holds lawful key r

structure Extends (lawful : engine.Lawful) (allowed : BobKey keySize → Record → Prop)
    (p p' : Pearl engine) : Prop where
  diskControllers : List.Forall₂ (DiskController.Extends lawful allowed)
    p.diskControllers p'.diskControllers
  alien : p.alienDiskController.Extends lawful allowed p'.alienDiskController

theorem Extends.refl (p : Pearl engine) : p.Extends lawful allowed p :=
  ⟨List.forall₂_same.mpr fun dc _ => .refl dc, .refl _⟩

instance : IsPreorder (Pearl engine) (Extends lawful allowed) where
  refl := .refl
  trans := fun _ _ _ first second =>
    ⟨forall₂_trans (fun _ _ _ => .trans) first.diskControllers second.diskControllers,
      first.alien.trans second.alien⟩

/-- What a node holds after requests it held before, or it is allowed. -/
theorem Extends.added (step : p.Extends lawful allowed p') {r : Record}
    (held : p'.Holds lawful key r) : p.Holds lawful key r ∨ allowed key r := by
  have from_group {dc dc' : DiskController engine} (step : dc.Extends lawful allowed dc')
      {g : Group engine} (member : g ∈ dc'.groups) (here : g.Holds lawful key r) :
      (∃ old ∈ dc.groups, old.Holds lawful key r) ∨ allowed key r := by
    rcases step.groups.fresh_or_exists member with fresh | ⟨old, hold, step'⟩
    · exact Or.inr (fresh key r here)
    · exact (step'.added key r here).imp_left fun before => ⟨old, hold, before⟩
  obtain ⟨g, member, here⟩ := held
  -- the groups of a node are those of its disks and the alien ones
  rcases List.mem_append.mp member with onDisk | alien
  · obtain ⟨dc', served, listed⟩ := List.mem_flatMap.mp onDisk
    obtain ⟨dc, served', step'⟩ := exists_mem_of_forall₂ step.diskControllers served
    exact (from_group step' listed here).imp_left fun ⟨old, hold, before⟩ =>
      ⟨old, mem_groups_of_mem served' hold, before⟩
  · exact (from_group step.alien alien here).imp_left fun ⟨old, hold, before⟩ =>
      ⟨old, List.mem_append_right _ hold, before⟩

/-- The group on a disk that serves an operation has the value. -/
def StoresAt (lawful : engine.Lawful) (op : Operation) (key : BobKey keySize) (data : BobData)
    (p : Pearl engine) : Prop :=
  ∃ dc i, findController p.diskControllers op = some (dc, i) ∧ dc.StoresAt lawful op key data

theorem stable_storesAt : Stable (Extends lawful allowed) (StoresAt lawful op key data) := by
  rintro p p' step ⟨dc, i, found, stores⟩
  obtain ⟨dc', found', step'⟩ := (Extended.of_forall₂ step.diskControllers : Extended _
    (fun _ => False) _ _).exists_firstMatch (fun _ _ same => same.canProcessOperation_eq op) found
  exact ⟨dc', i, found', stores.of_extends step'⟩

/-- The alien store has the value, and it serves reads of the vdisk. -/
def StoresAlien (lawful : engine.Lawful) (vdiskId : VDiskId) (key : BobKey keySize)
    (data : BobData) (p : Pearl engine) : Prop :=
  p.alienDiskController.StoresAlien lawful vdiskId key data

theorem stable_storesAlien :
    Stable (Extends lawful allowed) (StoresAlien lawful vdiskId key data) :=
  fun _ _ step stores => DiskController.StoresAlien.of_extends stores step.alien

/-- A copy that a put was to leave is there: on the disk that it names or, if it names
none or could not write to it, in the alien store. -/
def Copied (lawful : engine.Lawful) (op : Operation) (key : BobKey keySize) (data : BobData)
    (p : Pearl engine) : Prop :=
  op.isDataAlien = false ∧ p.StoresAt lawful op key data ∨
    p.StoresAlien lawful op.vdiskId key data

theorem stable_copied : Stable (Extends lawful allowed) (Copied lawful op key data) := by
  rintro p p' step (⟨normal, stores⟩ | stores)
  · exact Or.inl ⟨normal, stable_storesAt p p' step stores⟩
  · exact Or.inr (stable_storesAlien p p' step stores)

/-! ### Requests to the stores -/

section Storage

variable (lawful) (makeDir)

theorem yields_put (allows : allowed key (.value data)) :
    Yields (Extends lawful allowed) (fun res p => res = .ok () → p.StoresAt lawful op key data)
      ((storage makeDir : BackendStorage (StateT (Pearl engine) (Except Panic)) keySize).put op key
        data) := by
  intro p res p' result
  change p.put op key data = .ok (res, p') at result
  unfold put at result
  split at result
  · rename_i dc i found
    obtain ⟨⟨answer, dc'⟩, hput, result⟩ := bind_eq_ok_iff.mp result
    cases result
    obtain ⟨stored, accepts, -⟩ := firstMatch_eq_some_iff.mp found
    obtain ⟨step, stores⟩ := DiskController.put_extends lawful allows hput
    refine ⟨⟨forall₂_set .refl stored step, .refl _⟩, fun ok => ⟨dc', i, ?_, stores ok⟩⟩
    exact firstMatch_set found ((step.canProcessOperation_eq op).trans accepts)
  · cases result
    exact ⟨.refl _, by rintro ⟨⟩⟩

theorem yields_putAlien (allows : allowed key (.value data)) :
    Yields (Extends lawful allowed)
      (fun res p => res = .ok () → p.StoresAlien lawful op.vdiskId key data)
      ((storage makeDir : BackendStorage (StateT (Pearl engine) (Except Panic)) keySize).putAlien op
        key data) := by
  intro p res p' result
  change p.putAlien makeDir op key data = .ok (res, p') at result
  obtain ⟨⟨answer, dc'⟩, hput, result⟩ := bind_eq_ok_iff.mp result
  cases result
  obtain ⟨step, stores⟩ := DiskController.putAlien_extends lawful allows hput
  exact ⟨⟨List.forall₂_same.mpr fun dc _ => .refl dc, step⟩, stores⟩

theorem yields_delete (allows : allowed key (.marker bobMeta.timestamp.toNat)) :
    Yields (Extends lawful allowed) (fun _ _ => True)
      ((storage makeDir : BackendStorage (StateT (Pearl engine) (Except Panic)) keySize).delete op
        key bobMeta) := by
  intro p res p' result
  change p.delete op key bobMeta = .ok (res, p') at result
  unfold delete at result
  split at result
  · rename_i dc i found
    obtain ⟨⟨answer, dc'⟩, deleted, result⟩ := bind_eq_ok_iff.mp result
    cases result
    have step := DiskController.delete_extends lawful allows deleted
    exact ⟨⟨forall₂_set .refl (firstMatch_eq_some_iff.mp found).1 step, .refl _⟩, trivial⟩
  · cases result
    exact ⟨.refl _, trivial⟩

theorem yields_deleteAlien (allows : allowed key (.marker bobMeta.timestamp.toNat))
    (forceDelete : Bool) : Yields (Extends lawful allowed) (fun _ _ => True)
      ((storage makeDir : BackendStorage (StateT (Pearl engine) (Except Panic)) keySize).deleteAlien
        op key bobMeta forceDelete) := by
  intro p res p' result
  change p.deleteAlien makeDir op key bobMeta forceDelete = .ok (res, p') at result
  unfold deleteAlien at result
  split_ifs at result with accepts
  · obtain ⟨⟨answer, dc'⟩, deleted, result⟩ := bind_eq_ok_iff.mp result
    cases result
    have step := DiskController.deleteAlien_extends lawful allows deleted
    exact ⟨⟨List.forall₂_same.mpr fun dc _ => .refl dc, step⟩, trivial⟩
  · cases result
    exact ⟨.refl _, trivial⟩

end Storage

/-! ### Requests to the backend -/

section Backend

variable (lawful) (makeDir) (mapper)

theorem yields_putSingle (allows : allowed key (.value data)) (op : Operation) :
    Yields (Extends lawful allowed) (fun res p => res = .ok () → p.Copied lawful op key data)
      (Backend.putSingle (storage makeDir) mapper key data op :
        StateT (Pearl engine) (Except Panic) _) := by
  unfold Backend.putSingle
  split_ifs with alien
  · exact (yields_putAlien lawful makeDir allows).weaken fun _ _ stores ok => Or.inr (stores ok)
  · refine (yields_put lawful makeDir allows).bind
      (fun _ => stable_storesAt.imp) fun answer => ?_
    cases answer with
    | ok => exact .pure fun p stores _ => Or.inl ⟨Bool.eq_false_iff.mpr alien, stores rfl⟩
    | error e =>
      dsimp only
      split_ifs
      · exact .pure fun p _ => by rintro ⟨⟩
      · -- the copy in the alien store carries the disk path, and it is of the same vdisk
        refine (yields_putAlien lawful makeDir allows).bind (fun _ => stable_storesAlien.imp)
          fun answer => ?_
        refine .pure fun p stores _ ok => Or.inr (stores ?_)
        cases answer with
        | ok => rfl
        | error e => cases ok

private theorem yields_putToPaths (allows : allowed key (.value data)) (paths : List DiskPath) :
    Yields (Extends lawful allowed)
      (fun res p => res = .ok () →
        ∀ path ∈ paths, p.Copied lawful (.newLocal vdiskId path) key data)
      (Backend.putToPaths (storage makeDir) mapper key data vdiskId paths :
        StateT (Pearl engine) (Except Panic) _) := by
  -- as long as the result is fine, all disks so far have their copy
  refine (Yields.foldlM (· = Except.ok ()) _ (fun result path _ => ?_)
    fun _ _ => stable_copied).weaken fun res p known ok => (known ok).2
  refine (yields_putSingle lawful makeDir mapper allows _).bind (fun _ => stable_copied.imp)
    fun answer => ?_
  cases answer with
  | ok => exact .pure fun p stores fine => ⟨fine, stores rfl⟩
  | error e => exact .pure fun p _ => by rintro ⟨⟩

/-- The loop ends with the first error, so its answer is that of all nodes. -/
private theorem yields_putToAliens (allows : allowed key (.value data)) (names : List NodeName) :
    Yields (Extends lawful allowed)
      (fun res p => res = .ok () → names ≠ [] → p.StoresAlien lawful vdiskId key data)
      (Backend.putToAliens (storage makeDir) mapper key data vdiskId names :
        StateT (Pearl engine) (Except Panic) _) := by
  induction names with
  | nil => exact .pure fun p _ empty => absurd rfl empty
  | cons name rest ih =>
    refine (yields_putSingle lawful makeDir mapper allows _).bind (fun _ => stable_copied.imp)
      fun answer => ?_
    cases answer with
    | ok =>
      refine ih.weaken fun res p _ stores ok _ => ?_
      -- an alien operation leaves no copy on a disk
      exact (stores rfl).resolve_left fun normal => Bool.noConfusion normal.1
    | error e => exact .pure fun p _ => by rintro ⟨⟩

/-- The copies that a put with these options leaves: one in the alien store, or one for
each disk of the node that has the vdisk of the key. -/
def KeepsPut (lawful : engine.Lawful) (mapper : Virtual) (key : BobKey keySize) (data : BobData)
    (options : BobPutOptions) (p : Pearl engine) : Prop :=
  ∃ vdiskId paths, mapper.getOperation key = .ok (vdiskId, paths) ∧
    if options.toAlien then p.StoresAlien lawful vdiskId key data
    else ∃ listed, paths = some listed ∧
      ∀ path ∈ listed, p.Copied lawful (.newLocal vdiskId path) key data

theorem stable_keepsPut {options : BobPutOptions} :
    Stable (Extends lawful allowed) (KeepsPut lawful mapper key data options) := by
  rintro p p' step ⟨vdiskId, paths, route, kept⟩
  refine ⟨vdiskId, paths, route, ?_⟩
  -- each kind of copy stays where it is
  split_ifs at kept ⊢
  · exact stable_storesAlien p p' step kept
  · obtain ⟨listed, some, copied⟩ := kept
    exact ⟨listed, some, fun path member => stable_copied p p' step (copied path member)⟩

theorem yields_put_backend (allows : allowed key (.value data)) (options : BobPutOptions) :
    Yields (Extends lawful allowed)
      (fun res p => res = .ok () → p.KeepsPut lawful mapper key data options)
      (Backend.put (storage makeDir) mapper key data options :
        StateT (Pearl engine) (Except Panic) _) := by
  unfold Backend.put
  refine .liftM_bind fun (vdiskId, diskPaths) route => ?_
  dsimp only
  split_ifs with alien
  · have some : options.remoteNodes ≠ [] := by simpa [BobPutOptions.toAlien] using alien
    refine (yields_putToAliens lawful makeDir mapper allows _).weaken fun res p stores ok => ?_
    exact ⟨vdiskId, diskPaths, route, by rw [if_pos alien]; exact stores ok some⟩
  · cases diskPaths with
    | none => exact .pure fun p => by rintro ⟨⟩
    | some paths =>
      refine (yields_putToPaths lawful makeDir mapper allows paths).weaken fun res p copied ok => ?_
      exact ⟨vdiskId, some paths, route, by rw [if_neg alien]; exact ⟨paths, rfl, copied ok⟩⟩

theorem yields_delete_backend (allows : allowed key (.marker bobMeta.timestamp.toNat))
    (options : BobDeleteOptions) : Yields (Extends lawful allowed) (fun _ _ => True)
      (Backend.delete (storage makeDir) mapper key bobMeta options :
        StateT (Pearl engine) (Except Panic) _) := by
  unfold Backend.delete
  refine .liftM_bind fun (vdiskId, diskPaths) _ => ?_
  dsimp only
  split_ifs with alien
  · refine .liftM_bind fun nodes _ => ?_
    -- a delete may stop anywhere; each of its steps extends the stores
    refine (Yields.foldlM_trivial _ fun errors node _ => ?_).bind_trivial fun errors => ?_
    · refine (yields_deleteAlien lawful makeDir allows _).bind_trivial fun answer => ?_
      cases answer <;> exact .pure fun _ => trivial
    · split <;> exact .pure fun _ => trivial
  · split
    · refine .foldlM_trivial _ fun result path _ => ?_
      refine (yields_delete lawful makeDir allows).bind_trivial fun answer => ?_
      cases answer <;> exact .pure fun _ => trivial
    · exact .pure fun _ => trivial

/-! ### Reading -/

theorem yields_getSingle (op : Operation) : Yields Eq
    (fun res p => ∀ data, res = .ok data → p.Holds lawful key (.value data))
    (Backend.getSingle (storage makeDir) key op : StateT (Pearl engine) (Except Panic) _) := by
  intro p res p' result
  unfold Backend.getSingle at result
  split_ifs at result with alien
  · change Except.ok (p.getAlien op key) = .ok (res, p') at result
    have same := @getAlien_snd _ _ p op key lawful
    rw [Except.ok.inj result] at same
    refine ⟨same.symm, fun data ok => ?_⟩
    subst same ok
    unfold getAlien at result
    split_ifs at result with accepts
    · obtain ⟨g, member, held⟩ :=
        DiskController.holds_of_getAlien lawful (congrArg (·.1) (Except.ok.inj result))
      exact ⟨g, List.mem_append_right _ member, held⟩
    · cases result
  · change Except.ok (p.get op key) = .ok (res, p') at result
    have same := @get_snd _ _ p op key lawful
    rw [Except.ok.inj result] at same
    refine ⟨same.symm, fun data ok => ?_⟩
    subst same ok
    unfold get at result
    split at result
    · rename_i dc i found
      obtain ⟨g, member, held⟩ :=
        DiskController.holds_of_get lawful (congrArg (·.1) (Except.ok.inj result))
      exact ⟨g, mem_groups_of_mem (List.mem_of_getElem? (firstMatch_eq_some_iff.mp found).1) member,
        held⟩
    · cases result

private theorem yields_getFromPaths (error : Option (Error keySize)) (paths : List DiskPath) :
    Yields Eq (fun res p => ∀ data, res = .ok data → p.Holds lawful key (.value data))
      (Backend.getFromPaths (storage makeDir) key vdiskId error paths :
        StateT (Pearl engine) (Except Panic) _) := by
  induction paths generalizing error with
  | nil => exact .pure fun p data => by rintro ⟨⟩
  | cons path rest ih =>
    refine (yields_getSingle lawful makeDir _).bind (fun _ p p' same held => same ▸ held)
      fun answer => ?_
    cases answer with
    | ok data => exact .pure fun p held other => by rintro ⟨⟩; exact held data rfl
    | error e => exact (ih (some e)).weaken fun _ _ held _ => held

/-- A read leaves the node as it is, and returns only what the node holds. -/
theorem yields_get (options : BobGetOptions) : Yields Eq
    (fun res p => ∀ data, res = .ok data → p.Holds lawful key (.value data))
    (Backend.get (storage makeDir) mapper key options :
      StateT (Pearl engine) (Except Panic) _) := by
  unfold Backend.get
  refine .liftM_bind fun (vdiskId, diskPaths) _ => ?_
  have alien : Yields Eq (fun res p => ∀ data, res = .ok data → p.Holds lawful key (.value data))
      (Backend.getSingle (storage makeDir) key (.newAlien vdiskId) :
        StateT (Pearl engine) (Except Panic) _) := yields_getSingle lawful makeDir _
  dsimp only
  split_ifs
  · refine (yields_getFromPaths lawful makeDir none _).bind (fun _ p p' same held => same ▸ held)
      fun answer => ?_
    cases answer with
    | ok data => exact .pure fun p held other => by rintro ⟨⟩; exact held data rfl
    | error e => exact alien.weaken fun _ _ held _ => held
  · split
    · refine (yields_getFromPaths lawful makeDir none _).bind (fun _ p p' same held => same ▸ held)
        fun answer => ?_
      cases answer with
      | ok data => exact .pure fun p held other => by rintro ⟨⟩; exact held data rfl
      | error e => exact .pure fun p _ other => by rintro ⟨⟩
    · exact .pure fun p other => by rintro ⟨⟩
  · exact alien
  · exact .pure fun p other => by rintro ⟨⟩

/-- An existence check leaves the node as it is. -/
theorem yields_exist (order : AnyOrder (Sigma fun _ : Operation => List (BobKey keySize) × List ℕ))
    (keys : List (BobKey keySize)) (options : BobGetOptions) : Yields Eq (fun _ _ => True)
      (Backend.exist (storage makeDir) mapper order keys options :
        StateT (Pearl engine) (Except Panic) _) := by
  unfold Backend.exist
  refine .liftM_bind fun grouped _ => ?_
  refine (Yields.foldlM_trivial _ fun found entry _ => ?_).bind_trivial fun found =>
    .pure fun _ => trivial
  obtain ⟨op, keys, indexes⟩ := entry
  have asked : Yields Eq (fun _ _ => True)
      (if op.isDataAlien then (storage makeDir).existAlien op keys
        else (storage makeDir).exist op keys : StateT (Pearl engine) (Except Panic) _) := by
    rintro p answer p' ran
    split_ifs at ran <;> cases ran <;> exact ⟨rfl, trivial⟩
  refine asked.bind_trivial fun answer => ?_
  cases answer <;> exact .pure fun _ => trivial

end Backend

/-! ### What a node with a copy answers -/

section Copies

/-- All records of the key on the node are of this value. -/
def Sole (lawful : engine.Lawful) (key : BobKey keySize) (data : BobData) (p : Pearl engine) :
    Prop :=
  ∀ r, p.Holds lawful key r → r = .value data

variable (sole : p.Sole lawful key data)
include sole

theorem Sole.reads_eq (stores : p.StoresAt lawful op key data) : p.reads op key = some data := by
  obtain ⟨dc, i, found, ready, g, j, located, here⟩ := stores
  have served := List.mem_of_getElem? (firstMatch_eq_some_iff.mp found).1
  have listed := List.mem_of_getElem? (firstMatch_eq_some_iff.mp located).1
  unfold reads get
  rw [found]
  dsimp only
  unfold DiskController.get
  rw [if_pos ready, located]
  exact here.reads_eq fun r held => sole r ⟨g, mem_groups_of_mem served listed, held⟩

theorem Sole.mem_alienValues (alien : p.alienDiskController.isAlien = true)
    (stores : p.StoresAlien lawful vdiskId key data) :
    data ∈ p.alienValues (.newAlien vdiskId) key := by
  obtain ⟨ready, g, member, same, here⟩ := stores
  have accepts : p.alienDiskController.canProcessOperation (.newAlien vdiskId) = true := by
    simp [DiskController.canProcessOperation, alien]
  unfold alienValues DiskController.alienValues
  rw [if_pos accepts, if_pos ready]
  refine List.mem_filterMap.mpr ⟨g, List.mem_filter.mpr ⟨member, ?_⟩, ?_⟩
  · exact decide_eq_true same
  · exact here.reads_eq fun r held => sole r ⟨g, List.mem_append_right _ member, held⟩

end Copies

end Pearl

end Bob.Backend

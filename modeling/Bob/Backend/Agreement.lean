/-
# Existence checks and reads

A node answers an existence check and a read by separate code at every level. In the
normal store they agree. In the alien store a check reports a key that any group has,
while a read only takes a value whose timestamp is greater than zero. So the two
agree exactly where no key has only alien values with timestamp zero.
-/

import Bob.Backend.DiskRouting
import Bob.Backend.Reading
import Bob.Backend.Truthful

namespace Bob

namespace Backend

open Bob.Configs Bob.Math

variable {keySize : ℕ} {engine : StorageEngine keySize}

/-! ## Groups -/

namespace Group

/-- The value that a read of the group returns, if it does. -/
def reads (g : Group engine) (key : BobKey keySize) : Option BobData := (g.get key).1.toOption

variable {g : Group engine} {key : BobKey keySize}

theorem reads_of_locked (locked : g.reinitLock = true) : g.reads key = none := by
  rw [reads, get, if_pos locked]
  rfl

theorem get_snd (lawful : engine.Lawful) : (g.get key).2 = g := by
  cases locked : g.reinitLock with
  | true => rw [get, if_pos locked]
  | false =>
    obtain ⟨hasError, result, -⟩ := @get_spec _ _ lawful g key locked
    rw [result]

theorem reads_eq_best (lawful : engine.Lawful) (unlocked : g.reinitLock = false) :
    g.reads key = (g.best lawful key).bind Record.value? := by
  obtain ⟨hasError, result, -⟩ := @get_spec _ _ lawful g key unlocked
  rw [reads, result]
  cases (g.best lawful key).bind Record.value? with
  | some data => rfl
  | none => cases hasError <;> rfl

theorem answersFor_exist (lawful : engine.Lawful) (keys : List (BobKey keySize)) :
    AnswersFor keys (fun key => (g.reads key).isSome) (g.exist keys) := by
  cases locked : g.reinitLock with
  | true =>
    simp only [reads_of_locked locked, Option.isSome_none]
    rw [exist, if_pos locked]
    exact answersFor_error
  | false =>
    left
    rw [exist_eq_best lawful locked]
    simp only [reads_eq_best lawful locked]

end Group

/-! ## Controllers -/

namespace DiskController

variable {dc : DiskController engine} {op : Operation} {key : BobKey keySize}

/-- The value that a read of the controller returns, if it does. -/
def reads (dc : DiskController engine) (op : Operation) (key : BobKey keySize) : Option BobData :=
  (dc.get op key).1.toOption

private theorem setGroup_self {group : Group engine} {index : ℕ}
    (here : dc.groups[index]? = some group) : dc.setGroup index group = dc := by
  obtain ⟨below, rfl⟩ := List.getElem?_eq_some_iff.mp here
  rw [setGroup, List.set_getElem_self]

theorem get_snd (lawful : engine.Lawful) : (dc.get op key).2 = dc := by
  unfold get
  split_ifs
  · split
    · rename_i group index found
      dsimp only
      rw [Group.get_snd lawful, setGroup_self (firstMatch_eq_some_iff.mp found).1]
    · rfl
  · rfl

theorem answersFor_exist (lawful : engine.Lawful) (keys : List (BobKey keySize)) :
    AnswersFor keys (fun key => (dc.reads op key).isSome) (dc.exist op keys) := by
  unfold reads get exist
  split_ifs
  · split
    · rename_i group index found
      exact group.answersFor_exist lawful keys
    · exact answersFor_error
  · exact answersFor_error

/-! ### Alien groups -/

/-- The values that the groups for an alien request have for a key. -/
def alienValues (dc : DiskController engine) (op : Operation) (key : BobKey keySize) :
    List BobData :=
  if dc.state = .ready then
    (dc.groups.filter fun group => group.canProcessOperation op).filterMap (·.reads key)
  else []

/-- The group has a value that an alien read can take. -/
private def Offers (op : Operation) (key : BobKey keySize) (group : Group engine) : Prop :=
  group.canProcessOperation op = true ∧
    ∃ data, group.reads key = some data ∧ 0 < data.bobMeta.timestamp

/-- One round of the loop has a value afterwards if it had one, or the group offers one. -/
private theorem isSome_take {answer : Except (Error keySize) BobData} {result : Option BobData} :
    (match answer with
      | .ok data =>
        if data.bobMeta.timestamp >
          (result.map fun found : BobData => found.bobMeta.timestamp).getD 0 then some data
        else result
      | .error _ => result).isSome = true ↔
    result.isSome = true ∨ ∃ data, answer.toOption = some data ∧ 0 < data.bobMeta.timestamp := by
  cases answer with
  | error e => simp [Except.toOption]
  | ok data =>
    cases result with
    -- whichever of the two is newer, there is a value
    | some found =>
      dsimp only
      split_ifs <;> simp
    | none =>
      dsimp only
      split_ifs with newer
      · simpa [Except.toOption] using newer
      · simpa [Except.toOption] using newer

private theorem getAlienFrom_spec (lawful : engine.Lawful) (groups : List (Group engine))
    (result : Option BobData) :
    (getAlienFrom op key result groups).2 = groups ∧
    ((getAlienFrom op key result groups).1.isSome = true ↔
      result.isSome = true ∨ ∃ group ∈ groups, Offers op key group) := by
  induction groups generalizing result with
  | nil => simp [getAlienFrom]
  | cons group rest ih =>
    rw [getAlienFrom]
    by_cases accepts : group.canProcessOperation op = true
    · rw [if_pos accepts]
      dsimp only
      refine ⟨by rw [(ih _).1, Group.get_snd lawful], ?_⟩
      rw [(ih _).2, List.exists_mem_cons_iff, ← or_assoc]
      refine or_congr_left (isSome_take.trans ?_)
      simp only [Offers, accepts, true_and, Group.reads]
    · rw [if_neg accepts]
      dsimp only
      refine ⟨by rw [(ih _).1], ?_⟩
      rw [(ih _).2, List.exists_mem_cons_iff]
      simp only [Offers, accepts, false_and, false_or, Bool.false_eq_true]

theorem getAlien_snd (lawful : engine.Lawful) : (dc.getAlien op key).2 = dc := by
  unfold getAlien
  split_ifs
  · dsimp only
    rw [(getAlienFrom_spec lawful dc.groups none).1]
    split <;> rfl
  · rfl

/-- A read of aliens finds a value if one of them has a timestamp greater than zero. -/
theorem isSome_getAlien_iff (lawful : engine.Lawful) :
    (dc.getAlien op key).1.toOption.isSome = true ↔
      ∃ data ∈ dc.alienValues op key, 0 < data.bobMeta.timestamp := by
  unfold getAlien alienValues
  split_ifs
  · have found := (@getAlienFrom_spec _ _ op key lawful dc.groups none).2
    simp only [Option.isSome_none, Bool.false_eq_true, false_or] at found
    have same : (∃ data ∈ (dc.groups.filter fun group => group.canProcessOperation op).filterMap
        (·.reads key), 0 < data.bobMeta.timestamp) ↔ ∃ group ∈ dc.groups, Offers op key group := by
      simp only [List.mem_filterMap, List.mem_filter, Offers]
      constructor
      · rintro ⟨data, ⟨group, ⟨member, accepts⟩, hdata⟩, positive⟩
        exact ⟨group, member, accepts, data, hdata, positive⟩
      · rintro ⟨group, member, accepts, data, hdata, positive⟩
        exact ⟨data, ⟨group, ⟨member, accepts⟩, hdata⟩, positive⟩
    rw [same, ← found]
    dsimp only
    cases (getAlienFrom op key none dc.groups).1 <;> rfl
  · simp [Except.toOption]

/-- What the loop over the groups has joined so far. -/
private def Joined (keys : List (BobKey keySize)) (has : BobKey keySize → Bool)
    (result : Option (List Bool)) : Prop :=
  result = some (keys.map has) ∨ result = none ∧ ∀ key, has key = false

private theorem Joined.joinExist {keys : List (BobKey keySize)} {has has' : BobKey keySize → Bool}
    {result : Option (List Bool)} {answer : Except (Error keySize) (List Bool)}
    (joined : Joined keys has result) (answers : AnswersFor keys has' answer) :
    Joined keys (fun key => has key || has' key) (joinExist result answer) := by
  -- the first answer is taken as it is, later ones are joined by position
  rcases answers with rfl | ⟨⟨e, rfl⟩, missing⟩
  · rcases joined with rfl | ⟨rfl, none⟩
    · left
      simp [DiskController.joinExist, List.zipWith_map_left, List.zipWith_map_right,
        List.zipWith_self]
    · left
      simp [DiskController.joinExist, none]
  · simpa only [DiskController.joinExist, missing, Bool.or_false] using joined

private theorem Joined.foldl (lawful : engine.Lawful) {keys : List (BobKey keySize)}
    (groups : List (Group engine)) {has : BobKey keySize → Bool} {result : Option (List Bool)}
    (joined : Joined keys has result) :
    Joined keys (fun key => has key || groups.any fun group => (group.reads key).isSome)
      (groups.foldl (fun result group => DiskController.joinExist result (group.exist keys))
        result) := by
  induction groups generalizing has result with
  | nil => simpa only [List.any_nil, Bool.or_false, List.foldl_nil] using joined
  | cons group rest ih =>
    have next := ih (joined.joinExist (group.answersFor_exist lawful keys))
    simpa only [List.any_cons, Bool.or_assoc, List.foldl_cons] using next

/-- A check of aliens reports a key that some group has. -/
theorem answersFor_existAlien (lawful : engine.Lawful) (keys : List (BobKey keySize)) :
    AnswersFor keys (fun key => !(dc.alienValues op key).isEmpty) (dc.existAlien op keys) := by
  unfold alienValues existAlien
  split_ifs
  · left
    dsimp only
    have start : Joined keys (fun _ => false) none := Or.inr ⟨rfl, fun _ => rfl⟩
    have listed (key : BobKey keySize) (groups : List (Group engine)) :
        (!(groups.filterMap (·.reads key)).isEmpty) =
          groups.any fun group => (group.reads key).isSome := by
      induction groups with
      | nil => rfl
      | cons group rest ih =>
        rw [List.any_cons, ← ih]
        cases hread : group.reads key <;> simp [hread]
    simp only [listed]
    rcases start.foldl lawful (dc.groups.filter fun group => group.canProcessOperation op) with
      found | ⟨none, missing⟩
    · rw [found]
      simp
    · simp only [Bool.false_or] at missing
      simp [none, missing]
  · exact answersFor_error

end DiskController

/-! ## The stores of a node -/

namespace Pearl

variable {p : Pearl engine} {op : Operation} {key : BobKey keySize}

/-- The value that a read of the normal store returns, if it does. -/
def reads (p : Pearl engine) (op : Operation) (key : BobKey keySize) : Option BobData :=
  (p.get op key).1.toOption

/-- The values that the alien store has for a key. -/
def alienValues (p : Pearl engine) (op : Operation) (key : BobKey keySize) : List BobData :=
  if p.alienDiskController.canProcessOperation op then p.alienDiskController.alienValues op key
  else []

/-- Whether the store for an operation reports a key. -/
def reports (p : Pearl engine) (op : Operation) (key : BobKey keySize) : Bool :=
  if op.isDataAlien then !(p.alienValues op key).isEmpty else (p.reads op key).isSome

theorem get_snd (lawful : engine.Lawful) : (p.get op key).2 = p := by
  unfold get
  split
  · rename_i dc index found
    obtain ⟨below, rfl⟩ := List.getElem?_eq_some_iff.mp (firstMatch_eq_some_iff.mp found).1
    dsimp only
    rw [DiskController.get_snd lawful, setController, List.set_getElem_self]
  · rfl

theorem getAlien_snd (lawful : engine.Lawful) : (p.getAlien op key).2 = p := by
  unfold getAlien
  split_ifs
  · dsimp only
    rw [DiskController.getAlien_snd lawful]
  · rfl

theorem isSome_getAlien_iff (lawful : engine.Lawful) :
    (p.getAlien op key).1.toOption.isSome = true ↔
      ∃ data ∈ p.alienValues op key, 0 < data.bobMeta.timestamp := by
  unfold getAlien alienValues
  split_ifs
  · exact DiskController.isSome_getAlien_iff lawful
  · simp [Except.toOption]

theorem answersFor_exist (lawful : engine.Lawful) (keys : List (BobKey keySize)) :
    AnswersFor keys (fun key => (p.reads op key).isSome) (p.exist op keys) := by
  unfold reads get exist
  split
  · exact DiskController.answersFor_exist lawful keys
  · exact answersFor_error

theorem answersFor_existAlien (lawful : engine.Lawful) (keys : List (BobKey keySize)) :
    AnswersFor keys (fun key => !(p.alienValues op key).isEmpty) (p.existAlien op keys) := by
  unfold alienValues existAlien
  split_ifs
  · exact DiskController.answersFor_existAlien lawful keys
  · exact answersFor_error

/-- Whichever store an operation goes to, it answers for each key. -/
theorem answersFor_reports (lawful : engine.Lawful) (keys : List (BobKey keySize)) :
    AnswersFor keys (p.reports op)
      (if op.isDataAlien then p.existAlien op keys else p.exist op keys) := by
  unfold reports
  split_ifs
  · exact answersFor_existAlien lawful keys
  · exact answersFor_exist lawful keys

end Pearl

/-! ## Requests to the backend -/

namespace Pearl

variable {p : Pearl engine} {makeDir : MakeDir} {mapper : Virtual} {options : BobGetOptions}
  {keys : List (BobKey keySize)} {key : BobKey keySize}

theorem checksBy_reports (lawful : engine.Lawful) : ChecksBy (storage makeDir) p p.reports := by
  intro op keys
  refine ⟨if op.isDataAlien then p.existAlien op keys else p.exist op keys, ?_,
    p.answersFor_reports lawful keys⟩
  split_ifs <;> rfl

theorem readsBy_newLocal (lawful : engine.Lawful) (vdiskId : VDiskId) (path : DiskPath)
    (key : BobKey keySize) : ReadsBy (storage makeDir) p (.newLocal vdiskId path) key
      ((p.reads (.newLocal vdiskId path) key).isSome = true) := by
  refine ⟨(p.get (.newLocal vdiskId path) key).1, ?_, Iff.rfl⟩
  exact congrArg (fun q => Except.ok ((p.get (.newLocal vdiskId path) key).1, q))
    (get_snd lawful)

/-- The stores of a node answer by what they report. -/
theorem truthful_storage (lawful : engine.Lawful) : Truthful (storage makeDir) p p.reports where
  checks := checksBy_reports lawful
  reads := readsBy_newLocal lawful

/-- A position is reported if an operation of its key reports the key. -/
theorem exist_spec (lawful : engine.Lawful)
    {order : AnyOrder (Sigma fun _ : Operation => List (BobKey keySize) × List ℕ)}
    {operations : BobKey keySize → List Operation}
    (routed : ∀ key, findOperations mapper key options = .ok (operations key)) :
    ∃ found, Backend.exist (storage makeDir) mapper order keys options p = .ok (.ok found, p) ∧
      found.length = keys.length ∧ ∀ (i : ℕ) (key : BobKey keySize), keys[i]? = some key →
        (found[i]? = some true ↔ ∃ op ∈ operations key, p.reports op key = true) := by
  refine ⟨_, exist_eq (checksBy_reports lawful) routed, List.length_map .., fun i key here => ?_⟩
  rw [List.getElem?_map, here, Option.map_some, Option.some.injEq, List.any_eq_true]

theorem getSingle_alien (lawful : engine.Lawful) {vdiskId : VDiskId} :
    ∃ res, getSingle (storage makeDir) key (.newAlien vdiskId) p = .ok (res, p) ∧
      (res.toOption.isSome = true ↔
        ∃ data ∈ p.alienValues (.newAlien vdiskId) key, 0 < data.bobMeta.timestamp) := by
  refine ⟨(p.getAlien (.newAlien vdiskId) key).1, ?_, isSome_getAlien_iff lawful⟩
  exact congrArg (fun q => Except.ok ((p.getAlien (.newAlien vdiskId) key).1, q))
    (getAlien_snd lawful)

/-- Some disk of the vdisk has the key. -/
def OnDisk (p : Pearl engine) (vdiskId : VDiskId) (paths : Option (List DiskPath))
    (key : BobKey keySize) : Prop :=
  ∃ path ∈ paths.getD [], (p.reads (.newLocal vdiskId path) key).isSome = true

/-- A read finds a value on a disk or, if it may look there, in the alien store. -/
theorem get_spec (lawful : engine.Lawful) {vdiskId : VDiskId}
    {paths : Option (List DiskPath)} (route : mapper.getOperation key = .ok (vdiskId, paths)) :
    ∃ res, Backend.get (storage makeDir) mapper key options p = .ok (res, p) ∧
      (res.toOption.isSome = true ↔
        options.getNormal = true ∧ p.OnDisk vdiskId paths key ∨
        options.getAlien = true ∧
          ∃ data ∈ p.alienValues (.newAlien vdiskId) key, 0 < data.bobMeta.timestamp) :=
  get_finds_iff route (fun path => readsBy_newLocal lawful vdiskId path key) fun _ =>
    getSingle_alien lawful

/-- The operations of a key report it if a disk has it or, if they look there, the alien
store has any value. -/
theorem reports_iff {vdiskId : VDiskId} {paths : Option (List DiskPath)}
    {operations : List Operation} (route : mapper.getOperation key = .ok (vdiskId, paths))
    (listed : findOperations mapper key options = .ok operations) :
    (∃ op ∈ operations, p.reports op key = true) ↔
      options.getNormal = true ∧ p.OnDisk vdiskId paths key ∨
      options.getAlien = true ∧ p.alienValues (.newAlien vdiskId) key ≠ [] := by
  have alien : p.reports (.newAlien vdiskId) key = true ↔
      p.alienValues (.newAlien vdiskId) key ≠ [] := by
    simp [reports]
  rw [exists_mem_operations_iff route listed, alien]
  exact Iff.rfl

/-- Two ways to find something that share the first place to look agree if the second
place is decided in the same way, where it matters. -/
private theorem or_and_iff_or_and_iff {onDisk alien any visible : Prop} (some : visible → any) :
    (onDisk ∨ alien ∧ any ↔ onDisk ∨ alien ∧ visible) ↔ (alien → any → visible ∨ onDisk) := by
  tauto

/-- If the alien store has the key and is to be asked, then one of its values has a
timestamp greater than zero, unless a disk that is to be asked has the key as well. -/
def AliensVisible (p : Pearl engine) (mapper : Virtual) (options : BobGetOptions)
    (key : BobKey keySize) : Prop :=
  ∀ vdiskId paths, mapper.getOperation key = .ok (vdiskId, paths) →
    options.getAlien = true → p.alienValues (.newAlien vdiskId) key ≠ [] →
      (∃ data ∈ p.alienValues (.newAlien vdiskId) key, 0 < data.bobMeta.timestamp) ∨
        options.getNormal = true ∧ p.OnDisk vdiskId paths key

private theorem aliensVisible_iff {vdiskId : VDiskId} {paths : Option (List DiskPath)}
    (route : mapper.getOperation key = .ok (vdiskId, paths)) :
    p.AliensVisible mapper options key ↔ (options.getAlien = true →
      p.alienValues (.newAlien vdiskId) key ≠ [] →
        (∃ data ∈ p.alienValues (.newAlien vdiskId) key, 0 < data.bobMeta.timestamp) ∨
          options.getNormal = true ∧ p.OnDisk vdiskId paths key) := by
  constructor
  · exact fun all => all vdiskId paths route
  · intro here vdiskId' paths' route'
    cases route.symm.trans route'
    exact here

/-- For one key, the answers agree exactly if its aliens are visible. -/
private theorem agrees_iff_aliensVisible (lawful : engine.Lawful) {vdiskId : VDiskId}
    {paths : Option (List DiskPath)} {operations : List Operation}
    (route : mapper.getOperation key = .ok (vdiskId, paths))
    (listed : findOperations mapper key options = .ok operations) :
    ((∃ op ∈ operations, p.reports op key = true) ↔
      ∃ data, Backend.get (storage makeDir) mapper key options p = .ok (.ok data, p)) ↔
        p.AliensVisible mapper options key := by
  obtain ⟨res, hres, reads⟩ := @get_spec _ _ p makeDir mapper options key lawful _ _ route
  have isOk : (∃ data, Backend.get (storage makeDir) mapper key options p = .ok (.ok data, p)) ↔
      res.toOption.isSome = true := by
    rw [hres]
    cases res <;> simp [Except.toOption]
  have nonempty (positive : ∃ data ∈ p.alienValues (.newAlien vdiskId) key,
      0 < data.bobMeta.timestamp) : p.alienValues (.newAlien vdiskId) key ≠ [] := by
    obtain ⟨data, member, -⟩ := positive
    exact List.ne_nil_of_mem member
  rw [isOk, reads, reports_iff route listed, aliensVisible_iff route]
  exact or_and_iff_or_and_iff nonempty

/-- A well-formed mapper routes every key, so each has its operations. -/
theorem exists_operations (wf : mapper.WellFormed) (options : BobGetOptions) :
    ∃ operations : BobKey keySize → List Operation,
      ∀ key, findOperations mapper key options = .ok (operations key) := by
  have listed (key : BobKey keySize) : ∃ operations,
      findOperations mapper key options = .ok operations := by
    obtain ⟨id, vdisk, hid, found, -⟩ := wf.exists_vdisk key
    exact ⟨_, bind_eq_ok_iff.mpr ⟨_, Virtual.getOperation_eq hid found, rfl⟩⟩
  choose operations hoperations using listed
  exact ⟨operations, hoperations⟩

/-- An existence check agrees with reads of its keys exactly if no key has only alien
values with timestamp zero. -/
theorem exist_agrees_with_get_iff (lawful : engine.Lawful) {ext : Externals}
    {cluster : Configs.Cluster} {config : NodeConfig} {mapper : Virtual}
    (validated : cluster.validate ext.parseUri = .ok ())
    (built : Virtual.new config cluster = .ok mapper) (makeDir : MakeDir)
    (order : AnyOrder (Sigma fun _ : Operation => List (BobKey keySize) × List ℕ))
    (p : Pearl engine) (keys : List (BobKey keySize)) (options : BobGetOptions) :
    (∃ found, Backend.exist (storage makeDir) mapper order keys options p = .ok (.ok found, p) ∧
      found.length = keys.length ∧
      ∀ (i : ℕ) (key : BobKey keySize), keys[i]? = some key → (found[i]? = some true ↔
        ∃ data, Backend.get (storage makeDir) mapper key options p = .ok (.ok data, p))) ↔
    ∀ key ∈ keys, p.AliensVisible mapper options key := by
  have wf := (Virtual.builtFrom_of_new built).wellFormed (Cluster.valid_of_validate validated)
  -- With every key routed, the request sorts its keys without a panic.
  obtain ⟨operations, hoperations⟩ := exists_operations wf options
  obtain ⟨found, hfound, length, flagged⟩ :=
    @exist_spec _ _ p makeDir mapper options keys lawful order operations hoperations
  have agrees (key : BobKey keySize) : ((∃ op ∈ operations key, p.reports op key = true) ↔
      ∃ data, Backend.get (storage makeDir) mapper key options p = .ok (.ok data, p)) ↔
        p.AliensVisible mapper options key := by
    obtain ⟨id, vdisk, hid, stored, -⟩ := wf.exists_vdisk key
    exact agrees_iff_aliensVisible lawful (Virtual.getOperation_eq hid stored) (hoperations key)
  constructor
  · rintro ⟨found', hfound', -, same⟩ key member
    have equal := Except.ok.inj (Prod.mk.inj (Except.ok.inj (hfound.symm.trans hfound'))).1
    subst equal
    obtain ⟨i, here⟩ := List.getElem?_of_mem member
    exact (agrees key).mp ((flagged i key here).symm.trans (same i key here))
  · intro visible
    refine ⟨found, hfound, length, fun i key here => ?_⟩
    exact (flagged i key here).trans ((agrees key).mpr (visible key (List.mem_of_getElem? here)))

/-! ## A value without a time -/

/-- The store of the small node with a ready alien controller, after a put of alien data
of another node. -/
def afterAlienPut (timestamp : UInt64) : Option (Pearl (logEngine 8)) :=
  let p := { smallPearl with alienDiskController := smallPearl.alienDiskController.started }
  let op := (Operation.newAlien 1).setRemoteNodeName ⟨"beta"⟩
  match p.putAlien (fun _ _ => .ok ()) op doubleKey ⟨[7], ⟨timestamp⟩⟩ with
  | .ok (.ok (), p) => some p
  | _ => none

/-- Data with timestamp zero is stored and reported, but a read does not find it. -/
theorem timeless_value_not_read :
    Virtual.smallCluster.validate Virtual.lenientExternals.parseUri = .ok () ∧
    Virtual.new Virtual.preparedSmallNode Virtual.smallCluster = .ok Virtual.smallMapper ∧
    ∃ p : Pearl (logEngine 8), afterAlienPut 0 = some p ∧
      (Backend.exist (storage fun _ _ => .ok ()) Virtual.smallMapper .launched [doubleKey]
        ⟨false, .alien⟩ p).map Prod.fst = .ok (.ok [true]) ∧
      (Backend.get (storage fun _ _ => .ok ()) Virtual.smallMapper doubleKey ⟨false, .alien⟩
        p).map Prod.fst = .ok (.error (.keyNotFound doubleKey)) := by
  refine ⟨by decide, Virtual.new_small, ?_⟩
  obtain ⟨p, put, answers⟩ : ∃ p, afterAlienPut 0 = some p ∧
      ((Backend.exist (storage fun _ _ => .ok ()) Virtual.smallMapper .launched [doubleKey]
        ⟨false, .alien⟩ p).map Prod.fst,
      (Backend.get (storage fun _ _ => .ok ()) Virtual.smallMapper doubleKey ⟨false, .alien⟩
        p).map Prod.fst) = (.ok (.ok [true]), .ok (.error (.keyNotFound doubleKey))) := by
    apply Option.map_eq_some_iff.mp
    rfl
  exact ⟨p, put, Prod.mk.inj answers⟩

/-- With a timestamp, the value is both reported and read, also if the key is asked for
twice. -/
theorem alien_value_read : ∃ p : Pearl (logEngine 8), afterAlienPut 5 = some p ∧
    ∃ found, Backend.exist (storage fun _ _ => .ok ()) Virtual.smallMapper .launched
        [doubleKey, doubleKey] ⟨false, .all⟩ p = .ok (.ok found, p) ∧
      found.length = 2 ∧ ∀ (i : ℕ) (key : BobKey 8), [doubleKey, doubleKey][i]? = some key →
        (found[i]? = some true ↔ ∃ data, Backend.get (storage fun _ _ => .ok ())
          Virtual.smallMapper key ⟨false, .all⟩ p = .ok (.ok data, p)) := by
  obtain ⟨p, put, values⟩ : ∃ p, afterAlienPut 5 = some p ∧
      p.alienValues (.newAlien 1) doubleKey = [⟨[7], ⟨5⟩⟩] := by
    apply Option.map_eq_some_iff.mp
    rfl
  have operation : Virtual.smallMapper.getOperation doubleKey =
      .ok (1, some [⟨⟨"disk2"⟩, "/mnt/2"⟩, ⟨⟨"disk1"⟩, "/mnt/1"⟩]) := by decide
  refine ⟨p, put, (exist_agrees_with_get_iff (logEngine.lawful 8) Virtual.validate_small
    Virtual.new_small _ _ p [doubleKey, doubleKey] _).mpr ?_⟩
  intro key member vdiskId paths route _ _
  obtain rfl : key = doubleKey := by simpa using member
  cases operation.symm.trans route
  refine Or.inl ⟨⟨[7], ⟨5⟩⟩, ?_, by decide⟩
  rw [values]
  exact List.mem_singleton_self _

end Pearl

end Backend

end Bob

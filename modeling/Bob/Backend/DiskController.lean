/-
# Disk controllers

A controller looks after the groups of one disk, or all groups of the alien
store. It serves requests only while it is ready. A normal controller sends a
request to the first group that accepts it. The alien controller creates groups
on demand for writes, and asks every group that accepts the request for reads.
An error of a write that may mean that the disk is gone takes the controller out
of service and drops its groups.
-/

import Bob.Backend.Core
import Bob.Backend.Group

namespace Bob.Backend

open Bob.Configs Bob.Math

variable {keySize : ℕ} {engine : StorageEngine keySize}

inductive GroupsState
  /-- The list of groups is empty or broken. -/
  | notReady
  /-- The groups are read from disk but do not run. -/
  | initialized
  /-- The groups are ready to process requests. -/
  | ready
  deriving DecidableEq, Repr

/-- Alien requests are matched by node name, if they have one, and the others by
disk name. -/
def Group.canProcessOperation (g : Group engine) (operation : Operation) : Bool :=
  match operation.diskPath with
  | none =>
    (operation.remoteNodeName.all fun nodeName => nodeName = g.nodeName) &&
      g.vdiskId = operation.vdiskId
  | some path => g.vdiskId = operation.vdiskId && g.diskName = path.name

/-- Close the storages of the group. -/
def Group.close (g : Group engine) : Group engine :=
  { g with holders := g.holders.map fun holder => { holder with storage := none } }

structure DiskController (engine : StorageEngine keySize) where
  disk : DiskPath
  vdisks : List VDiskId
  nodeName : NodeName
  groups : List (Group engine)
  state : GroupsState
  settings : Settings
  isAlien : Bool

/-- The file system at the moment of a call: whether the directory of an alien group
can be made. -/
abbrev MakeDir := NodeName → VDiskId → Except OpenError Unit

def defaultAlienDiskName : DiskName := ⟨"alien_disk"⟩

def Settings.alienDiskName (settings : Settings) : DiskName :=
  settings.alienDisk.getD defaultAlienDiskName

/-- An alien group carries the name of the alien disk. -/
def Settings.createAlienGroup (settings : Settings) (makeDir : MakeDir)
    (remoteNodeName : NodeName) (vdiskId : VDiskId) : Except (Error keySize) (Group engine) :=
  match makeDir remoteNodeName vdiskId with
  | .error e => .error e.toError
  | .ok () => .ok (Group.new settings vdiskId remoteNodeName settings.alienDiskName)

namespace DiskController

def setGroup (dc : DiskController engine) (index : ℕ) (group : Group engine) :
    DiskController engine :=
  { dc with groups := dc.groups.set index group }

/-- Moving to `notReady` drops the groups. A transition that is not foreseen is
logged as invalid and made all the same. -/
def changeState (dc : DiskController engine) (newState : GroupsState) : DiskController engine :=
  if dc.state = newState then dc
  else
    match dc.state, newState with
    | _, .notReady => { dc with groups := [], state := .notReady }
    | .notReady, .initialized => { dc with state := .initialized }
    | .initialized, .ready => { dc with state := .ready }
    | _, _ => { dc with state := newState }

theorem changeState_self {dc : DiskController engine} : dc.changeState dc.state = dc :=
  if_pos rfl

/-- A change of state sets the state, foreseen or not. -/
theorem changeState_of_ne {dc : DiskController engine} {newState : GroupsState}
    (changes : dc.state ≠ newState) :
    dc.changeState newState =
      { dc with groups := if newState = .notReady then [] else dc.groups, state := newState } := by
  unfold changeState
  rw [if_neg changes]
  split
  · rfl
  · rfl
  · rfl
  · rename_i notReset _ _
    rw [if_neg notReset]

def processError (dc : DiskController engine) (e : Error keySize) : DiskController engine :=
  if e.isPossibleDiskDisconnection then dc.changeState .notReady else dc

def collectNormalGroups (dc : DiskController engine) : List (Group engine) :=
  dc.vdisks.map fun vdiskId => Group.new dc.settings vdiskId dc.nodeName dc.disk.name

def canProcessOperation (dc : DiskController engine) (op : Operation) : Bool :=
  dc.isAlien && op.isDataAlien || dc.vdisks.any fun vdiskId => vdiskId = op.vdiskId

/-- The first group that accepts the request, with its position. -/
def findSingleGroup (groups : List (Group engine)) (operation : Operation) :
    Option (Group engine × ℕ) :=
  firstMatch (fun group => group.canProcessOperation operation) groups

/-! ## Requests to normal groups -/

def put (dc : DiskController engine) (op : Operation) (key : BobKey keySize) (data : BobData) :
    Except Panic (Except (Error keySize) Unit × DiskController engine) := do
  if dc.state = .ready then
    match findSingleGroup dc.groups op with
    | some (group, index) =>
      let (res, group) ← group.put key data .default
      let dc := dc.setGroup index group
      match res with
      | .ok () => return (.ok (), dc)
      | .error e => return (.error e, dc.processError e)
    | none => return (.error (.vdiskNotFound op.vdiskId), dc)
  else
    return (.error .dcIsNotAvailable, dc)

def get (dc : DiskController engine) (op : Operation) (key : BobKey keySize) :
    Except (Error keySize) BobData × DiskController engine :=
  if dc.state = .ready then
    match findSingleGroup dc.groups op with
    | some (group, index) =>
      let (res, group) := group.get key
      (res, dc.setGroup index group)
    | none => (.error (.vdiskNotFound op.vdiskId), dc)
  else (.error .dcIsNotAvailable, dc)

def exist (dc : DiskController engine) (operation : Operation) (keys : List (BobKey keySize)) :
    Except (Error keySize) (List Bool) :=
  if dc.state = .ready then
    match findSingleGroup dc.groups operation with
    | some (group, _) => group.exist keys
    | none => .error (.vdiskNotFound operation.vdiskId)
  else .error .dcIsNotAvailable

/-- A local delete is always forced. -/
def delete (dc : DiskController engine) (op : Operation) (key : BobKey keySize)
    (bobMeta : BobMeta) : Except Panic (Except (Error keySize) ℕ × DiskController engine) := do
  if dc.state = .ready then
    match findSingleGroup dc.groups op with
    | some (group, index) =>
      let (res, group) ← group.delete key bobMeta .default true
      return (res, dc.setGroup index group)
    | none => return (.error (.vdiskNotFound op.vdiskId), dc)
  else
    return (.error .dcIsNotAvailable, dc)

/-! ## Requests to alien groups -/

/-- The group for an alien write, with its position. It is created if no group
accepts the request. -/
def getOrCreatePearl (dc : DiskController engine) (makeDir : MakeDir) (operation : Operation) :
    Except Panic (Except (Error keySize) ((Group engine × ℕ) × DiskController engine)) :=
  match findSingleGroup dc.groups operation with
  | some found => .ok (.ok (found, dc))
  | none =>
    match operation.remoteNodeName with
    | none => .error ⟨"Node name not found"⟩
    | some remoteNodeName =>
      match dc.settings.createAlienGroup makeDir remoteNodeName operation.vdiskId with
      | .error e => .ok (.error e)
      | .ok group =>
        .ok (.ok ((group, dc.groups.length), { dc with groups := dc.groups ++ [group] }))

def putAlien (dc : DiskController engine) (makeDir : MakeDir) (op : Operation)
    (key : BobKey keySize) (data : BobData) :
    Except Panic (Except (Error keySize) Unit × DiskController engine) := do
  if dc.state = .ready then
    match ← dc.getOrCreatePearl makeDir op with
    | .ok ((group, index), dc) =>
      let (res, group) ← group.put key data ⟨false⟩
      let dc := dc.setGroup index group
      match res with
      | .ok () => return (.ok (), dc)
      | .error e => return (.error e, dc.processError e)
    | .error _ => return (.error (.vdiskNotFound op.vdiskId), dc)
  else
    return (.error .dcIsNotAvailable, dc)

/-- Ask every group that accepts the request and keep the newest value. A value is
taken only if its timestamp exceeds that of the last one, or zero. -/
def getAlienFrom (op : Operation) (key : BobKey keySize) :
    Option BobData → List (Group engine) → Option BobData × List (Group engine)
  | result, [] => (result, [])
  | result, group :: rest =>
    if group.canProcessOperation op then
      let (answer, group) := group.get key
      let result :=
        match answer with
        | .ok data =>
          if data.bobMeta.timestamp > (result.map (·.bobMeta.timestamp)).getD 0 then some data
          else result
        | .error _ => result
      let (result, rest) := getAlienFrom op key result rest
      (result, group :: rest)
    else
      let (result, rest) := getAlienFrom op key result rest
      (result, group :: rest)

def getAlien (dc : DiskController engine) (op : Operation) (key : BobKey keySize) :
    Except (Error keySize) BobData × DiskController engine :=
  if dc.state = .ready then
    let (result, groups) := getAlienFrom op key none dc.groups
    let dc := { dc with groups := groups }
    match result with
    | some data => (.ok data, dc)
    | none => (.error (.keyNotFound key), dc)
  else (.error .dcIsNotAvailable, dc)

/-- Join the answer of one more group. A group that fails adds nothing. -/
def joinExist (result : Option (List Bool)) (answer : Except (Error keySize) (List Bool)) :
    Option (List Bool) :=
  match answer, result with
  | .ok r, some result => some (result.zipWith (· || ·) r)
  | .ok r, none => some r
  | .error _, result => result

def existAlien (dc : DiskController engine) (op : Operation) (keys : List (BobKey keySize)) :
    Except (Error keySize) (List Bool) :=
  if dc.state = .ready then
    let groups := dc.groups.filter fun group => group.canProcessOperation op
    let result := groups.foldl (fun result group => joinExist result (group.exist keys)) none
    .ok (result.getD (List.replicate keys.length false))
  else .error .dcIsNotAvailable

/-- What the loop over the groups of an alien delete has done so far: the number of
deletions, the last error, and the errors that have been processed. -/
structure AlienDelete (keySize : ℕ) where
  result : ℕ
  err : Option (Error keySize)
  processed : List (Error keySize)

/-- An error that was processed has dropped the groups of the controller. -/
def AlienDelete.dropped (done : AlienDelete keySize) : Bool :=
  done.processed.any fun e => e.isPossibleDiskDisconnection

/-- Delete in every group that accepts the request. The loop goes over the groups as
they were at its start: once they have been dropped, the others are closed. -/
def deleteAlienFrom (op : Operation) (key : BobKey keySize) (bobMeta : BobMeta)
    (forceDelete : Bool) : AlienDelete keySize → List (Group engine) →
    Except Panic (AlienDelete keySize × List (Group engine))
  | done, [] => .ok (done, [])
  | done, group :: rest =>
    if group.canProcessOperation op then do
      let group := if done.dropped then group.close else group
      let (res, group) ← group.delete key bobMeta ⟨false⟩ forceDelete
      let done := match res with
        | .ok r => { done with result := done.result + r }
        | .error e => { done with err := some e, processed := done.processed ++ [e] }
      let (done, rest) ← deleteAlienFrom op key bobMeta forceDelete done rest
      return (done, group :: rest)
    else do
      let (done, rest) ← deleteAlienFrom op key bobMeta forceDelete done rest
      return (done, group :: rest)

def deleteAlien (dc : DiskController engine) (makeDir : MakeDir) (op : Operation)
    (key : BobKey keySize) (bobMeta : BobMeta) (forceDelete : Bool) :
    Except Panic (Except (Error keySize) ℕ × DiskController engine) := do
  if dc.state = .ready then
    if forceDelete && (dc.groups.filter fun group => group.canProcessOperation op).isEmpty then
      -- A forced delete needs at least one group for its marker.
      match ← dc.getOrCreatePearl makeDir op with
      | .ok ((group, index), dc) =>
        let (res, group) ← group.delete key bobMeta ⟨false⟩ forceDelete
        let dc := dc.setGroup index group
        match res with
        | .ok r => return (.ok r, dc)
        | .error e => return (.error e, dc.processError e)
      | .error _ => return (.error (.vdiskNotFound op.vdiskId), dc)
    else
      let (done, groups) ← deleteAlienFrom op key bobMeta forceDelete ⟨0, none, []⟩ dc.groups
      let dc := done.processed.foldl processError { dc with groups := groups }
      match done.err with
      | some e => return (.error e, dc)
      | none => return (.ok done.result, dc)
  else
    return (.error .dcIsNotAvailable, dc)

end DiskController

end Bob.Backend

/-
# Operations and the backend

A request reaches the storage as an `Operation`: a vdisk with either a disk path
of this node or the name of the node that alien data belongs to. The backend
decides from that which of the two stores serves the request, and lets a local
write that fails fall back to the alien store. A read tries the disks of the vdisk
one by one, and an existence check sorts its keys by operation first. The store
itself is the trait `BackendStorage`, here a record of functions in a monad, so that the same
dispatch runs over a store with state and over one whose answers are fixed.
-/

import Bob.Math.Completion
import Bob.Math.Scatter
import Bob.Common.Mapper

namespace Bob

open Bob.Math

/-! ## Operations and options -/

/-- Where a request goes: alien data has no disk path. -/
structure Operation where
  vdiskId : VDiskId
  diskPath : Option DiskPath
  remoteNodeName : Option NodeName
  deriving DecidableEq, Repr

namespace Operation

def newAlien (vdiskId : VDiskId) : Operation := ⟨vdiskId, none, none⟩

def newLocal (vdiskId : VDiskId) (path : DiskPath) : Operation := ⟨vdiskId, some path, none⟩

def setRemoteNodeName (op : Operation) (name : NodeName) : Operation :=
  { op with remoteNodeName := some name }

def isDataAlien (op : Operation) : Bool := op.diskPath.isNone

@[simp] theorem isDataAlien_newAlien {vdiskId : VDiskId} :
    (newAlien vdiskId).isDataAlien = true := rfl

@[simp] theorem isDataAlien_newLocal {vdiskId : VDiskId} {path : DiskPath} :
    (newLocal vdiskId path).isDataAlien = false := rfl

@[simp] theorem isDataAlien_setRemoteNodeName {op : Operation} {name : NodeName} :
    (op.setRemoteNodeName name).isDataAlien = op.isDataAlien := rfl

end Operation

structure BobPutOptions where
  forceNode : Bool
  overwrite : Bool
  remoteNodes : List NodeName
  deriving DecidableEq, Repr

def BobPutOptions.newLocal : BobPutOptions := ⟨true, false, []⟩

def BobPutOptions.newAlien (remoteNodes : List NodeName) : BobPutOptions :=
  ⟨true, false, remoteNodes⟩

def BobPutOptions.toAlien (options : BobPutOptions) : Bool := !options.remoteNodes.isEmpty

/-- Which of the two stores of a node a read looks at. -/
inductive GetSource
  | all
  | normal
  | alien
  deriving DecidableEq, Repr

structure BobGetOptions where
  forceNode : Bool
  getSource : GetSource
  deriving DecidableEq, Repr

namespace BobGetOptions

def newLocal : BobGetOptions := ⟨true, .normal⟩

def newAlien : BobGetOptions := ⟨true, .alien⟩

def newAll : BobGetOptions := ⟨true, .all⟩

def getAll (options : BobGetOptions) : Bool := options.getSource = .all

def getNormal (options : BobGetOptions) : Bool :=
  options.getSource = .normal || options.getSource = .all

def getAlien (options : BobGetOptions) : Bool :=
  options.getSource = .alien || options.getSource = .all

end BobGetOptions

structure BobDeleteOptions where
  forceNode : Bool
  isAlien : Bool
  forceAlienNodes : List NodeName
  deriving DecidableEq, Repr

def BobDeleteOptions.newLocal : BobDeleteOptions := ⟨true, false, []⟩

def BobDeleteOptions.newAlien (forceAlienNodes : List NodeName) : BobDeleteOptions :=
  ⟨true, true, forceAlienNodes⟩

def BobDeleteOptions.isForceDelete (options : BobDeleteOptions) (nodeName : NodeName) : Bool :=
  options.forceAlienNodes.any fun x => x = nodeName

/-! ## The store behind the backend -/

/-- The storage trait: what a store does with an operation. -/
structure BackendStorage (m : Type → Type) (keySize : ℕ) where
  put : Operation → BobKey keySize → BobData → m (Except (Error keySize) Unit)
  putAlien : Operation → BobKey keySize → BobData → m (Except (Error keySize) Unit)
  get : Operation → BobKey keySize → m (Except (Error keySize) BobData)
  getAlien : Operation → BobKey keySize → m (Except (Error keySize) BobData)
  exist : Operation → List (BobKey keySize) → m (Except (Error keySize) (List Bool))
  existAlien : Operation → List (BobKey keySize) → m (Except (Error keySize) (List Bool))
  delete : Operation → BobKey keySize → BobMeta → m (Except (Error keySize) ℕ)
  deleteAlien : Operation → BobKey keySize → BobMeta → Bool → m (Except (Error keySize) ℕ)

/-- A store that accepts every write and holds nothing. -/
def BackendStorage.accepting {keySize : ℕ} : BackendStorage Id keySize where
  put := fun _ _ _ => .ok ()
  putAlien := fun _ _ _ => .ok ()
  get := fun _ key => .error (.keyNotFound key)
  getAlien := fun _ key => .error (.keyNotFound key)
  exist := fun _ keys => .ok (keys.map fun _ => false)
  existAlien := fun _ keys => .ok (keys.map fun _ => false)
  delete := fun _ _ _ => .ok 0
  deleteAlien := fun _ _ _ _ => .ok 0

namespace Backend

variable {m : Type → Type} [Monad m] {keySize : ℕ} (inner : BackendStorage m keySize)
  (mapper : Virtual)

/-- A local write that fails, unless the key is a duplicate, is written as alien
data of this node. The operation keeps its disk path. -/
def putSingle (key : BobKey keySize) (data : BobData) (operation : Operation) :
    m (Except (Error keySize) Unit) := do
  if operation.isDataAlien then
    inner.putAlien operation key data
  else
    match ← inner.put operation key data with
    | .ok () => pure (.ok ())
    | .error localErr =>
      if localErr.isDuplicate then
        pure (.error localErr)
      else
        let op := operation.setRemoteNodeName mapper.localNodeName
        let result ← inner.putAlien op key data
        pure (result.mapError fun alienErr => Error.requestFailedCompletely localErr alienErr)

def putLocal (key : BobKey keySize) (data : BobData) (operation : Operation) :
    m (Except (Error keySize) Unit) :=
  putSingle inner mapper key data operation

/-- Write alien data for one node after the other, up to the first that fails. -/
def putToAliens (key : BobKey keySize) (data : BobData) (vdiskId : VDiskId) :
    List NodeName → m (Except (Error keySize) Unit)
  | [] => pure (.ok ())
  | nodeName :: rest => do
    let op := (Operation.newAlien vdiskId).setRemoteNodeName nodeName
    match ← putSingle inner mapper key data op with
    | .ok () => putToAliens key data vdiskId rest
    | .error e => pure (.error e)

/-- Write to each of the disks, and keep the last error. -/
def putToPaths (key : BobKey keySize) (data : BobData) (vdiskId : VDiskId)
    (paths : List DiskPath) : m (Except (Error keySize) Unit) :=
  paths.foldlM (fun result path => do
    match ← putSingle inner mapper key data (.newLocal vdiskId path) with
    | .ok () => pure result
    | .error e => pure (.error e)) (.ok ())

def put [MonadLiftT (Except Panic) m] (key : BobKey keySize) (data : BobData)
    (options : BobPutOptions) : m (Except (Error keySize) Unit) := do
  let (vdiskId, diskPaths) ← liftM (mapper.getOperation key)
  if options.toAlien then
    putToAliens inner mapper key data vdiskId options.remoteNodes
  else
    match diskPaths with
    | some paths => putToPaths inner mapper key data vdiskId paths
    -- neither alien data nor data of this node
    | none => pure (.error .internal)

def deleteSingle (key : BobKey keySize) (bobMeta : BobMeta) (operation : Operation)
    (forceDelete : Bool) : m (Except (Error keySize) ℕ) :=
  if operation.isDataAlien then inner.deleteAlien operation key bobMeta forceDelete
  else inner.delete operation key bobMeta

def deleteLocal (key : BobKey keySize) (bobMeta : BobMeta) (operation : Operation)
    (forceDelete : Bool) : m (Except (Error keySize) ℕ) :=
  deleteSingle inner key bobMeta operation forceDelete

/-- Delete the alien data of each of the nodes, by force where the options say so, and
collect the errors. -/
def deleteFromAliens (key : BobKey keySize) (bobMeta : BobMeta) (options : BobDeleteOptions)
    (vdiskId : VDiskId) (nodes : List Node) : m (List (Error keySize)) :=
  nodes.foldlM (fun errors node => do
    let forceDelete := options.isForceDelete node.name
    let op := (Operation.newAlien vdiskId).setRemoteNodeName node.name
    match ← deleteSingle inner key bobMeta op forceDelete with
    | .ok _ => pure errors
    | .error err => pure (errors ++ [err])) []

/-- Delete on each of the disks, and keep the last error. -/
def deleteFromPaths (key : BobKey keySize) (bobMeta : BobMeta) (vdiskId : VDiskId)
    (paths : List DiskPath) : m (Except (Error keySize) Unit) :=
  paths.foldlM (fun result path => do
    match ← deleteSingle inner key bobMeta (.newLocal vdiskId path) true with
    | .ok _ => pure result
    | .error e => pure (.error e)) (.ok ())

def delete [MonadLiftT (Except Panic) m] (key : BobKey keySize) (bobMeta : BobMeta)
    (options : BobDeleteOptions) : m (Except (Error keySize) Unit) := do
  let (vdiskId, diskPaths) ← liftM (mapper.getOperation key)
  if options.isAlien then
    let nodes ← liftM (mapper.getTargetNodesForKey key)
    match ← deleteFromAliens inner key bobMeta options vdiskId nodes with
    | [] => pure (.ok ())
    | [err] => pure (.error err)
    | _ => pure (.error (.failed "Multiple errors detected"))
  else
    match diskPaths with
    | some paths => deleteFromPaths inner key bobMeta vdiskId paths
    -- neither alien data nor data of this node
    | none => pure (.error .internal)

/-! ## Reading -/

def getSingle (key : BobKey keySize) (operation : Operation) : m (Except (Error keySize) BobData) :=
  if operation.isDataAlien then inner.getAlien operation key else inner.get operation key

def getLocal (key : BobKey keySize) (op : Operation) : m (Except (Error keySize) BobData) :=
  getSingle inner key op

/-- Try the disks in order until one has the key; if none has, keep the last error. -/
def getFromPaths (key : BobKey keySize) (vdiskId : VDiskId) : Option (Error keySize) →
    List DiskPath → m (Except (Option (Error keySize)) BobData)
  | error, [] => pure (.error error)
  | _, path :: paths => do
    match ← getLocal inner key (.newLocal vdiskId path) with
    | .ok data => pure (.ok data)
    | .error e => getFromPaths key vdiskId (some e) paths

variable [MonadLiftT (Except Panic) m]

def get (key : BobKey keySize) (options : BobGetOptions) : m (Except (Error keySize) BobData) := do
  let (vdiskId, diskPaths) ← liftM (mapper.getOperation key)
  if options.getAll then
    match ← getFromPaths inner key vdiskId none (diskPaths.getD []) with
    | .ok data => pure (.ok data)
    -- Whatever went wrong on the disks, aliens are next.
    | .error _ => getSingle inner key (.newAlien vdiskId)
  else if options.getNormal then
    match diskPaths with
    | some paths =>
      match ← getFromPaths inner key vdiskId none paths with
      | .ok data => pure (.ok data)
      | .error error => pure (.error (error.getD (.keyNotFound key)))
    | none => pure (.error .internal)
  else if options.getAlien then
    getSingle inner key (.newAlien vdiskId)
  else
    pure (.error .internal)

/-- The operations that an existence check of a key needs. -/
def findOperations (key : BobKey keySize) (options : BobGetOptions) :
    Except Panic (List Operation) := do
  let (vdiskId, paths) ← mapper.getOperation key
  let normal := if options.getNormal then (paths.getD []).map (.newLocal vdiskId) else []
  let alien := if options.getAlien then [.newAlien vdiskId] else []
  return normal ++ alien

/-- The keys that an operation is to look up, and where they stand in the request. -/
abbrev KeysByOperations (keySize : ℕ) := Dict Operation (List (BobKey keySize) × List ℕ)

/-- Enter a key and its position under an operation. -/
def fileKey (key : BobKey keySize) (ind : ℕ) (keysByOperations : KeysByOperations keySize)
    (operation : Operation) : KeysByOperations keySize :=
  keysByOperations.insert operation (match keysByOperations.lookup operation with
    | some (keys, indexes) => (keys ++ [key], indexes ++ [ind])
    | none => ([key], [ind]))

def groupKeysByOperations (keys : List (BobKey keySize)) (options : BobGetOptions) :
    Except Panic (KeysByOperations keySize) :=
  keys.zipIdx.foldlM (fun keysByOperations (key, ind) => do
    let operations ← findOperations mapper key options
    return operations.foldl (fileKey key ind) keysByOperations) ∅

/-- Ask an operation for its keys and write the answers back to their positions. An
operation that fails adds nothing. -/
def existByOperation (exist : List Bool)
    (entry : Sigma fun _ : Operation => List (BobKey keySize) × List ℕ) : m (List Bool) := do
  let ⟨operation, keys, indexes⟩ := entry
  let result ← (if operation.isDataAlien then inner.existAlien operation keys
    else inner.exist operation keys)
  match result with
  | .ok result => pure (scatterOr exist (indexes.zip result))
  | .error _ => pure exist

/-- The order is that in which the map of operations is iterated. -/
def exist (order : AnyOrder (Sigma fun _ : Operation => List (BobKey keySize) × List ℕ))
    (keys : List (BobKey keySize)) (options : BobGetOptions) :
    m (Except (Error keySize) (List Bool)) := do
  let keysByIdAndPath ← liftM (groupKeysByOperations mapper keys options)
  let exist ← (order.arrange keysByIdAndPath.entries).foldlM (existByOperation inner)
    (List.replicate keys.length false)
  return .ok exist

end Backend

end Bob

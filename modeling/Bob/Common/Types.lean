/-
# Names, keys, data and errors

The small types every other layer shares: names of nodes and disks, disk paths,
keys of a fixed build-time size, stored data with its timestamp, and the error
kinds that travel between nodes. Equality of cluster nodes and of node disks
follows the source, which compares names only.
-/

import Mathlib.Data.List.Basic

namespace Bob

/-- A reached `panic!`, failed assertion, out-of-range index or `expect` on the
wrong variant. Both build profiles abort on it. -/
structure Panic where
  message : String
  deriving DecidableEq, Repr

/-- The name of a cluster node. -/
structure NodeName where
  str : String
  deriving DecidableEq, Repr

/-- The name of a disk, unique on its node. -/
structure DiskName where
  str : String
  deriving DecidableEq, Repr

abbrev VDiskId := UInt32

abbrev NodeId := UInt16

/-- A disk of one node: its name and the path it is mounted at. -/
structure DiskPath where
  name : DiskName
  path : String
  deriving DecidableEq, Repr

/-- A disk together with the node that holds it; one replica of a vdisk. -/
structure NodeDisk where
  nodeName : NodeName
  diskName : DiskName
  diskPath : String
  deriving DecidableEq, Repr

/-- The disk path a replica is written to. -/
def DiskPath.ofNodeDisk (replica : NodeDisk) : DiskPath where
  name := replica.diskName
  path := replica.diskPath

/-- A member of the cluster. The connection is not part of the value: whether a
node is reachable is a question asked anew at every use. -/
structure Node where
  index : NodeId
  name : NodeName
  address : String
  deriving DecidableEq, Repr

/-- A value tagged with the node that produced it. -/
structure NodeOutput (α : Type*) where
  nodeName : NodeName
  inner : α
  deriving DecidableEq, Repr

/-- Apply a function to the value and keep the tag. -/
def NodeOutput.map {α β : Type*} (f : α → β) (output : NodeOutput α) : NodeOutput β where
  nodeName := output.nodeName
  inner := f output.inner

/-- A key is a byte string of the size fixed at build time. -/
structure BobKey (keySize : ℕ) where
  bytes : Vector UInt8 keySize
  deriving DecidableEq, Repr

/-- Metadata of a record: the timestamp the client chose. -/
structure BobMeta where
  timestamp : UInt64
  deriving DecidableEq, Repr

/-- A stored value with its metadata. -/
structure BobData where
  inner : List UInt8
  bobMeta : BobMeta
  deriving DecidableEq, Repr

/-- What can go wrong with a request. -/
inductive Kind (keySize : ℕ)
  | timeout
  | vdiskNotFound (id : VDiskId)
  | storage (message : String)
  | duplicateKey
  | keyNotFound (key : BobKey keySize)
  | dcIsNotAvailable
  | possibleDiskDisconnection
  | vdiskIsNotReady
  | failed (cause : String)
  | internal
  | pearlChangeState (message : String)
  | requestFailedCompletely (message : String)
  | disksEventsLogger (message : String)
  | unauthorized
  | holderTemporaryUnavailable
  deriving DecidableEq, Repr

/-- How the source prints a key in its debug form. -/
def BobKey.debug {keySize : ℕ} (key : BobKey keySize) : String :=
  "BobKey([" ++ ", ".intercalate (key.bytes.toList.map toString) ++ "])"

/-- The text of an error kind. Three kinds have a text of their own; the others
are printed in their debug form. -/
def Kind.display {keySize : ℕ} : Kind keySize → String
  | .vdiskNotFound id => s!"vdisk: {id} not found"
  | .storage description => s!"backend storage error: {description}"
  | .pearlChangeState description => s!"backend pearl change state error: {description}"
  | .timeout => "Timeout"
  | .duplicateKey => "DuplicateKey"
  | .keyNotFound key => s!"KeyNotFound({key.debug})"
  | .dcIsNotAvailable => "DCIsNotAvailable"
  | .possibleDiskDisconnection => "PossibleDiskDisconnection"
  | .vdiskIsNotReady => "VDiskIsNotReady"
  | .failed cause => s!"Failed({cause.quote})"
  | .internal => "Internal"
  | .requestFailedCompletely message => s!"RequestFailedCompletely({message.quote})"
  | .disksEventsLogger message => s!"DisksEventsLogger({message.quote})"
  | .unauthorized => "Unauthorized"
  | .holderTemporaryUnavailable => "HolderTemporaryUnavailable"

/-- An error of the storage or of the cluster. -/
structure Error (keySize : ℕ) where
  ctx : Kind keySize
  deriving DecidableEq, Repr

namespace Error

variable {keySize : ℕ}

def internal : Error keySize := ⟨.internal⟩

def keyNotFound (key : BobKey keySize) : Error keySize := ⟨.keyNotFound key⟩

def vdiskNotFound (id : VDiskId) : Error keySize := ⟨.vdiskNotFound id⟩

def dcIsNotAvailable : Error keySize := ⟨.dcIsNotAvailable⟩

def vdiskIsNotReady : Error keySize := ⟨.vdiskIsNotReady⟩

def possibleDiskDisconnection : Error keySize := ⟨.possibleDiskDisconnection⟩

def holderTemporaryUnavailable : Error keySize := ⟨.holderTemporaryUnavailable⟩

def storage (message : String) : Error keySize := ⟨.storage message⟩

def failed (cause : String) : Error keySize := ⟨.failed cause⟩

def pearlChangeState (message : String) : Error keySize := ⟨.pearlChangeState message⟩

/-- Neither the local write nor the alien write of a put succeeded. -/
def requestFailedCompletely (localErr alienErr : Error keySize) : Error keySize :=
  ⟨.requestFailedCompletely
    s!"local error: {localErr.ctx.display}\nalien error: {alienErr.ctx.display}"⟩

def isNotReady (e : Error keySize) : Bool := e.ctx = .vdiskIsNotReady

def isDuplicate (e : Error keySize) : Bool := e.ctx = .duplicateKey

def isKeyNotFound (e : Error keySize) : Bool :=
  match e.ctx with
  | .keyNotFound _ => true
  | _ => false

def isPossibleDiskDisconnection (e : Error keySize) : Bool :=
  e.ctx = .possibleDiskDisconnection

end Error

end Bob

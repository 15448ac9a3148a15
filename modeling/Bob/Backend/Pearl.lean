/-
# The pearl backend

The store of a node: one controller for each of its disks, in no particular
order, and one for alien data. A local request goes to the first controller that
has the vdisk; the controller then looks for a group of the vdisk on the disk
that the request names. Alien requests go to the alien controller.
-/

import Bob.Backend.DiskController

namespace Bob.Backend

open Bob.Configs Bob.Math

variable {keySize : ℕ} {engine : StorageEngine keySize}

structure Pearl (engine : StorageEngine keySize) where
  diskControllers : List (DiskController engine)
  alienDiskController : DiskController engine

/-- A controller as it is created, before its groups are read. -/
def DiskController.new (settings : Settings) (nodeName : NodeName) (disk : DiskPath)
    (vdisks : List VDiskId) (isAlien : Bool) : DiskController engine where
  disk := disk
  vdisks := vdisks
  nodeName := nodeName
  groups := []
  state := .notReady
  settings := settings
  isAlien := isAlien

/-- The controllers of the disks of this node. They are created at the same time and
stored as they get ready. -/
def Settings.readGroupFromDisk (settings : Settings) (mapper : Virtual) (nodeName : NodeName)
    (order : AnyOrder (DiskController engine)) : List (DiskController engine) :=
  order.arrange (mapper.disks.map fun disk =>
    .new settings nodeName disk (mapper.getVdisksByDisk disk.name) false)

namespace Pearl

def setController (p : Pearl engine) (index : ℕ) (dc : DiskController engine) : Pearl engine :=
  { p with diskControllers := p.diskControllers.set index dc }

/-- The first controller that accepts a request, with its position. -/
def findController (controllers : List (DiskController engine)) (op : Operation) :
    Option (DiskController engine × ℕ) :=
  firstMatch (fun dc => dc.canProcessOperation op) controllers

def put (p : Pearl engine) (op : Operation) (key : BobKey keySize) (data : BobData) :
    Except Panic (Except (Error keySize) Unit × Pearl engine) := do
  match findController p.diskControllers op with
  | some (dc, index) =>
    let (res, dc) ← dc.put op key data
    return (res, p.setController index dc)
  | none => return (.error .dcIsNotAvailable, p)

def putAlien (p : Pearl engine) (makeDir : MakeDir) (op : Operation) (key : BobKey keySize)
    (data : BobData) : Except Panic (Except (Error keySize) Unit × Pearl engine) := do
  let (res, dc) ← p.alienDiskController.putAlien makeDir op key data
  return (res, { p with alienDiskController := dc })

def get (p : Pearl engine) (op : Operation) (key : BobKey keySize) :
    Except (Error keySize) BobData × Pearl engine :=
  match findController p.diskControllers op with
  | some (dc, index) =>
    let (res, dc) := dc.get op key
    (res, p.setController index dc)
  | none => (.error .dcIsNotAvailable, p)

def getAlien (p : Pearl engine) (op : Operation) (key : BobKey keySize) :
    Except (Error keySize) BobData × Pearl engine :=
  if p.alienDiskController.canProcessOperation op then
    let (res, dc) := p.alienDiskController.getAlien op key
    (res, { p with alienDiskController := dc })
  else (.error .dcIsNotAvailable, p)

def exist (p : Pearl engine) (operation : Operation) (keys : List (BobKey keySize)) :
    Except (Error keySize) (List Bool) :=
  match findController p.diskControllers operation with
  | some (dc, _) => dc.exist operation keys
  | none => .error .dcIsNotAvailable

def existAlien (p : Pearl engine) (operation : Operation) (keys : List (BobKey keySize)) :
    Except (Error keySize) (List Bool) :=
  if p.alienDiskController.canProcessOperation operation then
    p.alienDiskController.existAlien operation keys
  else .error .dcIsNotAvailable

def delete (p : Pearl engine) (op : Operation) (key : BobKey keySize) (bobMeta : BobMeta) :
    Except Panic (Except (Error keySize) ℕ × Pearl engine) := do
  match findController p.diskControllers op with
  | some (dc, index) =>
    let (res, dc) ← dc.delete op key bobMeta
    return (res, p.setController index dc)
  | none => return (.error .dcIsNotAvailable, p)

def deleteAlien (p : Pearl engine) (makeDir : MakeDir) (op : Operation) (key : BobKey keySize)
    (bobMeta : BobMeta) (forceDelete : Bool) :
    Except Panic (Except (Error keySize) ℕ × Pearl engine) := do
  if p.alienDiskController.canProcessOperation op then
    let (res, dc) ← p.alienDiskController.deleteAlien makeDir op key bobMeta forceDelete
    return (res, { p with alienDiskController := dc })
  else
    return (.error .dcIsNotAvailable, p)

/-- The pearl backend as the store behind the backend. -/
def storage (makeDir : MakeDir) :
    BackendStorage (StateT (Pearl engine) (Except Panic)) keySize where
  put := fun op key data p => p.put op key data
  putAlien := fun op key data p => p.putAlien makeDir op key data
  get := fun op key p => .ok (p.get op key)
  getAlien := fun op key p => .ok (p.getAlien op key)
  exist := fun op keys p => .ok (p.exist op keys, p)
  existAlien := fun op keys p => .ok (p.existAlien op keys, p)
  delete := fun op key bobMeta p => p.delete op key bobMeta
  deleteAlien := fun op key bobMeta forceDelete p =>
    p.deleteAlien makeDir op key bobMeta forceDelete

end Pearl

end Bob.Backend

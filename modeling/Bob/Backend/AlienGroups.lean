/-
# The groups of the alien store

Alien data belongs to another node, or to this node when one of its own disks has
failed. A group of the alien store is meant for one node and one vdisk, and a
write creates it if it is missing. Writes for another node find their group by
the node's name. A write that falls back from a local disk still carries the path
of that disk, and is matched by disk name instead: it misses the group of this
node and creates a second one, or, if the disk is the alien disk itself, it takes
the first group of the vdisk, whichever node that is for.
-/

import Mathlib.Logic.Relation
import Bob.Backend.DiskRouting

namespace Bob.Backend

open Bob.Math Bob.Configs

variable {keySize : ℕ} {engine : StorageEngine keySize}

/-- The node and the vdisk whose data a group keeps. -/
def Group.address (g : Group engine) : NodeName × VDiskId := (g.nodeName, g.vdiskId)

namespace DiskController

/-- Alien groups have distinct addresses. All carry the name of the alien disk, the
collected ones as well as the created ones. -/
structure WellAddressed (dc : DiskController engine) : Prop where
  distinct : (dc.groups.map Group.address).Nodup
  diskName : ∀ g ∈ dc.groups, g.diskName = dc.settings.alienDiskName

/-- What the controller does with the answer of a group to a put. -/
def settle (dc : DiskController engine) (res : Except (Error keySize) Unit) :
    DiskController engine :=
  match res with
  | .ok () => dc
  | .error e => dc.processError e

/-- A put for a node and a vdisk reaches the group with that address, or no group. -/
inductive AlienWrite (dc : DiskController engine) (node : NodeName) (vdiskId : VDiskId)
    (key : BobKey keySize) (data : BobData) :
    Except (Error keySize) Unit → DiskController engine → Prop
  | refused (e : Error keySize) : AlienWrite dc node vdiskId key data (.error e) dc
  | existing {i : ℕ} {g g' : Group engine} {res : Except (Error keySize) Unit}
      (stored : dc.groups[i]? = some g) (addressed : g.address = (node, vdiskId))
      (written : g.put key data ⟨false⟩ = .ok (res, g')) :
      AlienWrite dc node vdiskId key data res ((dc.setGroup i g').settle res)
  | created {g g' : Group engine} {res : Except (Error keySize) Unit}
      (addressed : g.address = (node, vdiskId))
      (written : g.put key data ⟨false⟩ = .ok (res, g')) :
      AlienWrite dc node vdiskId key data res
        (settle { dc with groups := dc.groups ++ [g'] } res)

/-- The search for a group finds the one with the address, if there is one. -/
structure Addressed (dc : DiskController engine) (op : Operation) (node : NodeName) : Prop where
  found : ∀ g i, findSingleGroup dc.groups op = some (g, i) → g.address = (node, op.vdiskId)
  missed : findSingleGroup dc.groups op = none →
    (node, op.vdiskId) ∉ dc.groups.map Group.address

section Alien

variable {dc dc' : DiskController engine} {makeDir : MakeDir} {op : Operation} {node : NodeName}
  {key : BobKey keySize} {data : BobData}

/-- A group for an alien write: one that was found, or a new one at the end. -/
theorem getOrCreatePearl_cases {g : Group engine} {i : ℕ}
    (named : op.remoteNodeName = some node)
    (result : dc.getOrCreatePearl makeDir op = .ok (.ok ((g, i), dc'))) :
    (findSingleGroup dc.groups op = some (g, i) ∧ dc' = dc) ∨
      (findSingleGroup dc.groups op = none ∧
        g = .new dc.settings op.vdiskId node dc.settings.alienDiskName ∧ i = dc.groups.length ∧
        dc' = { dc with groups := dc.groups ++ [g] }) := by
  unfold getOrCreatePearl at result
  split at result
  · rename_i found hfound
    cases result
    exact Or.inl ⟨hfound, rfl⟩
  · rename_i missing
    -- a new group takes its node from the request and its disk from the settings
    rw [named] at result
    dsimp only [Settings.createAlienGroup] at result
    split at result
    · cases result
    · rename_i group created
      split at created
      · cases created
      · cases created
        cases result
        exact Or.inr ⟨missing, rfl, rfl, rfl⟩

private theorem processError_wellAddressed {e : Error keySize} (well : dc.WellAddressed) :
    (dc.processError e).WellAddressed := by
  unfold processError changeState
  split_ifs
  · exact well
  -- a lost disk drops the groups, and an empty list is well addressed
  · exact ⟨List.nodup_nil, by simp⟩
  · exact well

private theorem settle_wellAddressed {res : Except (Error keySize) Unit}
    (well : dc.WellAddressed) : (dc.settle res).WellAddressed := by
  cases res with
  | ok done => exact well
  | error e => exact processError_wellAddressed well

/-- Only what groups are known by matters for their addresses. -/
private theorem wellAddressed_congr (well : dc.WellAddressed)
    (idents : dc'.groups.map Group.ident = dc.groups.map Group.ident)
    (settings : dc'.settings = dc.settings) : dc'.WellAddressed := by
  have address : dc'.groups.map Group.address = dc.groups.map Group.address := by
    have addresses := congrArg (List.map fun ident => (ident.2.1, ident.1)) idents
    rw [List.map_map, List.map_map] at addresses
    exact addresses
  refine ⟨address ▸ well.distinct, fun g member => ?_⟩
  have known : g.ident ∈ dc.groups.map Group.ident := idents ▸ List.mem_map_of_mem member
  obtain ⟨old, hold, same⟩ := List.mem_map.mp known
  rw [settings, ← well.diskName old hold]
  exact congrArg (fun ident => ident.2.2) same.symm

private theorem append_wellAddressed {g : Group engine} (well : dc.WellAddressed)
    (fresh : g.address ∉ dc.groups.map Group.address)
    (diskName : g.diskName = dc.settings.alienDiskName) :
    WellAddressed { dc with groups := dc.groups ++ [g] } := by
  refine ⟨?_, fun other member => ?_⟩
  · rw [List.map_append, List.map_singleton, List.nodup_append_comm, List.singleton_append,
      List.nodup_cons]
    exact ⟨fresh, well.distinct⟩
  · rcases List.mem_append.mp member with old | new
    · exact well.diskName other old
    · rw [List.mem_singleton.mp new]
      exact diskName

/-- An alien put that is addressed right writes to the right group, and no address
is used twice afterwards. -/
private theorem putAlien_spec {res : Except (Error keySize) Unit} (well : dc.WellAddressed)
    (named : op.remoteNodeName = some node) (addressed : dc.Addressed op node)
    (result : dc.putAlien makeDir op key data = .ok (res, dc')) :
    AlienWrite dc node op.vdiskId key data res dc' ∧ dc'.WellAddressed := by
  unfold putAlien at result
  split_ifs at result with ready
  · obtain ⟨found, hfound, result⟩ := bind_eq_ok_iff.mp result
    split at result
    · rename_i group index dc₁
      obtain ⟨⟨answer, written⟩, hput, result⟩ := bind_eq_ok_iff.mp result
      have settled : answer = res ∧ (dc₁.setGroup index written).settle answer = dc' := by
        cases answer <;> cases result <;> exact ⟨rfl, rfl⟩
      obtain ⟨rfl, rfl⟩ := settled
      rcases getOrCreatePearl_cases named hfound with
        ⟨located, rfl⟩ | ⟨missing, new, rfl, rfl⟩
      · have stored := (firstMatch_eq_some_iff.mp located).1
        refine ⟨.existing stored (addressed.found _ _ located) hput, settle_wellAddressed ?_⟩
        exact wellAddressed_congr well (map_set_of_eq stored (Group.ident_put hput)) rfl
      · -- The new group has been appended, and the put has replaced it in place.
        have address : group.address = (node, op.vdiskId) := by rw [new]; rfl
        have diskName : group.diskName = dc.settings.alienDiskName := by rw [new]; rfl
        have placed : setGroup { dc with groups := dc.groups ++ [group] } dc.groups.length
            written = { dc with groups := dc.groups ++ [written] } := by
          simp [setGroup]
        rw [placed]
        refine ⟨.created address hput, settle_wellAddressed (append_wellAddressed well ?_ ?_)⟩
        · have same : written.address = group.address :=
            congrArg (fun ident => (ident.2.1, ident.1)) (Group.ident_put hput)
          rw [same, address]
          exact addressed.missed missing
        · rw [← diskName]
          exact congrArg (fun ident => ident.2.2) (Group.ident_put hput)
    · cases result
      exact ⟨.refused _, well⟩
  · cases result
    exact ⟨.refused _, well⟩

end Alien

/-! ## Which requests are addressed right -/

section Requests

variable {dc : DiskController engine} {node : NodeName} {vdiskId : VDiskId} {path : DiskPath}

theorem canProcessOperation_alien_iff {g : Group engine} :
    g.canProcessOperation ((Operation.newAlien vdiskId).setRemoteNodeName node) = true ↔
      g.address = (node, vdiskId) := by
  change (decide (node = g.nodeName) && decide (g.vdiskId = vdiskId)) = true ↔ _
  rw [Bool.and_eq_true, decide_eq_true_eq, decide_eq_true_eq, Group.address, Prod.mk.injEq,
    @eq_comm _ node]

/-- A request with the name of a node and without a path is addressed right. -/
theorem addressed_alien :
    dc.Addressed ((Operation.newAlien vdiskId).setRemoteNodeName node) node where
  found := by
    intro g i located
    exact canProcessOperation_alien_iff.mp (firstMatch_eq_some_iff.mp located).2.1
  missed := by
    intro missing member
    obtain ⟨g, hg, address⟩ := List.mem_map.mp member
    have accepts : g.canProcessOperation ((Operation.newAlien vdiskId).setRemoteNodeName node) =
      true := canProcessOperation_alien_iff.mpr address
    rw [firstMatch_eq_none_iff.mp missing g hg] at accepts
    cases accepts

/-- The condition under which a put that falls back from a disk of this node finds
its way. From the alien disk, the first group of the vdisk has to be that of this
node; from another disk, this node must not have a group of the vdisk yet. -/
def FallbackSafe (dc : DiskController engine) (localNode : NodeName) (vdiskId : VDiskId)
    (disk : DiskName) : Prop :=
  if disk = dc.settings.alienDiskName then
    ∀ g i, firstMatch (fun group => group.vdiskId = vdiskId) dc.groups = some (g, i) →
      g.nodeName = localNode
  else (localNode, vdiskId) ∉ dc.groups.map Group.address

private theorem canProcessOperation_fallback {g : Group engine} (well : dc.WellAddressed)
    (member : g ∈ dc.groups) :
    g.canProcessOperation ((Operation.newLocal vdiskId path).setRemoteNodeName node) =
      (decide (g.vdiskId = vdiskId) && decide (dc.settings.alienDiskName = path.name)) := by
  rw [← well.diskName g member]
  rfl

theorem addressed_fallback_iff (well : dc.WellAddressed) :
    dc.Addressed ((Operation.newLocal vdiskId path).setRemoteNodeName node) node ↔
      dc.FallbackSafe node vdiskId path.name := by
  unfold FallbackSafe
  split_ifs with alienDisk
  -- On the alien disk every group of the vdisk is accepted, whichever node it is for.
  · have same : findSingleGroup dc.groups
        ((Operation.newLocal vdiskId path).setRemoteNodeName node) =
          firstMatch (fun group => group.vdiskId = vdiskId) dc.groups := by
      refine firstMatch_congr fun g member => ?_
      rw [canProcessOperation_fallback well member, decide_eq_true alienDisk.symm, Bool.and_true]
    constructor
    · intro addressed g i located
      exact congrArg Prod.fst (addressed.found g i (same.trans located))
    · intro first
      refine ⟨fun g i located => ?_, fun missing member => ?_⟩
      · rw [same] at located
        have ofVdisk : g.vdiskId = vdiskId := by
          simpa using (firstMatch_eq_some_iff.mp located).2.1
        exact Prod.ext (first g i located) ofVdisk
      · rw [same] at missing
        obtain ⟨g, hg, address⟩ := List.mem_map.mp member
        have other := firstMatch_eq_none_iff.mp missing g hg
        exact (of_decide_eq_false other) (congrArg Prod.snd address)
  · -- No group has the name of the disk, so the search always misses.
    have misses : findSingleGroup dc.groups
        ((Operation.newLocal vdiskId path).setRemoteNodeName node) = none := by
      refine firstMatch_eq_none_iff.mpr fun g member => ?_
      rw [canProcessOperation_fallback well member, decide_eq_false (Ne.symm alienDisk),
        Bool.and_false]
    constructor
    · intro addressed
      exact addressed.missed misses
    · intro absent
      refine ⟨fun g i located => ?_, fun _ => absent⟩
      rw [misses] at located
      cases located

end Requests

/-! ## Deletes -/

section Delete

variable {dc dc' : DiskController engine} {makeDir : MakeDir} {op : Operation} {node : NodeName}
  {key : BobKey keySize} {bobMeta : BobMeta} {forceDelete : Bool}

private theorem ident_deleteAlienFrom {done done' : AlienDelete keySize}
    {groups groups' : List (Group engine)}
    (result : deleteAlienFrom op key bobMeta forceDelete done groups = .ok (done', groups')) :
    groups'.map Group.ident = groups.map Group.ident := by
  induction groups generalizing done groups' with
  | nil =>
    cases result
    rfl
  | cons group rest ih =>
    unfold deleteAlienFrom at result
    by_cases accepts : group.canProcessOperation op = true
    · rw [if_pos accepts] at result
      obtain ⟨⟨res, marked⟩, hdelete, result⟩ := bind_eq_ok_iff.mp result
      obtain ⟨⟨done₁, rest₁⟩, hrest, result⟩ := bind_eq_ok_iff.mp result
      cases result
      have same : marked.ident = group.ident := by
        rw [Group.ident_delete hdelete]
        split_ifs <;> rfl
      rw [List.map_cons, List.map_cons, same, ih hrest]
    · rw [if_neg accepts] at result
      obtain ⟨⟨done₁, rest₁⟩, hrest, result⟩ := bind_eq_ok_iff.mp result
      cases result
      rw [List.map_cons, List.map_cons, ih hrest]

private theorem foldl_processError_wellAddressed {errors : List (Error keySize)}
    (well : dc.WellAddressed) : (errors.foldl processError dc).WellAddressed := by
  induction errors generalizing dc with
  | nil => exact well
  | cons e rest ih => exact ih (processError_wellAddressed well)

/-- An alien delete creates at most the group it is addressed to. -/
private theorem deleteAlien_wellAddressed {res : Except (Error keySize) ℕ} (well : dc.WellAddressed)
    (named : op.remoteNodeName = some node) (addressed : dc.Addressed op node)
    (result : dc.deleteAlien makeDir op key bobMeta forceDelete = .ok (res, dc')) :
    dc'.WellAddressed := by
  unfold deleteAlien at result
  split_ifs at result with ready forced
  · obtain ⟨found, hfound, result⟩ := bind_eq_ok_iff.mp result
    split at result
    · rename_i group index dc₁
      obtain ⟨⟨answer, marked⟩, hdelete, result⟩ := bind_eq_ok_iff.mp result
      have same := Group.ident_delete hdelete
      have well₁ : (dc₁.setGroup index marked).WellAddressed := by
        rcases getOrCreatePearl_cases named hfound with
          ⟨located, rfl⟩ | ⟨missing, new, rfl, rfl⟩
        · have stored := (firstMatch_eq_some_iff.mp located).1
          exact wellAddressed_congr well (map_set_of_eq stored same) rfl
        · have address : group.address = (node, op.vdiskId) := by rw [new]; rfl
          have grown := append_wellAddressed well (address ▸ addressed.missed missing)
            (by rw [new]; rfl)
          refine wellAddressed_congr grown (map_set_of_eq ?_ same) rfl
          exact List.getElem?_concat_length
      cases answer with
      | ok count =>
        cases result
        exact well₁
      | error e =>
        cases result
        exact processError_wellAddressed well₁
    · cases result
      exact well
  · obtain ⟨⟨done, groups⟩, hdone, result⟩ := bind_eq_ok_iff.mp result
    have well₁ : WellAddressed { dc with groups := groups } :=
      wellAddressed_congr well (ident_deleteAlienFrom hdone) rfl
    have well₂ : WellAddressed (done.processed.foldl processError { dc with groups := groups }) :=
      foldl_processError_wellAddressed well₁
    dsimp only at result
    split at result
    · cases result
      exact well₂
    · cases result
      exact well₂
  · cases result
    exact well

end Delete

end DiskController

/-! ## Runs of the backend -/

/-- Requests that can reach the alien store. -/
inductive AlienRequest (keySize : ℕ)
  | putAlien (node : NodeName) (vdiskId : VDiskId) (key : BobKey keySize) (data : BobData)
  | putLocal (vdiskId : VDiskId) (path : DiskPath) (key : BobKey keySize) (data : BobData)
  | deleteAlien (node : NodeName) (vdiskId : VDiskId) (key : BobKey keySize) (bobMeta : BobMeta)
      (forceDelete : Bool)

namespace AlienRequest

/-- Each call site builds its own kind of operation. -/
def serve (mapper : Virtual) (makeDir : MakeDir) :
    AlienRequest keySize → StateT (Pearl engine) (Except Panic) (Except (Error keySize) Unit)
  | putAlien node vdiskId key data =>
    putSingle (Pearl.storage makeDir) mapper key data
      ((Operation.newAlien vdiskId).setRemoteNodeName node)
  | putLocal vdiskId path key data =>
    putSingle (Pearl.storage makeDir) mapper key data (.newLocal vdiskId path)
  | deleteAlien node vdiskId key bobMeta forceDelete => do
    let res ← deleteSingle (Pearl.storage makeDir) key bobMeta
      ((Operation.newAlien vdiskId).setRemoteNodeName node) forceDelete
    return res.map fun _ => ()

/-- A local put that falls back finds its way in the alien store. -/
def Safe (mapper : Virtual) (p : Pearl engine) : AlienRequest keySize → Prop
  | putLocal vdiskId path key data =>
    ∀ e p', p.put (.newLocal vdiskId path) key data = .ok (.error e, p') → e.isDuplicate = false →
      p.alienDiskController.FallbackSafe mapper.localNodeName vdiskId path.name
  | _ => True

/-- A put is written to the alien group of its node and vdisk; of a local put, that is
this node, and only when it falls back. -/
def Filed (mapper : Virtual) (p p' : Pearl engine) (res : Except (Error keySize) Unit) :
    AlienRequest keySize → Prop
  | putAlien node vdiskId key data =>
    p.alienDiskController.AlienWrite node vdiskId key data res p'.alienDiskController
  | putLocal vdiskId path key data =>
    ∃ localRes p₁, p.put (.newLocal vdiskId path) key data = .ok (localRes, p₁) ∧
      match localRes with
      | .ok () => p'.alienDiskController = p.alienDiskController
      | .error e =>
        if e.isDuplicate then p'.alienDiskController = p.alienDiskController
        else ∃ alienRes, p.alienDiskController.AlienWrite mapper.localNodeName vdiskId key data
          alienRes p'.alienDiskController
  | deleteAlien .. => True

variable {mapper : Virtual} {makeDir : MakeDir} {p p' : Pearl engine}
  {res : Except (Error keySize) Unit}

private theorem alien_put {op : Operation} {key : BobKey keySize} {data : BobData}
    (result : p.put op key data = .ok (res, p')) :
    p'.alienDiskController = p.alienDiskController := by
  unfold Pearl.put at result
  split at result
  · obtain ⟨⟨answer, dc⟩, -, result⟩ := bind_eq_ok_iff.mp result
    cases result
    rfl
  · cases result
    rfl

private theorem putAlien_pearl {op : Operation} {key : BobKey keySize} {data : BobData}
    (result : p.putAlien makeDir op key data = .ok (res, p')) :
    p.alienDiskController.putAlien makeDir op key data = .ok (res, p'.alienDiskController) := by
  obtain ⟨⟨answer, dc⟩, hput, result⟩ := bind_eq_ok_iff.mp result
  cases result
  exact hput

/-- What a request does to a well-addressed alien store, if it is safe. -/
theorem serve_spec {request : AlienRequest keySize} (well : p.alienDiskController.WellAddressed)
    (safe : request.Safe mapper p) (served : request.serve mapper makeDir p = .ok (res, p')) :
    request.Filed mapper p p' res ∧ p'.alienDiskController.WellAddressed := by
  cases request with
  | putAlien node vdiskId key data =>
    exact DiskController.putAlien_spec well rfl DiskController.addressed_alien
      (putAlien_pearl served)
  | putLocal vdiskId path key data =>
    obtain ⟨⟨localRes, p₁⟩, hlocal, rest⟩ := bind_eq_ok_iff.mp served
    have untouched := alien_put hlocal
    cases localRes with
    | ok done =>
      cases rest
      exact ⟨⟨_, _, hlocal, untouched⟩, untouched ▸ well⟩
    | error e =>
      dsimp only at rest
      by_cases duplicate : e.isDuplicate = true
      · rw [if_pos duplicate] at rest
        cases rest
        exact ⟨⟨_, _, hlocal, by simpa [duplicate] using untouched⟩, untouched ▸ well⟩
      · rw [if_neg duplicate] at rest
        obtain ⟨⟨alienRes, p₂⟩, halien, rest⟩ := bind_eq_ok_iff.mp rest
        cases rest
        -- The alien store has not changed since the request was found safe.
        have fallback := safe e p₁ hlocal (Bool.eq_false_iff.mpr duplicate)
        have addressed := (DiskController.addressed_fallback_iff well).mpr fallback
        have written := putAlien_pearl halien
        rw [untouched] at written
        obtain ⟨filed, well'⟩ := DiskController.putAlien_spec well rfl addressed written
        exact ⟨⟨_, _, hlocal, by simpa [duplicate] using ⟨_, filed⟩⟩, well'⟩
  | deleteAlien node vdiskId key bobMeta forceDelete =>
    obtain ⟨⟨count, p₁⟩, hdelete, rest⟩ := bind_eq_ok_iff.mp served
    cases rest
    refine ⟨trivial, ?_⟩
    have deleted : p.deleteAlien makeDir ((Operation.newAlien vdiskId).setRemoteNodeName node) key
      bobMeta forceDelete = .ok (count, p') := hdelete
    unfold Pearl.deleteAlien at deleted
    split_ifs at deleted
    · obtain ⟨⟨answer, dc⟩, hdc, deleted⟩ := bind_eq_ok_iff.mp deleted
      cases deleted
      -- a forced delete may create the group, as a put does
      exact DiskController.deleteAlien_wellAddressed well rfl DiskController.addressed_alien hdc
    · cases deleted
      exact well

/-- A request that is safe in the state in which it is served. -/
def SafeStep (mapper : Virtual) (p p' : Pearl engine) : Prop :=
  ∃ (makeDir : MakeDir) (request : AlienRequest keySize) (res : Except (Error keySize) Unit),
    request.Safe mapper p ∧ request.serve mapper makeDir p = .ok (res, p')

/-- Along a run of safe requests the addresses stay distinct. -/
private theorem wellAddressed_of_run (start : p.alienDiskController.WellAddressed)
    (run : Relation.ReflTransGen (SafeStep mapper) p p') :
    p'.alienDiskController.WellAddressed := by
  induction run with
  | refl => exact start
  | tail _ step ih =>
    obtain ⟨makeDir, request, res, safe, served⟩ := step
    exact (serve_spec ih safe served).2

/-- In every state that safe requests lead to, no two alien groups have the same
address, and the next safe request files its data under the address it is meant for. -/
theorem safe_requests_keep_addresses (start : p.alienDiskController.WellAddressed)
    (run : Relation.ReflTransGen (SafeStep mapper) p p') :
    (p'.alienDiskController.groups.map Group.address).Nodup ∧
      ∀ (makeDir : MakeDir) (request : AlienRequest keySize) (res : Except (Error keySize) Unit)
        (p'' : Pearl engine), request.Safe mapper p' →
        request.serve mapper makeDir p' = .ok (res, p'') → request.Filed mapper p' p'' res := by
  have well := wellAddressed_of_run start run
  refine ⟨well.distinct, ?_⟩
  intro makeDir request res p'' safe served
  exact (serve_spec well safe served).1

/-! ## Two puts that fall back -/

/-- The small store: its disks are not running, and the alien store is empty. -/
def stoppedPearl : Pearl (logEngine 8) where
  diskControllers := Pearl.smallSettings.readGroupFromDisk Virtual.smallMapper ⟨"alpha"⟩ .launched
  alienDiskController :=
    { DiskController.new Pearl.smallSettings ⟨"alpha"⟩ ⟨⟨"disk1"⟩, "/mnt/1/alien/"⟩ [] true with
      state := .ready }

/-- Every directory can be made. -/
def anyDir : MakeDir := fun _ _ => .ok ()

/-- A put to a disk, which falls back as long as the disk does not run. -/
def putToDisk (vdiskId : VDiskId) (disk path : String) : AlienRequest 8 :=
  .putLocal vdiskId ⟨⟨disk⟩, path⟩ Pearl.doubleKey ⟨[], ⟨7⟩⟩

/-- The addresses of the alien groups after some requests. -/
def addressesAfter (requests : List (AlienRequest 8)) :
    Except Panic (List (NodeName × VDiskId)) := do
  let (_, p) ← (requests.forM fun request => do
    let _ ← request.serve Virtual.smallMapper anyDir) stoppedPearl
  return p.alienDiskController.groups.map Group.address

/-- Two puts that fall back from the second disk leave two groups with one address.
One that falls back from the alien disk makes no group where there is one of another node. -/
theorem fallback_puts_miss_their_group :
    stoppedPearl.alienDiskController.WellAddressed ∧
      addressesAfter [putToDisk 1 "disk2" "/mnt/2", putToDisk 1 "disk2" "/mnt/2"] =
        .ok [(⟨"alpha"⟩, 1), (⟨"alpha"⟩, 1)] ∧
      addressesAfter
          [.putAlien ⟨"beta"⟩ 0 Pearl.doubleKey ⟨[], ⟨7⟩⟩, putToDisk 0 "disk1" "/mnt/1"] =
        .ok [(⟨"beta"⟩, 0)] := by
  refine ⟨⟨List.nodup_nil, by simp [stoppedPearl, DiskController.new]⟩, ?_, ?_⟩
  · rfl
  · rfl

/-- A first put that falls back is safe, and leaves distinct addresses. -/
theorem first_fallback_keeps_addresses :
    ∃ p : Pearl (logEngine 8), Relation.ReflTransGen (SafeStep Virtual.smallMapper) stoppedPearl p ∧
      (p.alienDiskController.groups.map Group.address).Nodup := by
  have start : stoppedPearl.alienDiskController.WellAddressed :=
    ⟨List.nodup_nil, by simp [stoppedPearl, DiskController.new]⟩
  have safe : (putToDisk 1 "disk2" "/mnt/2").Safe Virtual.smallMapper stoppedPearl := by
    intro e p' _ _
    exact List.not_mem_nil
  obtain ⟨res, p, served⟩ : ∃ res p, (putToDisk 1 "disk2" "/mnt/2").serve Virtual.smallMapper anyDir
      stoppedPearl = .ok (res, p) := ⟨_, _, rfl⟩
  have run : Relation.ReflTransGen (SafeStep Virtual.smallMapper) stoppedPearl p :=
    .tail .refl ⟨anyDir, _, res, safe, served⟩
  exact ⟨p, run, (safe_requests_keep_addresses start run).1⟩

end AlienRequest

end Bob.Backend

/-
# Calls to the other nodes

Requests to other nodes are spawned together and finish in any order. The loops
of this module wait for them: one stops as soon as the answers account for enough
replicas and leaves the rest running, the other waits for all. What they return
is characterised by the calls they consumed. Whether a node answers is decided
elsewhere; no spawned task is cancelled, so waiting for one always yields its
answer.
-/

import Bob.Backend.Core

namespace Bob.Cluster

open Bob.Math

variable {keySize : ℕ} {res err : Type}

/-- What a spawned call returns: an answer or an error, tagged with the node. -/
abbrev CallResult (res err : Type) := Except (NodeOutput err) (NodeOutput res)

/-- How many replicas an answer accounts for. -/
class AffectedReplicasProvider (res : Type) where
  getAffectedReplicasCount : res → ℕ

export AffectedReplicasProvider (getAffectedReplicasCount)

instance : AffectedReplicasProvider Unit where
  getAffectedReplicasCount := fun _ => 1

structure RemotePutResponse where
  affectedReplicas : ℕ
  deriving DecidableEq, Repr

instance : AffectedReplicasProvider RemotePutResponse where
  getAffectedReplicasCount := RemotePutResponse.affectedReplicas

structure RemotePutError (keySize : ℕ) where
  affectedReplicas : ℕ
  error : Error keySize
  deriving DecidableEq, Repr

structure RemoteDeleteError (keySize : ℕ) where
  forceAlienNodes : List NodeName
  error : Error keySize
  deriving DecidableEq, Repr

/-- A call to a node tags whatever comes back with the name of the node. -/
def callNode (node : Node) (answer : Except (Error keySize) res) :
    CallResult res (Error keySize) :=
  match answer with
  | .ok r => .ok ⟨node.name, r⟩
  | .error e => .error ⟨node.name, e⟩

/-- The quorum policy of one node. -/
structure Quorum where
  mapper : Virtual
  quorum : ℕ

/-! ## Waiting for enough replicas -/

/-- The answers and errors a waiting loop has met so far. -/
structure Gathered (res err : Type) where
  oks : List (NodeOutput res)
  errors : List (NodeOutput err)

/-- File one finished call, and return the replicas it accounts for. -/
def processResult [AffectedReplicasProvider res] (joinRes : CallResult res err)
    (acc : Gathered res err) : ℕ × Gathered res err :=
  match joinRes with
  | .ok r => (getAffectedReplicasCount r.inner, { acc with oks := acc.oks ++ [r] })
  | .error e => (0, { acc with errors := acc.errors ++ [e] })

/-- Take finished calls until enough replicas are accounted for. The calls still
running are returned first. -/
def finishAtLeastHandles [AffectedReplicasProvider res] (atLeast okCount : ℕ)
    (acc : Gathered res err) :
    List (CallResult res err) → List (CallResult res err) × Gathered res err
  | [] => ([], acc)
  | joinRes :: rest =>
    if okCount < atLeast then
      let (count, acc) := processResult joinRes acc
      finishAtLeastHandles atLeast (okCount + count) acc rest
    else (joinRes :: rest, acc)

def callAtLeast {op : Type} [AffectedReplicasProvider res] (order : AnyOrder (CallResult res err))
    (targetNodes : List op) (atLeast : ℕ) (f : op → CallResult res err) :
    List (CallResult res err) × Gathered res err :=
  finishAtLeastHandles atLeast 0 ⟨[], []⟩ (order.arrange (targetNodes.map f))

/-- The replicas a finished call accounts for. -/
def replicasOf [AffectedReplicasProvider res] : CallResult res err → ℕ
  | .ok r => getAffectedReplicasCount r.inner
  | .error _ => 0

/-- The answer in a finished call, if it is one. -/
def okOf : CallResult res err → Option (NodeOutput res)
  | .ok r => some r
  | .error _ => none

/-- The error in a finished call, if it is one. -/
def errorOf : CallResult res err → Option (NodeOutput err)
  | .ok _ => none
  | .error e => some e

/-- The loop consumes finished calls until their replicas reach the bound, and
files each of them. -/
theorem finishAtLeastHandles_eq [AffectedReplicasProvider res] {atLeast okCount : ℕ}
    {acc : Gathered res err} {handles : List (CallResult res err)} :
    finishAtLeastHandles atLeast okCount acc handles =
      let (consumed, left) := consumeUntil replicasOf atLeast okCount handles
      (left, ⟨acc.oks ++ consumed.filterMap okOf, acc.errors ++ consumed.filterMap errorOf⟩) := by
  induction handles generalizing okCount acc with
  | nil => simp [finishAtLeastHandles, consumeUntil]
  | cons joinRes rest ih =>
    rw [finishAtLeastHandles, consumeUntil]
    split_ifs with below
    · cases joinRes with
      | ok r => simp [processResult, ih, replicasOf, okOf, errorOf, List.filterMap_cons]
      | error e => simp [processResult, ih, replicasOf, okOf, errorOf, List.filterMap_cons]
    · simp

/-- The replicas of the answers are the replicas of the calls. -/
theorem sum_replicas_filterMap_okOf [AffectedReplicasProvider res]
    {handles : List (CallResult res err)} :
    ((handles.filterMap okOf).map fun r => getAffectedReplicasCount r.inner).sum =
      (handles.map replicasOf).sum := by
  induction handles with
  | nil => rfl
  | cons joinRes rest ih =>
    cases joinRes with
    | ok r => simp [okOf, replicasOf, ih]
    | error e => simp [okOf, replicasOf, ih, List.filterMap_cons]

/-! ## Waiting for all calls -/

/-- Wait for every call; the order in which they finish is the order of the errors. -/
def finishAllHandles (handles : List (CallResult Unit err)) : List (NodeOutput err) :=
  (handles.foldl (fun acc joinRes => (processResult joinRes acc).2) ⟨[], []⟩).errors

/-- The calls run in an order nobody controls, and finish in another. -/
def callAll {m : Type → Type} [Monad m] {op : Type} (serveOrder : AnyOrder op)
    (order : AnyOrder (CallResult Unit err)) (operations : List op)
    (f : op → m (CallResult Unit err)) : m (ℕ × List (NodeOutput err)) := do
  if operations.isEmpty then
    return (0, [])
  else
    let handles ← (serveOrder.arrange operations).mapM f
    return (operations.length, finishAllHandles (order.arrange handles))

private theorem errors_foldl_processResult {handles : List (CallResult Unit err)}
    {acc : Gathered Unit err} :
    (handles.foldl (fun acc joinRes => (processResult joinRes acc).2) acc).errors =
      acc.errors ++ handles.filterMap errorOf := by
  induction handles generalizing acc with
  | nil => simp
  | cons joinRes rest ih =>
    rw [List.foldl_cons, ih]
    cases joinRes with
    | ok r => simp [processResult, errorOf, List.filterMap_cons]
    | error e => simp [processResult, errorOf]

/-- An error comes out exactly when some call failed with it. -/
theorem mem_finishAllHandles_iff {handles : List (CallResult Unit err)} {e : NodeOutput err} :
    e ∈ finishAllHandles handles ↔ .error e ∈ handles := by
  rw [finishAllHandles, errors_foldl_processResult, List.nil_append, List.mem_filterMap]
  constructor
  · rintro ⟨joinRes, finished, failed⟩
    cases joinRes with
    | ok r => cases failed
    | error e' =>
      cases failed
      exact finished
  · exact fun failed => ⟨_, failed, rfl⟩

end Bob.Cluster

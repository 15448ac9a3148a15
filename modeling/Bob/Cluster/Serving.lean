/-
# Requests served by the nodes of a cluster

Seen from its stores, all that happens in a cluster is that nodes serve requests: those
that other nodes send them, and those that a node makes of its own backend while it
coordinates an operation. The requests of any number of operations are served one after
the other, in an order that nobody controls. Whatever the sequence is, nothing that was
stored gets lost, and a read of the cluster returns nothing but data that was put under
its key.
-/

import Bob.Backend.Copies
import Bob.Cluster.Network

namespace Bob.Cluster

open Bob.Math Bob.Configs Bob.Backend

variable {keySize : ℕ} {engine : StorageEngine keySize}

/-- What the backend of a node is asked: with options by another node, with an operation
by the node itself. -/
inductive NodeRequest (keySize : ℕ)
  | put (key : BobKey keySize) (data : BobData) (options : BobPutOptions)
  | delete (key : BobKey keySize) (bobMeta : BobMeta) (options : BobDeleteOptions)
  | get (key : BobKey keySize) (options : BobGetOptions)
  | exist (order : AnyOrder (Sigma fun _ : Operation => List (BobKey keySize) × List ℕ))
      (keys : List (BobKey keySize)) (options : BobGetOptions)
  | putLocal (key : BobKey keySize) (data : BobData) (op : Operation)
  | deleteLocal (key : BobKey keySize) (bobMeta : BobMeta) (op : Operation) (forceDelete : Bool)
  | getLocal (key : BobKey keySize) (op : Operation)

namespace NodeRequest

section Serve

variable {m : Type → Type} [Monad m] [MonadLiftT (Except Panic) m]

/-- Serve a request, and say whether the answer is one without an error. -/
def serve (inner : BackendStorage m keySize) (mapper : Virtual) : NodeRequest keySize → m Bool
  | put key data options => do
    let answer ← Backend.put inner mapper key data options
    return answer.isOk
  | delete key bobMeta options => do
    let answer ← Backend.delete inner mapper key bobMeta options
    return answer.isOk
  | get key options => do
    let answer ← Backend.get inner mapper key options
    return answer.isOk
  | exist order keys options => do
    let answer ← Backend.exist inner mapper order keys options
    return answer.isOk
  | putLocal key data op => do
    let answer ← Backend.putLocal inner mapper key data op
    return answer.isOk
  | deleteLocal key bobMeta op forceDelete => do
    let answer ← Backend.deleteLocal inner key bobMeta op forceDelete
    return answer.isOk
  | getLocal key op => do
    let answer ← Backend.getLocal inner key op
    return answer.isOk

end Serve

/-- The record that the request may write. -/
def writes : NodeRequest keySize → Option (BobKey keySize × Record)
  | put key data _ => some (key, .value data)
  | delete key bobMeta _ => some (key, .marker bobMeta.timestamp.toNat)
  | putLocal key data _ => some (key, .value data)
  | deleteLocal key bobMeta _ _ => some (key, .marker bobMeta.timestamp.toNat)
  | get _ _ => none
  | exist _ _ _ => none
  | getLocal _ _ => none

variable {lawful : engine.Lawful} {allowed : BobKey keySize → Record → Prop}
  {mapper : Virtual} {p p' : Pearl engine}

/-- What the node keeps of a request that it has answered without an error. -/
def Kept (lawful : engine.Lawful) (mapper : Virtual) (p : Pearl engine) :
    NodeRequest keySize → Prop
  | put key data options => p.KeepsPut lawful mapper key data options
  | putLocal key data op => p.Copied lawful op key data
  | _ => True

theorem Kept.of_extends {request : NodeRequest keySize} (kept : request.Kept lawful mapper p)
    (step : p.Extends lawful allowed p') : request.Kept lawful mapper p' := by
  cases request with
  | put key data options => exact Pearl.stable_keepsPut lawful mapper p p' step kept
  | putLocal key data op => exact Pearl.stable_copied p p' step kept
  | delete key bobMeta options => trivial
  | get key options => trivial
  | exist order keys options => trivial
  | deleteLocal key bobMeta op forceDelete => trivial
  | getLocal key op => trivial

/-- A request extends the stores by no more than what it writes, and if it is answered
without an error, the node keeps it. -/
theorem yields_serve (lawful : engine.Lawful) (makeDir : MakeDir) (mapper : Virtual)
    (request : NodeRequest keySize) (allows : ∀ key r, request.writes = some (key, r) →
      allowed key r) :
    Yields (Pearl.Extends lawful allowed) (fun ok p => ok = true → request.Kept lawful mapper p)
      (request.serve (Pearl.storage makeDir) mapper :
        StateT (Pearl engine) (Except Panic) Bool) := by
  have deletes {α : Type} {c : StateT (Pearl engine) (Except Panic) α} {f : α → Bool}
      (yields : Yields (Pearl.Extends lawful allowed) (fun _ _ => True) c) :
      Yields (Pearl.Extends lawful allowed) (fun ok _ => ok = true → True) (do return f (← c)) :=
    (yields.map f).weaken fun _ _ _ _ => trivial
  have reads {α : Type} {c : StateT (Pearl engine) (Except Panic) α} {f : α → Bool}
      {Q : α → Pearl engine → Prop} (yields : Yields Eq Q c) :
      Yields (Pearl.Extends lawful allowed) (fun ok _ => ok = true → True) (do return f (← c)) := by
    intro p ok p' ran
    obtain ⟨rfl, -⟩ := yields.map f p ok p' ran
    exact ⟨.refl _, fun _ => trivial⟩
  -- a put is kept if it is answered without an error; the others promise nothing
  cases request with
  | put key data options =>
    refine ((Pearl.yields_put_backend lawful makeDir mapper (allows _ _ rfl) options).map
      Except.isOk).weaken ?_
    rintro _ p ⟨answer, rfl, kept⟩ fine
    cases answer with
    | ok => exact kept rfl
    | error e => cases fine
  | putLocal key data op =>
    refine ((Pearl.yields_putSingle lawful makeDir mapper (allows _ _ rfl) op).map
      Except.isOk).weaken ?_
    rintro _ p ⟨answer, rfl, kept⟩ fine
    cases answer with
    | ok => exact kept rfl
    | error e => cases fine
  | delete key bobMeta options =>
    exact deletes (Pearl.yields_delete_backend lawful makeDir mapper (allows _ _ rfl) options)
  | deleteLocal key bobMeta op forceDelete =>
    refine deletes ?_
    unfold Backend.deleteLocal Backend.deleteSingle
    split_ifs
    · exact Pearl.yields_deleteAlien lawful makeDir (allows _ _ rfl) forceDelete
    · exact Pearl.yields_delete lawful makeDir (allows _ _ rfl)
  | get key options => exact reads (Pearl.yields_get lawful makeDir mapper options)
  | exist order keys options => exact reads (Pearl.yields_exist makeDir mapper order keys options)
  | getLocal key op => exact reads (Pearl.yields_getSingle lawful makeDir op)

end NodeRequest

/-! ## The cluster -/

variable {d : Deployment} {lawful : engine.Lawful} {net net' : Network engine}
  {requests : List (NodeName × NodeRequest keySize)} {answers : List Bool}
  {key : BobKey keySize} {data : BobData}

/-- A node of the cluster serves a request. -/
def Deployment.serve (d : Deployment) (request : NodeName × NodeRequest keySize) :
    StateT (Network engine) (Except Panic) Bool :=
  focus request.1
    (request.2.serve (Pearl.storage (d.makeDir request.1)) (d.mapper request.1))

/-- One of the requests may write the record. -/
def Written (requests : List (NodeName × NodeRequest keySize)) (key : BobKey keySize)
    (r : Record) : Prop :=
  ∃ request ∈ requests, request.2.writes = some (key, r)

/-- The record is on some node. -/
def Network.Holds (lawful : engine.Lawful) (net : Network engine) (key : BobKey keySize)
    (r : Record) : Prop :=
  ∃ name, (net name).Holds lawful key r

/-- A sequence of requests extends the stores by no more than what the requests write, and
at its end the nodes keep what they have answered without an error. -/
theorem yields_requests (lawful : engine.Lawful) (d : Deployment)
    (requests : List (NodeName × NodeRequest keySize)) :
    Yields (Everywhere (Pearl.Extends lawful (Written requests)))
      (fun answers (net : Network engine) => ∀ entry ∈ requests.zip answers, entry.2 = true →
        entry.1.2.Kept lawful (d.mapper entry.1.1) (net entry.1.1))
      (requests.mapM d.serve) := by
  -- what a node keeps of a request, it still keeps after the later ones
  refine Yields.mapM
    (Q := fun (request : NodeName × NodeRequest keySize) ok (net : Network engine) => ok = true →
      request.2.Kept lawful (d.mapper request.1) (net request.1)) (fun request member => ?_)
    fun request _ ok net net' step kept fine => (kept fine).of_extends (step request.1)
  exact (NodeRequest.yields_serve lawful _ _ request.2
    fun key r writes => ⟨request, member, writes⟩).focus request.1

/-- After a sequence of requests, a record was there before or one of them wrote it. -/
theorem holds_or_written (ran : requests.mapM d.serve net = .ok (answers, net')) {r : Record}
    (held : net'.Holds lawful key r) : net.Holds lawful key r ∨ Written requests key r := by
  obtain ⟨name, held⟩ := held
  obtain ⟨step, -⟩ := yields_requests lawful d requests net answers net' ran
  exact ((step name).added held).imp_left fun before => ⟨name, before⟩

/-! ## Reading from the cluster -/

variable {reader : NodeName} {world : GetWorld keySize}

/-- What a read meets is what the stores say, as far as calls get through. -/
structure Deployment.Honest (d : Deployment) (net : Network engine) (reader : NodeName)
    (key : BobKey keySize) (world : GetWorld keySize) : Prop where
  getLocal : ∀ op, world.getLocal op key =
    answerOf (Backend.getLocal (Pearl.storage (d.makeDir reader)) key op (net reader))
  call : ∀ node options data, world.call node options key = .ok data →
    answerOf (Backend.get (Pearl.storage (d.makeDir node.name)) (d.mapper node.name) key options
      (net node.name)) = .ok data

/-- What a read returns is an answer of the local backend or of another node. -/
theorem exists_answer_of_get {q : Quorum} (read : q.get world key = .ok (.ok data)) :
    (∃ op, world.getLocal op key = .ok data) ∨
      ∃ node options, world.call node options key = .ok data := by
  have found_any {order : AnyOrder (GetTask keySize)} {nodes : List Node}
      {options : BobGetOptions} {value : BobData}
      (found : (getAny world order key nodes options).map (·.inner) = some value) :
      ∃ node, world.call node options key = .ok value := by
    obtain ⟨output, any, rfl⟩ := Option.map_eq_some_iff.mp found
    obtain ⟨task, listed, ok⟩ := List.exists_of_findSome?_eq_some any
    obtain ⟨node, -, rfl⟩ := List.mem_map.mp (AnyOrder.mem_arrange.mp listed)
    refine ⟨node, ?_⟩
    cases answer : world.call node options key with
    | error e => rw [answer] at ok; cases ok
    | ok other => rw [answer] at ok; cases ok; rfl
  -- the four places in their order: own disks, targets, own aliens, all aliens
  unfold Quorum.get at read
  obtain ⟨⟨vdiskId, diskPaths⟩, -, read⟩ := bind_eq_ok_iff.mp read
  dsimp only at read
  split at read
  · rename_i value found
    cases read
    obtain ⟨path, -, here⟩ := List.exists_of_findSome?_eq_some found
    exact Or.inl ⟨_, eq_ok_of_toOption here⟩
  obtain ⟨remote, asked, read⟩ := bind_eq_ok_iff.mp read
  split at read
  · cases read
    obtain ⟨targets, -, asked⟩ := bind_eq_ok_iff.mp asked
    obtain ⟨node, answered⟩ := found_any (Except.ok.inj asked)
    exact Or.inr ⟨node, _, answered⟩
  split at read
  · rename_i value found
    cases read
    exact Or.inl ⟨_, eq_ok_of_toOption found⟩
  split at read
  · rename_i value found
    cases read
    obtain ⟨node, answered⟩ := found_any found
    exact Or.inr ⟨node, _, answered⟩
  · cases read

/-- So some node holds it. -/
theorem Deployment.Honest.holds (honest : d.Honest net reader key world) (lawful : engine.Lawful)
    {q : Quorum} (read : q.get world key = .ok (.ok data)) :
    net.Holds lawful key (.value data) := by
  -- an answer with data is one of a run that returned
  have held {name : NodeName}
      {request : StateT (Pearl engine) (Except Panic) (Except (Error keySize) BobData)}
      (yields : Yields Eq (fun res p => ∀ data, res = .ok data → p.Holds lawful key (.value data))
        request) (answered : answerOf (request (net name)) = .ok data) :
      net.Holds lawful key (.value data) := by
    unfold answerOf at answered
    split at answered
    · rename_i answer p ran
      obtain ⟨rfl, holds⟩ := yields (net name) answer p ran
      exact ⟨name, holds data answered⟩
    · cases answered
  rcases exists_answer_of_get read with ⟨op, answered⟩ | ⟨node, options, answered⟩
  · rw [honest.getLocal op] at answered
    exact held (Pearl.yields_getSingle lawful _ op) answered
  · exact held (Pearl.yields_get lawful _ _ options) (honest.call node options data answered)

/-- Whatever requests of whatever operations the nodes have served, and whichever calls of
the read get through: a read of the cluster returns only data that one of the requests put
under the key, or that a node had for it before. -/
theorem read_returns_what_was_put (lawful : engine.Lawful)
    (ran : requests.mapM d.serve net = .ok (answers, net'))
    (honest : d.Honest net' reader key world)
    (read : (d.policy reader).get world key = .ok (.ok data)) :
    net.Holds lawful key (.value data) ∨ Written requests key (.value data) :=
  holds_or_written ran (honest.holds lawful read)

/-- A read whose calls all get through. -/
theorem Deployment.honest_getWorld (d : Deployment) (net : Network engine) (reader : NodeName)
    (key : BobKey keySize) (targetOrder alienOrder : AnyOrder (GetTask keySize)) :
    d.Honest net reader key (d.getWorld net reader targetOrder alienOrder) :=
  ⟨fun _ => rfl, fun _ _ _ answered => answered⟩

/-! ## The small cluster -/

/-- A controller without records. -/
def emptyController (name : NodeName) (isAlien : Bool) : DiskController (logEngine 8) where
  disk := ⟨⟨"disk1"⟩, "/mnt/1"⟩
  vdisks := if isAlien then [] else [0]
  nodeName := name
  groups := if isAlien then [] else [.new Pearl.smallSettings 0 name ⟨"disk1"⟩]
  state := .ready
  settings := Pearl.smallSettings
  isAlien := isAlien

/-- The nodes of the small cluster before anything is written. -/
def freshNetwork : Network (logEngine 8) := fun name =>
  { diskControllers := [emptyController name false]
    alienDiskController := emptyController name true }

theorem not_holds_freshNetwork (key : BobKey 8) (r : Record) :
    ¬ freshNetwork.Holds (logEngine.lawful 8) key r := by
  rintro ⟨name, g, member, holder, stored, -⟩
  obtain rfl := List.mem_singleton.mp member
  cases stored

/-- What requests to the small cluster lead to, as far as it can be evaluated. -/
theorem exists_run {α : Type} {requests : List (NodeName × NodeRequest 8)} {answers : List Bool}
    {a : α} {view : Network (logEngine 8) → α}
    (evaluated : (requests.mapM smallDeployment.serve freshNetwork).toOption.map
      (fun run => (run.1, view run.2)) = some (answers, a)) :
    ∃ net', requests.mapM smallDeployment.serve freshNetwork = .ok (answers, net') ∧
      view net' = a := by
  obtain ⟨⟨answers', net'⟩, ran, same⟩ := Option.map_eq_some_iff.mp evaluated
  obtain ⟨rfl, seen⟩ := Prod.mk.inj same
  exact ⟨net', eq_ok_of_toOption ran, seen⟩

/-- Two values are put under the key, and one of them is deleted before the other comes. -/
def smallRequests : List (NodeName × NodeRequest 8) :=
  [(⟨"beta"⟩, .put pairKey ⟨[1], ⟨7⟩⟩ .newLocal),
    (⟨"beta"⟩, .delete pairKey ⟨8⟩ .newLocal),
    (⟨"alpha"⟩, .putLocal pairKey ⟨[2], ⟨9⟩⟩ (.newLocal 0 ⟨⟨"disk1"⟩, "/mnt/1"⟩))]

theorem small_read_returns_what_was_put :
    ∃ net', smallRequests.mapM smallDeployment.serve freshNetwork =
        .ok ([true, true, true], net') ∧
      (smallDeployment.policy ⟨"gamma"⟩).get
          (smallDeployment.getWorld net' ⟨"gamma"⟩ .launched .launched) pairKey =
        .ok (.ok ⟨[2], ⟨9⟩⟩) ∧
      (freshNetwork.Holds (logEngine.lawful 8) pairKey (.value ⟨[2], ⟨9⟩⟩) ∨
        Written smallRequests pairKey (.value ⟨[2], ⟨9⟩⟩)) := by
  obtain ⟨net', ran, read⟩ := @exists_run _ smallRequests [true, true, true]
    (.ok (.ok ⟨[2], ⟨9⟩⟩)) (fun net => (smallDeployment.policy ⟨"gamma"⟩).get
      (smallDeployment.getWorld net ⟨"gamma"⟩ .launched .launched) pairKey) (by decide +kernel)
  exact ⟨net', ran, read, read_returns_what_was_put (logEngine.lawful 8) ran
    (smallDeployment.honest_getWorld net' _ pairKey _ _) read⟩

end Bob.Cluster

/-
# Calls between nodes

A node calls another one through a client. The client writes the request as a message and
its own name as credentials; the other node checks the name, reads the message, serves the
request with its backend and answers with a message or a status; and the client reads the
answer. Either half of the way the network may fail. A call that gets through is the request
to the backend of the other node. Whatever gets lost, a run of calls is a run of nodes that
serve some of them as requests to their stores, among them all that were acknowledged.
-/

import Bob.Server.Handlers

namespace Bob

open Bob.Math Bob.Backend

variable {keySize : ℕ}

/-- What a node asks of another one, by the type of the answer. -/
inductive Rpc (keySize : ℕ) : Type → Type
  | put (key : BobKey keySize) (data : BobData) (options : BobPutOptions) : Rpc keySize Unit
  | get (key : BobKey keySize) (options : BobGetOptions) : Rpc keySize BobData
  | exist (keys : List (BobKey keySize)) (options : BobGetOptions) : Rpc keySize (List Bool)
  | delete (key : BobKey keySize) (bobMeta : BobMeta) (options : BobDeleteOptions) :
      Rpc keySize Unit

/-- The other node is to serve the request itself. -/
def Rpc.forced {α : Type} : Rpc keySize α → Bool
  | put _ _ options => options.forceNode
  | get _ options => options.forceNode
  | exist _ options => options.forceNode
  | delete _ _ options => options.forceNode

variable {m : Type → Type} [Monad m] [MonadLiftT (Except Panic) m]

/-- The request to the backend. -/
def Rpc.perform {α : Type} (grinder : Grinder m keySize) :
    Rpc keySize α → m (Except (Error keySize) α)
  | put key data options => Backend.put grinder.inner grinder.mapper key data options
  | get key options => Backend.get grinder.inner grinder.mapper key options
  | exist keys options =>
    Backend.exist grinder.inner grinder.mapper grinder.order keys options
  | delete key bobMeta options =>
    Backend.delete grinder.inner grinder.mapper key bobMeta options

/-! ## The client -/

/-- The service of a node, as a client sees it. -/
structure BobApi (m : Type → Type) where
  put : Access.Extractor → Grpc.PutRequest → m (Except Status Unit)
  get : Access.Extractor → Grpc.GetRequest → m (Except Status Grpc.Blob)
  exist : Access.Extractor → Grpc.ExistRequest → m (Except Status (List Bool))
  delete : Access.Extractor → Grpc.DeleteRequest → m (Except Status Unit)

def Server.api (server : Server m keySize) : BobApi m :=
  ⟨server.put, server.get, server.exist, server.delete⟩

structure BobClient where
  targetNodeName : NodeName
  authHeader : String

namespace BobClient

def create (engine : Base64Engine) (node : Node) (localNodeName : NodeName) : BobClient where
  targetNodeName := node.name
  authHeader := "InterNode " ++ engine.encode localNodeName.str.toUTF8

variable (client : BobClient)

/-- The headers of a request. The address is the one that the other node sees. -/
def headers (address : Option Access.SocketAddr) : Access.Extractor where
  getHeader := fun header =>
    .ok (if header = "authorization" then some client.authHeader else none)
  remoteAddr := address

/-- The end of every call. -/
def tag {α : Type} : Except Status α → m (Except (NodeOutput (Error keySize)) (NodeOutput α))
  | .ok a => return .ok ⟨client.targetNodeName, a⟩
  | .error status => do
    -- reading the status may panic: it may hold the text of a key, which is parsed
    let e ← liftM (Error.ofStatus status : Except Panic (Error keySize))
    return .error ⟨client.targetNodeName, e⟩

variable (api : BobApi m) (address : Option Access.SocketAddr)

def put (key : BobKey keySize) (d : BobData) (options : Grpc.PutOptions) :
    m (Except (NodeOutput (Error keySize)) (NodeOutput Unit)) := do
  let blob : Grpc.Blob := ⟨d.inner, some ⟨d.bobMeta.timestamp⟩⟩
  let answer ← api.put (client.headers address)
    ⟨some ⟨key.bytes.toList⟩, some blob, some options⟩
  client.tag answer

/-- The answer of the other node has its timestamp. -/
def get (key : BobKey keySize) (options : Grpc.GetOptions) :
    m (Except (NodeOutput (Error keySize)) (NodeOutput BobData)) := do
  match ← api.get (client.headers address) ⟨some ⟨key.bytes.toList⟩, some options⟩ with
  | .ok ⟨data, some blobMeta⟩ => client.tag (.ok ⟨data, ⟨blobMeta.timestamp⟩⟩)
  -- the client expects the timestamp
  | .ok ⟨_, none⟩ =>
    liftM (.error ⟨"get blob meta"⟩ : Except Panic (Except (NodeOutput (Error keySize)) _))
  | .error e => client.tag (.error e)

def exist (keys : List (BobKey keySize)) (options : Grpc.GetOptions) :
    m (Except (NodeOutput (Error keySize)) (NodeOutput (List Bool))) := do
  let keys := keys.map fun key => Grpc.BlobKey.mk key.bytes.toList
  let answer ← api.exist (client.headers address) ⟨keys, some options⟩
  client.tag answer

def delete (key : BobKey keySize) (bobMeta : BobMeta) (options : Grpc.DeleteOptions) :
    m (Except (NodeOutput (Error keySize)) (NodeOutput Unit)) := do
  let answer ← api.delete (client.headers address)
    ⟨some ⟨key.bytes.toList⟩, some ⟨bobMeta.timestamp⟩, some options⟩
  client.tag answer

def call {α : Type} : Rpc keySize α → m (Except (NodeOutput (Error keySize)) (NodeOutput α))
  | .put key data options => client.put api address key data options.toGrpc
  | .get key options => client.get api address key options.toGrpc
  | .exist keys options => client.exist api address keys options.toGrpc
  | .delete key bobMeta options => client.delete api address key bobMeta options.toGrpc

end BobClient

/-! ## The network -/

/-- What becomes of a call. -/
inductive Fate
  | lost
  | unanswered
  | answered
  deriving DecidableEq, Repr

/-- A call that is not answered fails with a status of the transport, whether or not it has
been served. -/
def Fate.deliver {α : Type} (fate : Fate) (status : Status) (served : m (Except Status α)) :
    m (Except Status α) :=
  match fate with
  | .lost => pure (.error status)
  | .unanswered => do
    -- the request has had its effect, and the caller does not know
    let _ ← served
    return .error status
  | .answered => served

/-- The service over the network. -/
def BobApi.through (api : BobApi m) (fate : Fate) (status : Status) : BobApi m where
  put := fun headers req => fate.deliver status (api.put headers req)
  get := fun headers req => fate.deliver status (api.get headers req)
  exist := fun headers req => fate.deliver status (api.exist headers req)
  delete := fun headers req => fate.deliver status (api.delete headers req)

/-! ## Both halves together -/

theorem BobKey.ofVec_toList (key : BobKey keySize) : BobKey.ofVec key.bytes.toList = .ok key := by
  unfold BobKey.ofVec
  rw [dif_pos (by simp)]
  exact congrArg (fun bytes => Except.ok (BobKey.mk bytes))
    (Vector.toArray_inj.mp Array.toArray_toList)

theorem mapM_ofVec_toList (keys : List (BobKey keySize)) :
    (keys.map fun key => Grpc.BlobKey.mk key.bytes.toList).mapM (fun k => BobKey.ofVec k.key) =
      .ok keys := by
  rw [mapM_eq_ok_iff, List.forall₂_map_left_iff]
  exact List.forall₂_same.mpr fun key _ => key.ofVec_toList

/-- The permission that a call needs. -/
def Rpc.needs {α : Type} : Rpc keySize α → Access.Permissions → Bool
  | put _ _ _ => (·.hasWrite)
  | delete _ _ _ => (·.hasWrite)
  | get _ _ => (·.hasRead)
  | exist _ _ => (·.hasRead)

def Rpc.refusal {α : Type} : Rpc keySize α → String
  | put _ _ _ => "WRITE permission required"
  | delete _ _ _ => "WRITE permission required"
  | get _ _ => "READ permission required"
  | exist _ _ => "READ permission required"

section Calls

variable {σ α : Type} {server : Server (StateT σ (Except Panic)) keySize} {client : BobClient}
  {address : Option Access.SocketAddr} {fate : Fate} {status : Status} {rpc : Rpc keySize α}

/-- What the other node does with a call: nothing but the request to its backend. -/
def Server.attend (server : Server (StateT σ (Except Panic)) keySize) (headers : Access.Extractor)
    (rpc : Rpc keySize α) : StateT σ (Except Panic) (Except Status α) :=
  server.gate headers rpc.needs rpc.refusal do
    let res ← rpc.perform server.grinder
    return res.mapError Status.ofError

section Messages

variable {headers : Access.Extractor}

/-- A refused request stays refused whatever is made of the answer. -/
private theorem gate_map {β γ : Type} (f : β → γ) {has : Access.Permissions → Bool}
    {refusal : String} {body : StateT σ (Except Panic) (Except Status β)} :
    server.gate headers has refusal (do
        let res ← body
        return res.map f) =
      (do
        let res ← server.gate headers has refusal body
        return res.map f) := by
  unfold Server.gate
  split <;> rfl

private theorem put_eq_attend {key : BobKey keySize} {data : BobData} {options : BobPutOptions}
    (forced : options.forceNode = true) :
    server.put headers ⟨some ⟨key.bytes.toList⟩, some ⟨data.inner, some ⟨data.bobMeta.timestamp⟩⟩,
        some options.toGrpc⟩ = server.attend headers (.put key data options) := by
  refine congrArg (server.gate headers _ _) ?_
  have parts : Server.putExtract ⟨some ⟨key.bytes.toList⟩,
      some ⟨data.inner, some ⟨data.bobMeta.timestamp⟩⟩, some options.toGrpc⟩ =
      .ok (some (key, data.inner, data.bobMeta.timestamp, some options.toGrpc)) := by
    exact bind_eq_ok_iff.mpr ⟨key, key.ofVec_toList, rfl⟩
  rw [liftM_bind_eq parts]
  -- the options survive the message, and a forced request stays on the node
  dsimp only
  rw [BobPutOptions.fromGrpc_toGrpc, Grinder.put, if_pos forced]
  rfl

private theorem get_eq_attend {key : BobKey keySize} {options : BobGetOptions}
    (forced : options.forceNode = true) :
    server.get headers ⟨some ⟨key.bytes.toList⟩, some options.toGrpc⟩ = (do
      let res ← server.attend headers (.get key options)
      return res.map fun data => Grpc.Blob.mk data.inner (some ⟨data.bobMeta.timestamp⟩)) := by
  have parts : Server.getExtract ⟨some ⟨key.bytes.toList⟩, some options.toGrpc⟩ =
      .ok (some (key, some options.toGrpc)) := by
    exact bind_eq_ok_iff.mpr ⟨key, key.ofVec_toList, rfl⟩
  -- a read answers with a message, which the client takes apart again
  unfold Server.attend
  rw [← gate_map]
  refine congrArg (server.gate headers _ _) ?_
  rw [liftM_bind_eq parts]
  dsimp only
  rw [liftM_bind_eq options.fromGrpc_toGrpc, Grinder.get, if_pos forced, bind_assoc]
  refine bind_congr fun res => ?_
  cases res <;> rfl

private theorem exist_eq_attend {keys : List (BobKey keySize)} {options : BobGetOptions}
    (forced : options.forceNode = true) :
    server.exist headers ⟨keys.map fun key => ⟨key.bytes.toList⟩, some options.toGrpc⟩ =
      server.attend headers (.exist keys options) := by
  refine congrArg (server.gate headers _ _) ?_
  rw [liftM_bind_eq (mapM_ofVec_toList keys), liftM_bind_eq options.fromGrpc_toGrpc,
    Grinder.exist, if_pos forced]
  rfl

private theorem delete_eq_attend (quiet : server.grinder.requestIndexCleanup = pure ())
    {key : BobKey keySize} {bobMeta : BobMeta} {options : BobDeleteOptions}
    (forced : options.forceNode = true) :
    server.delete headers ⟨some ⟨key.bytes.toList⟩, some ⟨bobMeta.timestamp⟩,
        some options.toGrpc⟩ = server.attend headers (.delete key bobMeta options) := by
  refine congrArg (server.gate headers _ _) ?_
  have parts : Server.deleteExtract ⟨some ⟨key.bytes.toList⟩, some ⟨bobMeta.timestamp⟩,
      some options.toGrpc⟩ = .ok (some (key, bobMeta.timestamp, some options.toGrpc)) := by
    exact bind_eq_ok_iff.mpr ⟨key, key.ofVec_toList, rfl⟩
  rw [liftM_bind_eq parts]
  dsimp only
  rw [BobDeleteOptions.fromGrpc_toGrpc, Grinder.delete, if_pos forced, quiet]
  -- waking the cleaner changes nothing, so the answer passes through
  simp only [bind_assoc, pure_bind]
  rfl

end Messages

/-- A call is the delivery of what the other node does with it. -/
private theorem call_eq (quiet : server.grinder.requestIndexCleanup = pure ())
    (forced : rpc.forced = true) :
    client.call (server.api.through fate status) address rpc =
      (fate.deliver status (server.attend (client.headers address) rpc) >>= client.tag) := by
  cases rpc with
  | put key data options =>
    exact congrArg (fate.deliver status · >>= client.tag) (put_eq_attend forced)
  | exist keys options =>
    exact congrArg (fate.deliver status · >>= client.tag) (exist_eq_attend forced)
  | delete key bobMeta options =>
    exact congrArg (fate.deliver status · >>= client.tag) (delete_eq_attend quiet forced)
  | get key options =>
    unfold BobClient.call BobClient.get BobApi.through Server.api
    dsimp only
    rw [get_eq_attend forced]
    -- the other calls send their answer on; this one has to read it
    cases fate with
    | lost => rfl
    | unanswered => simp only [Fate.deliver, bind_assoc, pure_bind]
    | answered =>
      simp only [Fate.deliver, bind_assoc, pure_bind]
      refine bind_congr fun res => ?_
      cases res <;> rfl

/-! ## Calls that get through -/

/-- The header of a client has two words. -/
private theorem words_authHeader {engine : Base64Engine} (lawful : engine.Lawful) {node : Node}
    {localNodeName : NodeName} (named : localNodeName.str ≠ "") :
    (words isWhitespace (BobClient.create engine node localNodeName).authHeader.toList).map
        String.ofList = ["InterNode", engine.encode localNodeName.str.toUTF8] := by
  exact Access.words_header lawful (fun empty => named (String.toByteArray_inj.mp empty))
    (by decide) (by decide) (by simp [BobClient.create])

/-- The name of a node is read back from the header of its client. -/
theorem credentialsOf_headers {auth : Access.Authenticator} (basic : auth.credentialsType = .basic)
    {decoding : Access.Decoding} (lawful : decoding.base64.Lawful) {node : Node}
    {localNodeName : NodeName} (named : localNodeName.str ≠ "") :
    auth.credentialsOf decoding
        ((BobClient.create decoding.base64 node localNodeName).headers address) =
      ⟨address, some (.interNode localNodeName.str)⟩ := by
  have sent : ((BobClient.create decoding.base64 node localNodeName).headers address).getHeader
      "authorization" =
        .ok (some (BobClient.create decoding.base64 node localNodeName).authHeader) := rfl
  have extracted : ((BobClient.create decoding.base64 node localNodeName).headers
      address).extractBasic decoding = .ok ⟨address, some (.interNode localNodeName.str)⟩ := by
    unfold Access.Extractor.extractBasic
    rw [sent]
    simp only [bind, Except.bind, words_authHeader lawful named,
      Access.nodenameFromCredentials, Access.decodeText_encode lawful]
    rfl
  unfold Access.Authenticator.credentialsOf Access.Extractor.extract
  rw [basic]
  dsimp only
  rw [extracted]

/-- A call that gets through, from a node that the other node knows, is the request to the
backend of that node. Its error comes back as it is read from the status. -/
theorem remote_call_is_local {decoding : Access.Decoding} (lawful : decoding.base64.Lawful)
    {grinder : Grinder (StateT σ (Except Panic)) keySize}
    (quiet : grinder.requestIndexCleanup = pure ()) {b : Access.Basic} {users : Access.UsersMap}
    {sha512 : Access.Sha512} {now : ℕ} {node : Node} {localNodeName : NodeName}
    (named : localNodeName.str ≠ "")
    (known : (b.checkNode localNodeName.str address now).1 = true) (rpc : Rpc keySize α)
    (forced : rpc.forced = true) :
    (BobClient.create decoding.base64 node localNodeName).call
        (Server.mk grinder (b.authenticator users sha512 now) decoding).api address rpc =
      (do
        let res ← rpc.perform grinder
        (BobClient.create decoding.base64 node localNodeName).tag
          (res.mapError Status.ofError)) := by
  let server := Server.mk grinder (b.authenticator users sha512 now) decoding
  let client := BobClient.create decoding.base64 node localNodeName
  have through : server.api.through .answered ⟨.ok, ""⟩ = server.api := rfl
  have letIn : server.authorize (client.headers address) rpc.needs rpc.refusal = .ok () := by
    have checked : server.auth.checkCredentialsGrpc (server.auth.credentialsOf decoding
        (client.headers address)) = .ok Access.Permissions.all := by
      rw [credentialsOf_headers rfl lawful named]
      -- a node that is known may do everything
      change ((if (b.checkNode localNodeName.str address now).1 then _ else _ :
        Except Access.Error Access.Permissions).mapError _) = _
      rw [if_pos known]
      rfl
    unfold Server.authorize
    rw [checked]
    cases rpc <;> rfl
  change client.call server.api address rpc = _
  rw [← through, call_eq quiet forced]
  unfold Fate.deliver Server.attend Server.gate
  rw [letIn]
  dsimp only
  rw [bind_assoc]
  rfl

/-! ## Calls that may get lost -/

/-- The backend serves the request once or not at all. What is acknowledged it has served
without an error. -/
def ServedOnce (rpc : Rpc keySize α) (grinder : Grinder (StateT σ (Except Panic)) keySize)
    (s s' : σ) (acked : Bool) : Prop :=
  (acked = false ∧ s' = s) ∨
    ∃ res, rpc.perform grinder s = .ok (res, s') ∧ (acked = true → res.isOk = true)

variable {headers : Access.Extractor} {s s' : σ} {answer : Except Status α}

/-- The other node refuses a call, or its backend serves it. -/
private theorem servedOnce_of_attend
    (attended : server.attend headers rpc s = .ok (answer, s')) :
    ServedOnce rpc server.grinder s s' answer.isOk := by
  unfold Server.attend Server.gate at attended
  cases checked : server.authorize headers rpc.needs rpc.refusal with
  | error refusal =>
    rw [checked] at attended
    cases attended
    exact Or.inl ⟨rfl, rfl⟩
  | ok _ =>
    rw [checked] at attended
    obtain ⟨res, mid, performed, returned⟩ := bind_apply_eq_ok_iff.mp attended
    cases returned
    refine Or.inr ⟨res, performed, fun acked => ?_⟩
    cases res with
    | ok value => rfl
    | error e => cases acked

/-- On the way there and back, only an acknowledgement can get lost. -/
private theorem servedOnce_of_deliver
    (delivered : fate.deliver status (server.attend headers rpc) s = .ok (answer, s')) :
    ServedOnce rpc server.grinder s s' answer.isOk := by
  cases fate with
  | lost =>
    cases delivered
    exact Or.inl ⟨rfl, rfl⟩
  -- the step of the stores stays, its acknowledgement does not
  | unanswered =>
    obtain ⟨unread, mid, attended, returned⟩ := bind_apply_eq_ok_iff.mp delivered
    cases returned
    rcases servedOnce_of_attend attended with ⟨-, same⟩ | ⟨res, performed, -⟩
    · exact Or.inl ⟨rfl, same⟩
    · exact Or.inr ⟨res, performed, by rintro ⟨⟩⟩
  | answered => exact servedOnce_of_attend delivered

private theorem isOk_of_tag {result : Except (NodeOutput (Error keySize)) (NodeOutput α)}
    (tagged : (client.tag answer : StateT σ (Except Panic) _) s = .ok (result, s')) :
    result.isOk = answer.isOk ∧ s' = s := by
  cases answer with
  | ok a =>
    cases tagged
    exact ⟨rfl, rfl⟩
  -- a status never becomes an acknowledgement
  | error failure =>
    cases read : (Error.ofStatus failure : Except Panic (Error keySize)) with
    | error panic =>
      rw [BobClient.tag, read] at tagged
      cases tagged
    | ok e =>
      rw [BobClient.tag, liftM_bind_eq read] at tagged
      cases tagged
      exact ⟨rfl, rfl⟩

theorem servedOnce_of_call (quiet : server.grinder.requestIndexCleanup = pure ())
    (forced : rpc.forced = true)
    {result : Except (NodeOutput (Error keySize)) (NodeOutput α)}
    (ran : client.call (server.api.through fate status) address rpc s = .ok (result, s')) :
    ServedOnce rpc server.grinder s s' result.isOk := by
  rw [call_eq quiet forced] at ran
  obtain ⟨answer, mid, delivered, tagged⟩ := bind_apply_eq_ok_iff.mp ran
  obtain ⟨same, rfl⟩ := isOk_of_tag tagged
  rw [same]
  exact servedOnce_of_deliver delivered

end Calls

/-! ## Nodes of a cluster -/

section Cluster

variable {engine : StorageEngine keySize} {α : Type}

/-- The call as a request to the stores of the other node. -/
def Rpc.request {α : Type}
    (order : AnyOrder (Sigma fun _ : Operation => List (BobKey keySize) × List ℕ)) :
    Rpc keySize α → Cluster.NodeRequest keySize
  | put key data options => .put key data options
  | get key options => .get key options
  | exist keys options => .exist order keys options
  | delete key bobMeta options => .delete key bobMeta options

private theorem serve_request {σ : Type} (grinder : Grinder (StateT σ (Except Panic)) keySize)
    (rpc : Rpc keySize α) : (rpc.request grinder.order).serve grinder.inner grinder.mapper = (do
      let res ← rpc.perform grinder
      return res.isOk) := by
  cases rpc <;> rfl

/-- The servers of the nodes, over the stores that the cluster speaks of. -/
structure Serves (d : Cluster.Deployment)
    (servers : NodeName → Server (StateT (Pearl engine) (Except Panic)) keySize) : Prop where
  stores : ∀ name, (servers name).grinder.inner = Pearl.storage (d.makeDir name)
  mapped : ∀ name, (servers name).grinder.mapper = d.mapper name
  quiet : ∀ name, (servers name).grinder.requestIndexCleanup = pure ()

/-- A call on its way, and what becomes of it. -/
structure Outgoing (keySize : ℕ) where
  target : NodeName
  client : BobClient
  address : Option Access.SocketAddr
  fate : Fate
  status : Status
  Answer : Type
  rpc : Rpc keySize Answer

namespace Outgoing

variable (servers : NodeName → Server (StateT (Pearl engine) (Except Panic)) keySize)
  (call : Outgoing keySize)

/-- Make the call, and say whether it returns without an error. -/
def run : StateT (Cluster.Network engine) (Except Panic) Bool :=
  focus call.target do
    let result ← call.client.call ((servers call.target).api.through call.fate call.status)
      call.address call.rpc
    return result.isOk

/-- The call as a request to the stores of its target. -/
def request : NodeName × Cluster.NodeRequest keySize :=
  (call.target, call.rpc.request (servers call.target).grinder.order)

end Outgoing

variable {d : Cluster.Deployment}
  {servers : NodeName → Server (StateT (Pearl engine) (Except Panic)) keySize}

/-- A call to a node is a step of the stores, or none. -/
private theorem serve_of_run (serves : Serves d servers) {call : Outgoing keySize}
    (forced : call.rpc.forced = true) {net net' : Cluster.Network engine} {acked : Bool}
    (ran : call.run servers net = .ok (acked, net')) :
    (acked = false ∧ net' = net) ∨
      ∃ ok, d.serve (call.request servers) net = .ok (ok, net') ∧ (acked = true → ok = true) := by
  obtain ⟨⟨_, p'⟩, inside, returned⟩ := bind_eq_ok_iff.mp ran
  cases returned
  obtain ⟨result, mid, called, returned⟩ := bind_apply_eq_ok_iff.mp inside
  cases returned
  rcases servedOnce_of_call (serves.quiet _) forced called with
    ⟨lost, same⟩ | ⟨res, performed, fine⟩
  -- the node has not moved, and no other node has
  · refine Or.inl ⟨lost, ?_⟩
    rw [same, Function.update_eq_self]
  · refine Or.inr ⟨res.isOk, ?_, fine⟩
    unfold Cluster.Deployment.serve Outgoing.request
    dsimp only
    rw [← serves.stores, ← serves.mapped, serve_request]
    refine bind_eq_ok_iff.mpr ⟨(res.isOk, p'), ?_, rfl⟩
    exact bind_apply_eq_ok_iff.mpr ⟨res, p', performed, rfl⟩

/-- Whatever gets lost, and whether or not the other nodes let the callers in, a run of calls
is a run of the nodes that serve some of them, each once and in the same order. Each call
that returns without an error is among them, and was served without an error. -/
theorem calls_are_served_requests (serves : Serves d servers) {calls : List (Outgoing keySize)}
    (forced : ∀ call ∈ calls, call.rpc.forced = true) {net net' : Cluster.Network engine}
    {acks : List Bool} (ran : calls.mapM (·.run servers) net = .ok (acks, net')) :
    ∃ (requests : List (NodeName × Cluster.NodeRequest keySize)) (answers : List Bool),
      requests.Sublist (calls.map (·.request servers)) ∧
      requests.mapM d.serve net = .ok (answers, net') ∧
      ∀ entry ∈ calls.zip acks, entry.2 = true →
        (entry.1.request servers, true) ∈ requests.zip answers := by
  induction calls generalizing net acks with
  | nil =>
    cases ran
    exact ⟨[], [], .slnil, rfl, fun _ absent => absurd absent List.not_mem_nil⟩
  | cons call rest ih =>
    rw [List.mapM_cons] at ran
    obtain ⟨acked, mid, first, ran⟩ := bind_apply_eq_ok_iff.mp ran
    obtain ⟨others, last, later, ran⟩ := bind_apply_eq_ok_iff.mp ran
    cases ran
    obtain ⟨requests, answers, sublist, served, known⟩ :=
      ih (fun other member => forced other (.tail _ member)) later
    -- a call that changed nothing is dropped, any other one comes first
    obtain ⟨rfl, rfl⟩ | ⟨ok, here, fine⟩ := serve_of_run serves (forced call (.head _)) first
    · refine ⟨requests, answers, sublist.cons _, served, fun entry member ack => ?_⟩
      obtain rfl | member := List.mem_cons.mp member
      · cases ack
      · exact known entry member ack
    · refine ⟨call.request servers :: requests, ok :: answers, sublist.cons_cons _, ?_,
        fun entry member ack => ?_⟩
      · rw [List.mapM_cons]
        exact bind_apply_eq_ok_iff.mpr ⟨ok, mid, here,
          bind_apply_eq_ok_iff.mpr ⟨answers, _, served, rfl⟩⟩
      · rw [List.zip_cons_cons]
        obtain rfl | member := List.mem_cons.mp member
        · rw [fine ack]
          exact List.mem_cons_self
        · exact List.mem_cons_of_mem _ (known entry member ack)

end Cluster

/-! ## The small cluster -/

/-- The client of the second node for the first one. -/
def smallClient : BobClient := .create Base64.standard ⟨0, ⟨"alpha"⟩, "10.0.0.1:20000"⟩ ⟨"beta"⟩

/-- A put to the first node is served but not answered, and one to the second node gets
through. -/
def smallOutgoing : List (Outgoing 8) :=
  [⟨⟨"alpha"⟩, smallClient, none, .unanswered, ⟨.unavailable, ""⟩, Unit,
      .put Cluster.pairKey ⟨[1], ⟨7⟩⟩ .newLocal⟩,
    ⟨⟨"beta"⟩, smallClient, none, .answered, ⟨.unavailable, ""⟩, Unit,
      .put Cluster.pairKey ⟨[1], ⟨7⟩⟩ .newLocal⟩]

theorem small_calls_are_served_requests : ∃ (net' : Cluster.Network (logEngine 8))
    (requests : List (NodeName × Cluster.NodeRequest 8)) (answers : List Bool),
    smallOutgoing.mapM (·.run Server.smallServer) Cluster.freshNetwork =
      .ok ([false, true], net') ∧
    requests.mapM Cluster.smallDeployment.serve Cluster.freshNetwork = .ok (answers, net') ∧
    ((⟨"beta"⟩, .put Cluster.pairKey ⟨[1], ⟨7⟩⟩ .newLocal), true) ∈ requests.zip answers := by
  have acked : (smallOutgoing.mapM (·.run Server.smallServer)
      Cluster.freshNetwork).toOption.map Prod.fst = some [false, true] := by
    decide +kernel
  obtain ⟨⟨acks, net'⟩, ran, rfl⟩ := Option.map_eq_some_iff.mp acked
  have returned := eq_ok_of_toOption ran
  obtain ⟨requests, answers, -, served, known⟩ := calls_are_served_requests
    ⟨fun _ => rfl, fun _ => rfl, fun _ => rfl⟩
    (List.forall_mem_cons.mpr ⟨rfl, List.forall_mem_singleton.mpr rfl⟩) returned
  exact ⟨net', requests, answers, returned, served,
    known (_, true) (List.mem_cons_of_mem _ List.mem_cons_self) rfl⟩

/-- The second node has declared its address. -/
def knownNodes : Access.Basic where
  nodes := (∅ : Dict String Access.DCredentialsResolveGuard).insert "beta"
    (.new ⟨[⟨.v4 #v[10, 0, 0, 2], 20000⟩], none, .interNode "beta"⟩ 0 0)
  resolveSleepPeriodMs := 0

/-- The second node reads from the first one, and gets the error of its backend. -/
theorem small_call_is_local :
    (knownNodes.checkNode "beta" (some ⟨.v4 #v[10, 0, 0, 2], 50000⟩) 0).1 = true ∧
    smallClient.call (Server.mk (Server.smallServer ⟨"alpha"⟩).grinder
        (knownNodes.authenticator ⟨∅, "bob"⟩ (fun _ => []) 0) Access.plainDecoding).api
        (some ⟨.v4 #v[10, 0, 0, 2], 50000⟩) (.get Cluster.pairKey .newLocal) =
      (do
        let res ← Rpc.perform (Server.smallServer ⟨"alpha"⟩).grinder
          (.get Cluster.pairKey .newLocal)
        smallClient.tag (res.mapError Status.ofError)) := by
  have known : (knownNodes.checkNode "beta" (some ⟨.v4 #v[10, 0, 0, 2], 50000⟩) 0).1 = true := by
    decide
  have lawful : Access.plainDecoding.base64.Lawful := Base64.standard.lawful
  have quiet : (Server.smallServer ⟨"alpha"⟩).grinder.requestIndexCleanup = pure () := rfl
  exact ⟨known, remote_call_is_local lawful quiet (by decide) known
    (.get Cluster.pairKey .newLocal) rfl⟩

end Bob

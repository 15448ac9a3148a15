/-
# The server

A request passes three gates before a store sees it. The credentials must give the
permission that its handler asks for, the message must have its parts, and its options say
whether this node serves it or the cluster does. Whoever may not write changes nothing, so
that what a node has stored is the work of those who may.

What requests do to the authenticator is not part of a run here. Each request comes with
the authenticator that it meets.
-/

import Bob.Access.Users
import Bob.Cluster.Serving
import Bob.Server.Decode

namespace Bob

open Bob.Math Bob.Backend

/-! ## The grinder -/

/-- The cluster trait: operations that ask other nodes. -/
structure ClusterApi (m : Type → Type) (keySize : ℕ) where
  put : BobKey keySize → BobData → m (Except (Error keySize) Unit)
  get : BobKey keySize → m (Except (Error keySize) BobData)
  exist : List (BobKey keySize) → m (Except (Error keySize) (List Bool))
  delete : BobKey keySize → BobMeta → m (Except (Error keySize) Unit)

/-- The backend, with the order in which a check visits its operations, the cluster, and the
call that wakes the cleaner. -/
structure Grinder (m : Type → Type) (keySize : ℕ) where
  inner : BackendStorage m keySize
  mapper : Virtual
  order : AnyOrder (Sigma fun _ : Operation => List (BobKey keySize) × List ℕ)
  cluster : ClusterApi m keySize
  requestIndexCleanup : m Unit

variable {m : Type → Type} [Monad m] [MonadLiftT (Except Panic) m] {keySize : ℕ}

namespace Grinder

variable (grinder : Grinder m keySize)

def put (key : BobKey keySize) (data : BobData) (opts : BobPutOptions) :
    m (Except (Error keySize) Unit) :=
  if opts.forceNode then Backend.put grinder.inner grinder.mapper key data opts
  else grinder.cluster.put key data

def get (key : BobKey keySize) (opts : BobGetOptions) : m (Except (Error keySize) BobData) :=
  if opts.forceNode then Backend.get grinder.inner grinder.mapper key opts
  else grinder.cluster.get key

def exist (keys : List (BobKey keySize)) (opts : BobGetOptions) :
    m (Except (Error keySize) (List Bool)) :=
  if opts.forceNode then Backend.exist grinder.inner grinder.mapper grinder.order keys opts
  else grinder.cluster.exist keys

def delete (key : BobKey keySize) (bobMeta : BobMeta) (options : BobDeleteOptions) :
    m (Except (Error keySize) Unit) := do
  let result ← (if options.forceNode then
      Backend.delete grinder.inner grinder.mapper key bobMeta options
    else grinder.cluster.delete key bobMeta)
  -- the cleaner is woken whatever the result is
  grinder.requestIndexCleanup
  return result

end Grinder

/-! ## The handlers -/

/-- The server, with the library that decodes the headers of a request. -/
structure Server (m : Type → Type) (keySize : ℕ) where
  grinder : Grinder m keySize
  auth : Access.Authenticator
  decoding : Access.Decoding

namespace Server

variable (server : Server m keySize)

/-- The first gate: a request without the permission is refused. -/
def authorize (headers : Access.Extractor) (has : Access.Permissions → Bool) (refusal : String) :
    Except Status Unit :=
  match server.auth.checkCredentialsGrpc (server.auth.credentialsOf server.decoding headers) with
  | .error e => .error e.toStatus
  | .ok permissions => if has permissions then .ok () else .error ⟨.permissionDenied, refusal⟩

/-- Nothing of a refused request is looked at. -/
def gate {α : Type} (headers : Access.Extractor) (has : Access.Permissions → Bool)
    (refusal : String) (body : m (Except Status α)) : m (Except Status α) :=
  match server.authorize headers has refusal with
  | .error status => pure (.error status)
  | .ok () => body

def put (headers : Access.Extractor) (req : Grpc.PutRequest) : m (Except Status Unit) :=
  server.gate headers (·.hasWrite) "WRITE permission required" do
    match ← liftM (putExtract req) with
    | some (key, inner, timestamp, options) =>
      let putResult ← server.grinder.put key ⟨inner, ⟨timestamp⟩⟩ (BobPutOptions.fromGrpc options)
      return putResult.mapError Status.ofError
    | none =>
      return .error ⟨.invalidArgument, "Key, data and timestamp in data.meta is mandatory"⟩

def get (headers : Access.Extractor) (req : Grpc.GetRequest) : m (Except Status Grpc.Blob) :=
  server.gate headers (·.hasRead) "READ permission required" do
    match ← liftM (getExtract req) with
    | some (key, options) =>
      let options ← liftM (BobGetOptions.fromGrpc options)
      match ← server.grinder.get key options with
      | .ok data => return .ok ⟨data.inner, some ⟨data.bobMeta.timestamp⟩⟩
      | .error e => return .error (Status.ofError e)
    | none => return .error ⟨.invalidArgument, "Key is mandatory"⟩

def exist (headers : Access.Extractor) (req : Grpc.ExistRequest) : m (Except Status (List Bool)) :=
  server.gate headers (·.hasRead) "READ permission required" do
    -- a key of the wrong length panics here, and in the other handlers
    let keys ← liftM (req.keys.mapM fun k => BobKey.ofVec k.key)
    let options ← liftM (BobGetOptions.fromGrpc req.options)
    let exist ← server.grinder.exist keys options
    return exist.mapError Status.ofError

def delete (headers : Access.Extractor) (req : Grpc.DeleteRequest) : m (Except Status Unit) :=
  server.gate headers (·.hasWrite) "WRITE permission required" do
    match ← liftM (deleteExtract req) with
    | some (key, timestamp, options) =>
      let deleteResult ←
        server.grinder.delete key ⟨timestamp⟩ (BobDeleteOptions.fromGrpc options)
      return deleteResult.mapError Status.ofError
    | none => return .error ⟨.invalidArgument, "Key and meta are mandatory"⟩

inductive Response
  | opStatus
  | blob (blob : Grpc.Blob)
  | exist (exist : List Bool)
  deriving DecidableEq, Repr

def handle (headers : Access.Extractor) : Request → m (Except Status Response)
  | .put req => do
    let res ← server.put headers req
    return res.map fun _ => .opStatus
  | .get req => do
    let res ← server.get headers req
    return res.map .blob
  | .exist req => do
    let res ← server.exist headers req
    return res.map .exist
  | .delete req => do
    let res ← server.delete headers req
    return res.map fun _ => .opStatus

/-! ## Runs of requests -/

/-- A request, and the authenticator as it stands when the request comes. What it says
about the request is fixed with it. -/
structure Incoming where
  auth : Access.Authenticator
  headers : Access.Extractor
  request : Request

def serve (incoming : Incoming) : m (Except Status Response) :=
  handle { server with auth := incoming.auth } incoming.headers incoming.request

/-- What the caller may do. -/
def Incoming.permissions (decoding : Access.Decoding) (incoming : Incoming) :
    Except Access.AuthError Access.Permissions :=
  incoming.auth.checkCredentialsGrpc (incoming.auth.credentialsOf decoding incoming.headers)

/-- The caller may write. -/
def Incoming.mayWrite (decoding : Access.Decoding) (incoming : Incoming) : Bool :=
  match incoming.permissions decoding with
  | .ok permissions => permissions.hasWrite
  | .error _ => false

end Server

/-! ## Who changes what -/

/-- The reads of a node and of its cluster leave the state as it is. -/
structure Grinder.ReadsKeep {σ : Type} (grinder : Grinder (StateT σ (Except Panic)) keySize) :
    Prop where
  get : ∀ key opts, Yields Eq (fun _ _ => True) (grinder.get key opts)
  exist : ∀ keys opts, Yields Eq (fun _ _ => True) (grinder.exist keys opts)

namespace Server

section Stores

variable {σ : Type} {server : Server (StateT σ (Except Panic)) keySize} {incoming : Incoming}

/-- Whoever may not write does not pass the first gate of a write. -/
private theorem yields_gate_of_not_mayWrite {α : Type}
    {body : StateT σ (Except Panic) (Except Status α)} {refusal : String}
    (lacks : incoming.mayWrite server.decoding = false) :
    Yields Eq (fun _ _ => True) (gate { server with auth := incoming.auth } incoming.headers
      (·.hasWrite) refusal body) := by
  unfold Incoming.mayWrite Incoming.permissions at lacks
  unfold gate authorize
  dsimp only
  -- either the permission is missing or there are none
  split at lacks
  · rename_i permissions checked
    simp only [checked, lacks, Bool.false_eq_true, if_false]
    exact .pure fun _ => trivial
  · rename_i e checked
    rw [checked]
    exact .pure fun _ => trivial

private theorem yields_gate {α : Type} {headers : Access.Extractor}
    {has : Access.Permissions → Bool} {refusal : String}
    {body : StateT σ (Except Panic) (Except Status α)} (yields : Yields Eq (fun _ _ => True) body) :
    Yields Eq (fun _ _ => True) (server.gate headers has refusal body) := by
  unfold gate
  split
  · exact .pure fun _ => trivial
  · exact yields

private theorem yields_get (reads : server.grinder.ReadsKeep) (headers : Access.Extractor)
    (req : Grpc.GetRequest) : Yields Eq (fun _ _ => True) (server.get headers req) := by
  refine yields_gate (.liftM_bind fun parts _ => ?_)
  cases parts with
  | none => exact .pure fun _ => trivial
  | some parts =>
    refine .liftM_bind fun options _ => (reads.get parts.1 options).bind_trivial fun answer => ?_
    cases answer <;> exact .pure fun _ => trivial

private theorem yields_exist (reads : server.grinder.ReadsKeep) (headers : Access.Extractor)
    (req : Grpc.ExistRequest) : Yields Eq (fun _ _ => True) (server.exist headers req) := by
  refine yields_gate (.liftM_bind fun keys _ => .liftM_bind fun options _ => ?_)
  exact (reads.exist keys options).bind_trivial fun _ => .pure fun _ => trivial

/-- Whoever may not write leaves the state as it is. -/
theorem yields_serve_of_not_mayWrite (reads : server.grinder.ReadsKeep)
    (lacks : incoming.mayWrite server.decoding = false) :
    Yields Eq (fun _ _ => True) (server.serve incoming) := by
  have reads' : (Server.mk server.grinder incoming.auth server.decoding).grinder.ReadsKeep := reads
  unfold serve
  cases incoming.request with
  | put req =>
    exact (yields_gate_of_not_mayWrite lacks).bind_trivial fun _ => .pure fun _ => trivial
  | delete req =>
    exact (yields_gate_of_not_mayWrite lacks).bind_trivial fun _ => .pure fun _ => trivial
  | get req => exact (yields_get reads' _ req).bind_trivial fun _ => .pure fun _ => trivial
  | exist req => exact (yields_exist reads' _ req).bind_trivial fun _ => .pure fun _ => trivial

end Stores

section Pearl

variable {engine : StorageEngine keySize} {makeDir : MakeDir}
  {grinder : Grinder (StateT (Pearl engine) (Except Panic)) keySize}

/-- Reads of the stores leave them as they are, so only those of the cluster are left. -/
theorem readsKeep_of_storage (lawful : engine.Lawful)
    (stores : grinder.inner = Pearl.storage makeDir)
    (get : ∀ key, Yields Eq (fun _ _ => True) (grinder.cluster.get key))
    (exist : ∀ keys, Yields Eq (fun _ _ => True) (grinder.cluster.exist keys)) :
    grinder.ReadsKeep where
  get := by
    intro key opts
    unfold Grinder.get
    split_ifs
    · rw [stores]
      exact (Pearl.yields_get lawful makeDir _ opts).weaken fun _ _ _ => trivial
    · exact get key
  exist := by
    intro keys opts
    unfold Grinder.exist
    split_ifs
    · rw [stores]
      exact Pearl.yields_exist makeDir _ _ keys opts
    · exact exist keys

end Pearl

/-! ## A small server -/

/-- A node of the small cluster, without its cluster. -/
def smallServer (name : NodeName) : Server (StateT (Pearl (logEngine 8)) (Except Panic)) 8 where
  grinder :=
    { inner := Pearl.storage (Cluster.smallDeployment.makeDir name)
      mapper := Cluster.smallDeployment.mapper name
      order := .launched
      cluster :=
        { put := fun _ _ => pure (.error .internal)
          get := fun key => pure (.error (.keyNotFound key))
          exist := fun keys => pure (.ok (keys.map fun _ => false))
          delete := fun _ _ => pure (.error .internal) }
      requestIndexCleanup := pure () }
  auth := .stub
  decoding := Access.plainDecoding

/-- Requests without credentials are those of a user who may read. -/
def readersOnly : Access.Authenticator :=
  Access.Basic.authenticator ⟨∅, 0, [], []⟩
    ⟨(∅ : Dict String Access.User).insert "default"
      ⟨"default", some "", none, ⟨true, false, true, false⟩⟩, "bob"⟩ (fun _ => []) 0

/-- The reader is refused when it deletes, and then reads. -/
def smallCalls : List Incoming :=
  let headers : Access.Extractor := ⟨fun _ => .ok none, none⟩
  let key : Grpc.BlobKey := ⟨Cluster.pairKey.bytes.toList⟩
  [⟨.stub, headers, .put ⟨some key, some ⟨[1], some ⟨7⟩⟩, some ⟨[], true, false⟩⟩⟩,
    ⟨readersOnly, headers, .delete ⟨some key, some ⟨8⟩, some ⟨[], true, false⟩⟩⟩,
    ⟨readersOnly, headers, .get ⟨some key, some ⟨true, 1⟩⟩⟩]

end Server

end Bob

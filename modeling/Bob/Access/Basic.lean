/-
# Inter-node authentication

Requests of other nodes are told by their addresses. A node that is declared by a host name
has its addresses looked up by a resolver task: at the start if none are declared, and again
after requests in its name have failed for a while. A check reads under one lock and counts
under a later one; a resolver looks up without a lock and stores under one. Whatever happens
in between, a node has a resolver exactly while its guard says so, and a request is let in by
the addresses that were declared or resolved last.
-/

import Bob.Math.Dict
import Bob.Access.Credentials
import Bob.Common.Types

namespace Bob.Access

open Bob.Math

/-! ## Guards -/

def resolveThreshold : UInt32 := 3

inductive ResolveState
  | resolved (failures : UInt32)
  | inProgress
  deriving DecidableEq, Repr

/-- Count a check. The answer tells whether it is time to resolve. -/
def ResolveState.update : ResolveState → Bool → Bool × ResolveState
  | resolved _, true => (false, resolved 0)
  -- the counter wraps around
  | resolved n, false => (n + 1 ≥ resolveThreshold, resolved (n + 1))
  | inProgress, _ => (false, inProgress)

/-- The credentials of a node, and how far they are resolved. Times are in nanoseconds. -/
structure DCredentialsResolveGuard where
  credentials : DeclaredCredentials
  resolveState : ResolveState
  resolveThreshold : ℕ
  resolveProtectionPeriodMs : ℕ
  deriving DecidableEq

namespace DCredentialsResolveGuard

def new (credentials : DeclaredCredentials) (resolveProtectionPeriodMs now : ℕ) :
    DCredentialsResolveGuard where
  credentials := credentials
  resolveState := .resolved 0
  resolveThreshold := now + resolveProtectionPeriodMs * 1000000
  resolveProtectionPeriodMs := resolveProtectionPeriodMs

def updateResolveState (guard : DCredentialsResolveGuard) (authenticated : Bool) (now : ℕ) :
    Bool × DCredentialsResolveGuard :=
  if guard.credentials.isCreatedWithAddress then (false, guard)
  else if authenticated || now ≥ guard.resolveThreshold then
    let (start, state) := guard.resolveState.update authenticated
    (start, { guard with resolveState := state })
  else (false, guard)

/-- The conditions of `updateResolveState`, without the update. -/
def needsUpdate (guard : DCredentialsResolveGuard) (authenticated : Bool) (now : ℕ) : Bool :=
  if guard.credentials.isCreatedWithAddress then false
  else
    match guard.resolveState with
    | .resolved n => if authenticated then n > 0 else now ≥ guard.resolveThreshold
    | .inProgress => false

def setResolved (guard : DCredentialsResolveGuard) (addresses : List SocketAddr) (now : ℕ) :
    DCredentialsResolveGuard :=
  { guard with
    credentials := guard.credentials.replaceAddresses addresses
    resolveState := .resolved 0
    resolveThreshold := now + guard.resolveProtectionPeriodMs * 1000000 }

def setInProgress (guard : DCredentialsResolveGuard) : DCredentialsResolveGuard :=
  { guard with resolveState := .inProgress }

end DCredentialsResolveGuard

/-! ## The authenticator -/

/-- A task that looks up the addresses of a node. Those it has found wait for the lock. -/
structure Resolver where
  cred : DeclaredCredentials
  addr : Option (List SocketAddr) := none
  deriving DecidableEq

/-- The name that the task looks up. -/
def Resolver.hostname (resolver : Resolver) : Except Panic String :=
  match resolver.cred.hostname with
  | some hostname => .ok hostname
  | none => .error ⟨"resolve worker without hostname"⟩

structure Permissions where
  bits : UInt8
  deriving DecidableEq, Repr

/-- Read and write for both interfaces, and the bit that forbids. -/
def Permissions.all : Permissions := ⟨0b10001111⟩

/-- The authenticator with what is under way: resolver tasks, and checks that have read a guard
and are to count their result. -/
structure Basic where
  nodes : Dict String DCredentialsResolveGuard := ∅
  resolveSleepPeriodMs : ℕ
  resolvers : List Resolver := []
  checks : List (String × Bool) := []

namespace Basic

def spawnResolver (b : Basic) (cred : DeclaredCredentials) : Basic :=
  { b with resolvers := b.resolvers ++ [⟨cred, none⟩] }

def nodeCredsOk (creds : Dict String DeclaredCredentials) : Bool :=
  creds.values.all fun cred => cred.validateInternode

/-- One turn of the loop over the declared nodes. -/
def setNodeCredentials (now : String → ℕ) (b : Basic)
    (entry : Sigma fun _ : String => DeclaredCredentials) : Basic :=
  let guard := DCredentialsResolveGuard.new entry.2 b.resolveSleepPeriodMs (now entry.1)
  if entry.2.address.isEmpty && entry.2.hostname.isSome then
    { b with nodes := b.nodes.insert entry.1 guard.setInProgress }.spawnResolver entry.2
  else { b with nodes := b.nodes.insert entry.1 guard }

def setNodesCredentials (b : Basic) (nodes : Dict String DeclaredCredentials) (now : String → ℕ) :
    Except Error Basic :=
  if nodeCredsOk nodes then .ok (nodes.entries.foldl (setNodeCredentials now) b)
  else .error (.credentialsNotProvided "nodes credentials missing ip or node name")

/-- The part of a check under the read lock: whether the request is let in, and whether the
result is to be counted. -/
def checkNode (b : Basic) (nodeName : String) (ip : Option SocketAddr) (now : ℕ) : Bool × Bool :=
  match ip with
  | none => (false, false)
  | some ip =>
    match b.nodes.lookup nodeName with
    | none => (false, false)
    | some guard =>
      match guard.credentials.kind with
      | .interNode _ =>
        let authenticated := guard.credentials.address.any fun credIp => credIp.ip = ip.ip
        (authenticated, guard.needsUpdate authenticated now)
      | _ => (false, false)

/-- The part of a check under the write lock. -/
def processAuthResult (b : Basic) (nodeName : String) (authenticated : Bool) (now : ℕ) : Basic :=
  match b.nodes.lookup nodeName with
  | none => b
  | some guard =>
    let (start, guard) := guard.updateResolveState authenticated now
    if start then
      { b with nodes := b.nodes.insert nodeName guard.setInProgress }.spawnResolver
        guard.credentials
    else { b with nodes := b.nodes.insert nodeName guard }

/-- What a request gets. Requests that do not come from a node are for `common`. -/
def checkCredentialsGrpc (b : Basic) (common : RequestCredentials → Except Error Permissions)
    (credentials : RequestCredentials) (now : ℕ) : Except Error Permissions :=
  match credentials.kind with
  | some (.interNode nodeName) =>
    if (b.checkNode nodeName credentials.address now).1 then .ok Permissions.all
    else .error .unauthorizedRequest
  | _ => common credentials

/-- The end of a resolver, under the write lock. -/
def storeResolved (b : Basic) (cred : DeclaredCredentials) (addr : List SocketAddr) (now : ℕ) :
    Basic :=
  match cred.kind with
  | .interNode nodeName =>
    match b.nodes.lookup nodeName with
    | some guard => { b with nodes := b.nodes.insert nodeName (guard.setResolved addr now) }
    | none => b
  | _ => b

/-! ## Interleavings -/

/-- What can happen next. -/
inductive Event
  /-- A request in the name of a node is checked. -/
  | check (nodeName : String) (ip : Option SocketAddr) (now : ℕ)
  /-- A check counts its result. -/
  | count (index : ℕ) (now : ℕ)
  /-- A resolver gets an answer from the host lookup. -/
  | lookup (index : ℕ) (answer : Option (List SocketAddr))
  /-- A resolver stores what it has found, and ends. -/
  | store (index : ℕ) (now : ℕ)

def step (b : Basic) : Event → Option (Except Panic Basic)
  | .check nodeName ip now =>
    let (authenticated, needsUpdate) := b.checkNode nodeName ip now
    some (.ok (if needsUpdate then { b with checks := b.checks ++ [(nodeName, authenticated)] }
      else b))
  | .count index now => do
    let (nodeName, authenticated) ← b.checks[index]?
    some (.ok ({ b with checks := b.checks.eraseIdx index }.processAuthResult nodeName
      authenticated now))
  | .lookup index answer => do
    let resolver ← b.resolvers[index]?
    match resolver.addr, resolver.hostname with
    | some _, _ => none
    | none, .error e => some (.error e)
    | none, .ok _ =>
      -- without an address the task sleeps and looks up again
      match answer with
      | none | some [] => some (.ok b)
      | some (first :: rest) =>
        some (.ok { b with
          resolvers := b.resolvers.set index { resolver with addr := some (first :: rest) } })
  | .store index now => do
    let resolver ← b.resolvers[index]?
    let addr ← resolver.addr
    some (.ok ({ b with resolvers := b.resolvers.eraseIdx index }.storeResolved resolver.cred addr
      now))

/-- The addresses that are known of each node: those declared, then those stored last. -/
abbrev Known := String → List SocketAddr

def declared (creds : Dict String DeclaredCredentials) : Known := fun nodeName =>
  match creds.lookup nodeName with
  | some cred => cred.address
  | none => []

/-- What is known after an event. -/
def learn (b : Basic) (known : Known) : Event → Known
  | .store index _ =>
    match b.resolvers[index]? with
    | some ⟨⟨_, _, .interNode nodeName⟩, some addr⟩ => Function.update known nodeName addr
    | _ => known
  | _ => known

/-- A run, with what is known before and after it. -/
inductive Run : Known → Basic → Known → Basic → Prop
  | refl {known : Known} {b : Basic} : Run known b known b
  | tail {known known' : Known} {b b' next : Basic} {event : Event} (run : Run known b known' b')
      (stepped : b'.step event = some (.ok next)) : Run known b (b'.learn known' event) next

/-- The resolver tasks for a node. -/
def outstanding (b : Basic) (nodeName : String) : ℕ :=
  (b.resolvers.map fun resolver => resolver.cred.kind).count (.interNode nodeName)

end Basic

end Bob.Access

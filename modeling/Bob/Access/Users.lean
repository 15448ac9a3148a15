/-
# Users and their permissions

The users of a node are kept in a table, with their permissions and a password or the hash
of one. A request with a name and a password is let in by this table. A request of another
node is told by its address, and may do everything.
-/

import Bob.Access.Basic
import Bob.Access.Extractor

namespace Bob.Access

open Bob.Math

/-- The errors of the access layer that a request can meet. -/
inductive AuthError
  | userNotFound
  | credentials (e : Error)
  deriving DecidableEq, Repr

def AuthError.msg : AuthError → String
  | userNotFound => "Unauthorized request"
  | credentials (.conversionError _) => "Conversion error"
  | credentials (.credentialsNotProvided _) => "Credentials not provided"
  | credentials .unauthorizedRequest => "Unauthorized request"

def AuthError.code : AuthError → Code
  | userNotFound => .unauthenticated
  | credentials (.conversionError _) => .invalidArgument
  | credentials (.credentialsNotProvided _) => .unauthenticated
  | credentials .unauthorizedRequest => .unauthenticated

def AuthError.toStatus (err : AuthError) : Status := ⟨err.code, err.msg⟩

/-! ## Permissions -/

structure Perms where
  read : Bool
  write : Bool
  readRest : Bool
  writeRest : Bool
  deriving DecidableEq, Repr

structure User where
  username : String
  password : Option String
  passwordHash : Option (List UInt8)
  perms : Perms
  deriving DecidableEq, Repr

namespace Permissions

def READ : UInt8 := 0b00000001
def WRITE : UInt8 := 0b00000010
def READ_REST : UInt8 := 0b00000100
def WRITE_REST : UInt8 := 0b00001000

def contains (p : Permissions) (flag : UInt8) : Bool := p.bits &&& flag = flag

def hasRead (p : Permissions) : Bool := p.contains READ

def hasWrite (p : Permissions) : Bool := p.contains WRITE

def insert (p : Permissions) (flag : UInt8) : Permissions := ⟨p.bits ||| flag⟩

def ofUser (user : User) : Permissions :=
  let p : Permissions := ⟨0⟩
  let p := if user.perms.read then p.insert READ else p
  let p := if user.perms.write then p.insert WRITE else p
  let p := if user.perms.readRest then p.insert READ_REST else p
  if user.perms.writeRest then p.insert WRITE_REST else p

end Permissions

structure UsersMap where
  inner : Dict String User
  passwordSalt : String

def UsersMap.getUser (users : UsersMap) (username : String) : Except AuthError User :=
  match users.inner.lookup username with
  | some user => .ok user
  | none => .error .userNotFound

/-! ## Checks -/

/-- The hash function of the library. -/
abbrev Sha512 := ByteArray → List UInt8

def UsersMap.checkCredentialsCommon (users : UsersMap) (sha512 : Sha512)
    (credentials : RequestCredentials) : Except AuthError Permissions :=
  match credentials.kind with
  | some (.basic username password) => do
    let user ← users.getUser username
    match user.password with
    | some usrPassword =>
      if usrPassword = password then return Permissions.ofUser user
      else throw (.credentials .unauthorizedRequest)
    | none =>
      match user.passwordHash with
      | some usrHash =>
        if sha512 (password ++ users.passwordSalt).toUTF8 = usrHash then
          return Permissions.ofUser user
        else throw (.credentials .unauthorizedRequest)
      | none => throw (.credentials .unauthorizedRequest)
  | none => throw (.credentials (.credentialsNotProvided "missing credentials"))
  | _ => throw (.credentials .unauthorizedRequest)

/-- What a server asks of its authenticator. -/
structure Authenticator where
  credentialsType : AuthenticationType
  checkCredentialsGrpc : RequestCredentials → Except AuthError Permissions
  checkCredentialsRest : RequestCredentials → Except AuthError Permissions

/-- Without authentication everybody may do everything. -/
def Authenticator.stub : Authenticator where
  credentialsType := .none
  checkCredentialsGrpc := fun _ => .ok Permissions.all
  checkCredentialsRest := fun _ => .ok Permissions.all

/-- A request of a node is told by its address and only over gRPC, any other by its user. -/
def Basic.authenticator (b : Basic) (users : UsersMap) (sha512 : Sha512) (now : ℕ) :
    Authenticator where
  credentialsType := .basic
  checkCredentialsGrpc := fun credentials =>
    match credentials.kind with
    | some (.interNode _) =>
      (b.checkCredentialsGrpc (fun _ => .error .unauthorizedRequest) credentials now).mapError
        .credentials
    | _ => users.checkCredentialsCommon sha512 credentials
  checkCredentialsRest := users.checkCredentialsCommon sha512

/-- The credentials of a request. If they cannot be read there are none. -/
def Authenticator.credentialsOf (auth : Authenticator) (decoding : Decoding)
    (req : Extractor) : RequestCredentials :=
  match req.extract decoding auth.credentialsType with
  | .ok credentials => credentials
  | .error _ => {}

end Bob.Access

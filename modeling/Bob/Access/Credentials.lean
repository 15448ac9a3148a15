/-
# Credentials

A request carries credentials of one of three kinds and comes from an address. What is
known of another node is declared: its addresses, or a host name under which they can be
looked up.
-/

import Bob.Math.Sequencing

namespace Bob.Access

/-- The errors of the access layer that are raised here. -/
inductive Error
  | conversionError (message : String)
  | credentialsNotProvided (message : String)
  | unauthorizedRequest
  deriving DecidableEq, Repr

inductive IpAddr
  | v4 (octets : Vector UInt8 4)
  | v6 (octets : Vector UInt8 16)
  deriving DecidableEq

structure SocketAddr where
  ip : IpAddr
  port : UInt16
  deriving DecidableEq

inductive CredentialsKind
  | basic (username password : String)
  | token (token : String)
  | interNode (nodeName : String)
  deriving DecidableEq, Repr

def CredentialsKind.isInternode : CredentialsKind → Bool
  | interNode _ => true
  | _ => false

/-! ## Of a request -/

/-- The credentials of a request, also while they are put together. -/
structure RequestCredentials where
  address : Option SocketAddr := none
  kind : Option CredentialsKind := none
  deriving DecidableEq

namespace RequestCredentials

def withUsernamePassword (creds : RequestCredentials) (username password : String) :
    RequestCredentials :=
  { creds with kind := some (.basic username password) }

def withToken (creds : RequestCredentials) (token : String) : RequestCredentials :=
  { creds with kind := some (.token token) }

def withAddress (creds : RequestCredentials) (address : Option SocketAddr) : RequestCredentials :=
  { creds with address := address }

def withNodename (creds : RequestCredentials) (nodeName : String) : RequestCredentials :=
  { creds with kind := some (.interNode nodeName) }

end RequestCredentials

/-! ## Of a node -/

/-- What is declared of a node. -/
structure DeclaredCredentials where
  address : List SocketAddr
  hostname : Option String
  kind : CredentialsKind
  deriving DecidableEq

namespace DeclaredCredentials

def validateInternode (creds : DeclaredCredentials) : Bool :=
  (!creds.address.isEmpty || creds.hostname.isSome) && creds.kind.isInternode

def isCreatedWithAddress (creds : DeclaredCredentials) : Bool :=
  creds.hostname.isNone && !creds.address.isEmpty

def replaceAddresses (creds : DeclaredCredentials) (addresses : List SocketAddr) :
    DeclaredCredentials :=
  { creds with address := addresses }

end DeclaredCredentials

end Bob.Access

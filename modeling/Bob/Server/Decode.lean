/-
# Decoding client requests

The server takes a gRPC message apart before it hands the request to the grinder.
A missing part is answered with a status. The conversions of a key and of the
source of a read are not fallible in the source: a byte string of another length
than the build-time key size, or a number that stands for no source, ends in a
panic, and both build profiles abort on it. This module says for which messages
that happens.
-/

import Bob.Backend.Core
import Bob.Common.Status

namespace Bob

open Bob.Math

/-! ## Messages -/

namespace Grpc

structure BlobKey where
  key : List UInt8
  deriving DecidableEq, Repr

structure BlobMeta where
  timestamp : UInt64
  deriving DecidableEq, Repr

structure Blob where
  data : List UInt8
  blobMeta : Option BlobMeta
  deriving DecidableEq, Repr

structure PutOptions where
  remoteNodes : List String
  forceNode : Bool
  overwrite : Bool
  deriving DecidableEq, Repr

/-- The source is the number of an enumeration, and a client may send any. -/
structure GetOptions where
  forceNode : Bool
  source : Int32
  deriving DecidableEq, Repr

structure DeleteOptions where
  forceAlienNodes : List String
  forceNode : Bool
  isAlien : Bool
  deriving DecidableEq, Repr

structure PutRequest where
  key : Option BlobKey
  data : Option Blob
  options : Option PutOptions
  deriving DecidableEq, Repr

structure GetRequest where
  key : Option BlobKey
  options : Option GetOptions
  deriving DecidableEq, Repr

structure ExistRequest where
  keys : List BlobKey
  options : Option GetOptions
  deriving DecidableEq, Repr

structure DeleteRequest where
  key : Option BlobKey
  blobMeta : Option BlobMeta
  options : Option DeleteOptions
  deriving DecidableEq, Repr

end Grpc

/-! ## Conversions -/

variable {keySize : ℕ}

/-- The conversion of a byte string of any length. -/
def BobKey.ofVec (v : List UInt8) : Except Panic (BobKey keySize) :=
  if fits : v.length = keySize then .ok ⟨⟨v.toArray, fits⟩⟩
  else .error ⟨s!"key size mismatch: {v}"⟩

theorem BobKey.exists_ofVec_iff {v : List UInt8} :
    (∃ key : BobKey keySize, BobKey.ofVec v = .ok key) ↔ v.length = keySize := by
  unfold BobKey.ofVec
  split_ifs with fits <;> simp [fits]

def GetSource.ofI32 (value : Int32) : Except Panic GetSource :=
  if value = 0 then .ok .all
  else if value = 1 then .ok .normal
  else if value = 2 then .ok .alien
  else .error ⟨"fatal core error"⟩

def GetSource.toI32 : GetSource → Int32
  | .all => 0
  | .normal => 1
  | .alien => 2

theorem GetSource.exists_ofI32_iff {value : Int32} :
    (∃ source, GetSource.ofI32 value = .ok source) ↔ value = 0 ∨ value = 1 ∨ value = 2 := by
  unfold GetSource.ofI32
  split_ifs <;> simp_all

def BobPutOptions.fromGrpc : Option Grpc.PutOptions → BobPutOptions
  | some vopts => ⟨vopts.forceNode, vopts.overwrite, vopts.remoteNodes.map NodeName.mk⟩
  | none => ⟨false, false, []⟩

def BobPutOptions.toGrpc (options : BobPutOptions) : Grpc.PutOptions :=
  ⟨options.remoteNodes.map (·.str), options.forceNode, options.overwrite⟩

def BobGetOptions.fromGrpc : Option Grpc.GetOptions → Except Panic BobGetOptions
  | some vopts => do
    let source ← GetSource.ofI32 vopts.source
    pure ⟨vopts.forceNode, source⟩
  | none => .ok ⟨false, .all⟩

def BobGetOptions.toGrpc (options : BobGetOptions) : Grpc.GetOptions :=
  ⟨options.forceNode, options.getSource.toI32⟩

def BobDeleteOptions.fromGrpc : Option Grpc.DeleteOptions → BobDeleteOptions
  | some vopts => ⟨vopts.forceNode, vopts.isAlien, vopts.forceAlienNodes.map NodeName.mk⟩
  | none => ⟨false, false, []⟩

def BobDeleteOptions.toGrpc (options : BobDeleteOptions) : Grpc.DeleteOptions :=
  ⟨options.forceAlienNodes.map (·.str), options.forceNode, options.isAlien⟩

/-- The options that a node sends are the options that the other node reads. -/
theorem BobPutOptions.fromGrpc_toGrpc (options : BobPutOptions) :
    BobPutOptions.fromGrpc (some options.toGrpc) = options := by
  simp [fromGrpc, toGrpc, Function.comp_def]

theorem BobDeleteOptions.fromGrpc_toGrpc (options : BobDeleteOptions) :
    BobDeleteOptions.fromGrpc (some options.toGrpc) = options := by
  simp [fromGrpc, toGrpc, Function.comp_def]

theorem BobGetOptions.fromGrpc_toGrpc (options : BobGetOptions) :
    BobGetOptions.fromGrpc (some options.toGrpc) = .ok options := by
  obtain ⟨forceNode, source⟩ := options
  cases source <;> rfl

namespace Server

/-! ## The handlers up to the grinder -/

/-- The parts of a put, if all are there. The key is converted last. -/
def putExtract (req : Grpc.PutRequest) :
    Except Panic (Option (BobKey keySize × List UInt8 × UInt64 × Option Grpc.PutOptions)) :=
  match req.key, req.data.bind fun blob => blob.blobMeta.map fun m => (blob.data, m.timestamp) with
  | some key, some (data, timestamp) => do
    let key ← BobKey.ofVec key.key
    pure (some (key, data, timestamp, req.options))
  | _, _ => .ok none

def getExtract (req : Grpc.GetRequest) :
    Except Panic (Option (BobKey keySize × Option Grpc.GetOptions)) :=
  match req.key with
  | some key => do
    let key ← BobKey.ofVec key.key
    pure (some (key, req.options))
  | none => .ok none

def deleteExtract (req : Grpc.DeleteRequest) :
    Except Panic (Option (BobKey keySize × UInt64 × Option Grpc.DeleteOptions)) :=
  match req.key, req.blobMeta with
  | some key, some blobMeta => do
    let key ← BobKey.ofVec key.key
    pure (some (key, blobMeta.timestamp, req.options))
  | _, _ => .ok none

/-- The requests of the four handlers that carry keys. -/
inductive Request
  | put (req : Grpc.PutRequest)
  | get (req : Grpc.GetRequest)
  | exist (req : Grpc.ExistRequest)
  | delete (req : Grpc.DeleteRequest)
  deriving DecidableEq, Repr

/-- What a handler passes to the grinder. -/
inductive Command (keySize : ℕ)
  | put (key : BobKey keySize) (data : BobData) (options : BobPutOptions)
  | get (key : BobKey keySize) (options : BobGetOptions)
  | exist (keys : List (BobKey keySize)) (options : BobGetOptions)
  | delete (key : BobKey keySize) (bobMeta : BobMeta) (options : BobDeleteOptions)
  deriving DecidableEq, Repr

/-- What a handler makes of its message once the credentials are accepted: a command
for the grinder, or the status it answers with. -/
def decode : Request → Except Panic (Except Status (Command keySize))
  | .put req => do
    match ← putExtract req with
    | some (key, inner, timestamp, options) =>
      pure (.ok (.put key ⟨inner, ⟨timestamp⟩⟩ (BobPutOptions.fromGrpc options)))
    | none =>
      pure (.error ⟨.invalidArgument, "Key, data and timestamp in data.meta is mandatory"⟩)
  | .get req => do
    match ← getExtract req with
    | some (key, options) =>
      let options ← BobGetOptions.fromGrpc options
      pure (.ok (.get key options))
    | none => pure (.error ⟨.invalidArgument, "Key is mandatory"⟩)
  | .exist req => do
    let keys ← req.keys.mapM fun k => BobKey.ofVec k.key
    let options ← BobGetOptions.fromGrpc req.options
    pure (.ok (.exist keys options))
  | .delete req => do
    match ← deleteExtract req with
    | some (key, timestamp, options) =>
      pure (.ok (.delete key ⟨timestamp⟩ (BobDeleteOptions.fromGrpc options)))
    | none => pure (.error ⟨.invalidArgument, "Key and meta are mandatory"⟩)

/-! ## Which messages are decoded -/

/-- The options name one of the three sources, or there are none. -/
def KnownSource (options : Option Grpc.GetOptions) : Prop :=
  ∀ vopts ∈ options, vopts.source = 0 ∨ vopts.source = 1 ∨ vopts.source = 2

/-- No conversion of the message panics. A key is converted only if nothing is
missing, and the source of a read only after its key. -/
def Request.Convertible (keySize : ℕ) : Request → Prop
  | .put req => ∀ key ∈ req.key, (∃ blob ∈ req.data, blob.blobMeta.isSome) →
      key.key.length = keySize
  | .get req => ∀ key ∈ req.key, key.key.length = keySize ∧ KnownSource req.options
  | .exist req => (∀ key ∈ req.keys, key.key.length = keySize) ∧ KnownSource req.options
  | .delete req => ∀ key ∈ req.key, req.blobMeta.isSome → key.key.length = keySize

theorem exists_fromGrpc_iff {options : Option Grpc.GetOptions} :
    (∃ decoded, BobGetOptions.fromGrpc options = .ok decoded) ↔ KnownSource options := by
  cases options with
  | none => exact iff_of_true ⟨_, rfl⟩ (by simp [KnownSource])
  | some vopts =>
    refine (exists_bind_eq_ok_iff fun source => ⟨_, rfl⟩).trans ?_
    rw [GetSource.exists_ofI32_iff]
    simp [KnownSource]

/-- The key of a message with all its parts is converted, and then nothing else can
go wrong. -/
private theorem exists_convert_iff {α : Type} {key : Grpc.BlobKey} {parts : BobKey keySize → α} :
    (∃ outcome, (do let key ← BobKey.ofVec key.key; pure (some (parts key)) :
      Except Panic (Option α)) = .ok outcome) ↔ key.key.length = keySize :=
  (exists_bind_eq_ok_iff fun _ => ⟨_, rfl⟩).trans BobKey.exists_ofVec_iff

theorem exists_putExtract_iff {req : Grpc.PutRequest} :
    (∃ parts, putExtract req = .ok (parts : Option (BobKey keySize × _))) ↔
      (Request.put req).Convertible keySize := by
  obtain ⟨key, data, options⟩ := req
  rcases key with _ | key
  · exact iff_of_true ⟨_, rfl⟩ (by simp [Request.Convertible])
  rcases data with _ | ⟨data, _ | timestamp⟩
  · exact iff_of_true ⟨_, rfl⟩ (by simp [Request.Convertible])
  · exact iff_of_true ⟨_, rfl⟩ (by simp [Request.Convertible])
  · exact exists_convert_iff.trans (by simp [Request.Convertible])

theorem exists_deleteExtract_iff {req : Grpc.DeleteRequest} :
    (∃ parts, deleteExtract req = .ok (parts : Option (BobKey keySize × _))) ↔
      (Request.delete req).Convertible keySize := by
  obtain ⟨key, _ | blobMeta, options⟩ := req
  · exact iff_of_true ⟨none, by cases key <;> rfl⟩ (by simp [Request.Convertible])
  rcases key with _ | key
  · exact iff_of_true ⟨_, rfl⟩ (by simp [Request.Convertible])
  · exact exists_convert_iff.trans (by simp [Request.Convertible])

/-- All keys of a list are converted when all have the length of a key. -/
theorem exists_mapM_ofVec_iff {keys : List Grpc.BlobKey} :
    (∃ decoded, keys.mapM (fun k => (BobKey.ofVec k.key : Except Panic (BobKey keySize))) =
      .ok decoded) ↔ ∀ key ∈ keys, key.key.length = keySize := by
  constructor
  · rintro ⟨decoded, done⟩ key hkey
    obtain ⟨i, hi, rfl⟩ := List.getElem_of_mem hkey
    obtain ⟨len, converted⟩ := List.forall₂_iff_get.mp (mapM_eq_ok_iff.mp done)
    exact BobKey.exists_ofVec_iff.mp ⟨_, converted i hi (len ▸ hi)⟩
  · exact fun fit => exists_mapM_eq_ok fun key hkey => BobKey.exists_ofVec_iff.mpr (fit key hkey)

/-- A read converts its keys and then its options; both must succeed. -/
private theorem exists_read_iff {α β : Type} {keys : Except Panic α}
    {options : Option Grpc.GetOptions} {command : α → BobGetOptions → β} :
    (∃ outcome, (do
      let keys ← keys
      let options ← BobGetOptions.fromGrpc options
      pure (command keys options) : Except Panic β) = .ok outcome) ↔
      (∃ decoded, keys = .ok decoded) ∧ KnownSource options := by
  rw [← exists_fromGrpc_iff]
  constructor
  · rintro ⟨outcome, done⟩
    obtain ⟨decoded, hkeys, done⟩ := bind_eq_ok_iff.mp done
    obtain ⟨read, hread, -⟩ := bind_eq_ok_iff.mp done
    exact ⟨⟨decoded, hkeys⟩, read, hread⟩
  · rintro ⟨⟨decoded, hkeys⟩, read, hread⟩
    exact ⟨_, bind_eq_ok_iff.mpr ⟨decoded, hkeys, bind_eq_ok_iff.mpr ⟨read, hread, rfl⟩⟩⟩

/-- A message is decoded, to a command or to a status, exactly when none of its
conversions panics. -/
theorem decode_returns_iff (req : Request) :
    (∃ outcome : Except Status (Command keySize), decode req = .ok outcome) ↔
      req.Convertible keySize := by
  cases req with
  | put req =>
    refine (exists_bind_eq_ok_iff fun parts => ?_).trans exists_putExtract_iff
    cases parts <;> exact ⟨_, rfl⟩
  | delete req =>
    refine (exists_bind_eq_ok_iff fun parts => ?_).trans exists_deleteExtract_iff
    cases parts <;> exact ⟨_, rfl⟩
  | get req =>
    obtain ⟨_ | key, options⟩ := req
    · exact iff_of_true ⟨_, rfl⟩ (by simp [Request.Convertible])
    have converted := @exists_read_iff _ _ (BobKey.ofVec key.key : Except Panic (BobKey keySize))
      options fun key options => (.ok (.get key options) : Except Status (Command keySize))
    rw [BobKey.exists_ofVec_iff] at converted
    simpa [decode, getExtract, Request.Convertible] using converted
  | exist req => exact exists_read_iff.trans (and_congr_left' exists_mapM_ofVec_iff)

/-- A key of three bytes and the source number three, in a build with keys of eight
bytes: the node aborts. -/
theorem short_key_and_unknown_source_panic :
    (decode (.put ⟨some ⟨[1, 2, 3]⟩, some ⟨[], some ⟨0⟩⟩, none⟩) :
      Except Panic (Except Status (Command 8))) = .error ⟨"key size mismatch: [1, 2, 3]"⟩ ∧
    (decode (.get ⟨some ⟨[0, 0, 0, 0, 0, 0, 0, 1]⟩, some ⟨true, 3⟩⟩) :
      Except Panic (Except Status (Command 8))) = .error ⟨"fatal core error"⟩ := by
  decide

end Server

end Bob

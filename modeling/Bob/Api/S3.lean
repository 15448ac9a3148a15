/-
# The objects of the S3 interface

A PUT writes its body under the key in its path. With a copy source in its headers it is meant
to write the data of the source there instead, unless a conditional header rejects the time
the source was written at.

The key of the source is read from the headers, and then only asked whether it is there: the
data that is copied, and its time, are those of the key in the path. What is promised of a
copy therefore holds just when source and target cannot be told apart by it.

This is about calls of the handler. The handler takes a reference to the server from the
extensions of the request, and the router puts the server itself there. A request through the
router is therefore answered with an internal error before the handler starts.

The store behind the interface is a map from keys to data.
-/

import Mathlib.Logic.Function.Basic
import Bob.Api.DataKey

namespace Bob.Api

variable {keySize : ℕ}

/-! ## Answers -/

/-- Errors of the access control. -/
inductive AuthError
  | unknown
  | invalidToken (message : String)
  | validation (message : String)
  | os (message : String)
  | userNotFound
  | conversionError (message : String)
  | credentialsNotProvided (message : String)
  | multipleCredentialsTypes
  | unauthorizedRequest
  | permissionDenied
  deriving DecidableEq, Repr

namespace AuthError

def msg : AuthError → String
  | unknown => "Unknown error"
  | invalidToken _ => "Invalid token"
  | validation _ => "Validation error"
  | os _ => "Os error"
  | userNotFound => "Unauthorized request"
  | conversionError _ => "Conversion error"
  | credentialsNotProvided _ => "Credentials not provided"
  | multipleCredentialsTypes => "Multiple credentials type"
  | unauthorizedRequest => "Unauthorized request"
  | permissionDenied => "Permission denied"

def statusCode : AuthError → StatusCode
  | unknown => .internalServerError
  | invalidToken _ => .badRequest
  | validation _ => .badRequest
  | os _ => .internalServerError
  | userNotFound => .unauthorized
  | conversionError _ => .badRequest
  | credentialsNotProvided _ => .unauthorized
  | multipleCredentialsTypes => .badRequest
  | unauthorizedRequest => .unauthorized
  | permissionDenied => .forbidden

end AuthError

def StatusCode.canonicalReason : StatusCode → String
  | ok => "OK"
  | created => "Created"
  | notModified => "Not Modified"
  | badRequest => "Bad Request"
  | unauthorized => "Unauthorized"
  | forbidden => "Forbidden"
  | notFound => "Not Found"
  | conflict => "Conflict"
  | preconditionFailed => "Precondition Failed"
  | internalServerError => "Internal Server Error"
  | serviceUnavailable => "Service Unavailable"

namespace StatusExt

def ofAuthError (error : AuthError) : StatusExt := ⟨error.statusCode, false, error.msg⟩

def ofStatusCode (status : StatusCode) : StatusExt := ⟨status, true, status.canonicalReason⟩

def ofError (err : Error keySize) : StatusExt where
  status :=
    match err.ctx with
    | .duplicateKey => .conflict
    | .internal => .internalServerError
    | .vdiskIsNotReady => .internalServerError
    | .keyNotFound _ => .notFound
    | .holderTemporaryUnavailable => .serviceUnavailable
    | _ => .badRequest
  ok := false
  msg := err.ctx.display

end StatusExt

inductive StatusS3
  | statusExt (inner : StatusExt)
  | status (code : StatusCode)
  deriving DecidableEq, Repr

/-- The code of the response. -/
def StatusS3.code : StatusS3 → StatusCode
  | statusExt inner => inner.status
  | status code => code

/-! ## Requests -/

/-- The value of a header is any bytes. -/
structure HeaderValue where
  bytes : List UInt8
  deriving DecidableEq, Repr

/-- The text of a value, if it has visible characters, blanks and tabs only. -/
def HeaderValue.toStr (value : HeaderValue) : Option (List Char) :=
  if value.bytes.all fun byte => (32 ≤ byte && byte < 127) || byte = 9 then
    some (value.bytes.map fun byte => Char.ofNat byte.toNat)
  else none

/-- The type under which the server is among the extensions of a request. -/
inductive ServerExtension
  | value
  | reference
  deriving DecidableEq, Repr

/-- A PUT with the headers that are looked at. -/
structure PutRequest where
  extensions : List ServerExtension
  path : List Char
  body : List UInt8
  copySource : Option HeaderValue
  modifiedSince : Option HeaderValue
  unmodifiedSince : Option HeaderValue
  /-- Whether the credentials allow to write. -/
  hasWrite : Except AuthError Bool

/-- The layer `Extension(bob)` of the router, which takes the server by value. -/
def PutRequest.layered (request : PutRequest) : PutRequest :=
  { request with extensions := .value :: request.extensions }

/-- What a node reads texts and the time with. -/
structure Readers where
  guid : GuidParser
  /-- The seconds of a date as in RFC 2822. -/
  date : List Char → Option Int64
  /-- The seconds of the clock. -/
  now : UInt64

structure CopyObjectHeaders (keySize : ℕ) where
  ifModifiedSince : Option UInt64
  ifUnmodifiedSince : Option UInt64
  sourceKey : Option (BobKey keySize)
  deriving DecidableEq, Repr

namespace CopyObjectHeaders

def isSourceKeySet (headers : CopyObjectHeaders keySize) : Bool := headers.sourceKey.isSome

/-- A value that is not a text, or a text that is not a key, counts as no source. -/
def readSource (readers : Readers) :
    Option HeaderValue → Except Panic (Option (BobKey keySize))
  | none => .ok none
  | some value =>
    match value.toStr with
    | none => .ok none
    | some key => do
      let key ← DataKey.fromStr readers.guid key
      return key.toOption

/-- A text that is not a date, or a date before 1970, counts as no header. -/
def readTime (readers : Readers) : Option HeaderValue → Except Panic (Option UInt64)
  | none => .ok none
  | some value =>
    match value.toStr with
    | none => .error ⟨"failed to convert header to str"⟩
    | some s => .ok ((readers.date s).bind fun seconds =>
        if 0 ≤ seconds then some seconds.toUInt64 else none)

def fromRequest (readers : Readers) (request : PutRequest) :
    Except Panic (CopyObjectHeaders keySize) := do
  let sourceKey ← readSource readers request.copySource
  let ifModifiedSince ← readTime readers request.modifiedSince
  let ifUnmodifiedSince ← readTime readers request.unmodifiedSince
  return ⟨ifModifiedSince, ifUnmodifiedSince, sourceKey⟩

end CopyObjectHeaders

/-! ## Handlers -/

abbrev Store (keySize : ℕ) := BobKey keySize → Option BobData

namespace Grinder

def get (key : BobKey keySize) (store : Store keySize) : Except (Error keySize) BobData :=
  match store key with
  | some data => .ok data
  | none => .error (.keyNotFound key)

def put (key : BobKey keySize) (data : BobData) (store : Store keySize) : Store keySize :=
  Function.update store key (some data)

end Grinder

/-- The answer of a handler, and the store after it. -/
def copyObject (now : UInt64) (key : BobKey keySize) (headers : CopyObjectHeaders keySize)
    (store : Store keySize) : Except StatusS3 StatusS3 × Store keySize :=
  match Grinder.get key store with
  | .error e => (.error (.statusExt (.ofError e)), store)
  | .ok data =>
    let lastModified := data.bobMeta.timestamp
    if headers.ifModifiedSince.any (· > lastModified) then
      (.error (.status .notModified), store)
    else if headers.ifUnmodifiedSince.any (· < lastModified) then
      (.error (.status .preconditionFailed), store)
    else
      (.ok (.statusExt (.ofStatusCode .ok)), Grinder.put key ⟨data.inner, ⟨now⟩⟩ store)

/-- The server and the headers are extracted before the handler starts. A panic leaves the store
as it is. -/
def putObject (readers : Readers) (request : PutRequest) (store : Store keySize) :
    Except Panic (Except StatusS3 StatusS3) × Store keySize :=
  -- the handler asks for `Extension<&BobServer<A>>`
  if .reference ∉ request.extensions then (.ok (.error (.status .internalServerError)), store)
  else match CopyObjectHeaders.fromRequest readers request with
  | .error panic => (.error panic, store)
  | .ok headers =>
    match request.hasWrite with
    | .error e => (.ok (.error (.statusExt (.ofAuthError e))), store)
    | .ok false => (.ok (.error (.statusExt (.ofAuthError .permissionDenied))), store)
    | .ok true =>
      match DataKey.fromStr readers.guid request.path with
      | .error panic => (.error panic, store)
      | .ok (.error e) => (.ok (.error (.statusExt e)), store)
      | .ok (.ok key) =>
        if headers.isSourceKeySet then
          let (answer, after) := copyObject readers.now key headers store
          (.ok answer, after)
        else
          (.ok (.ok (.statusExt (.ofStatusCode .created))),
            Grinder.put key ⟨request.body, ⟨readers.now⟩⟩ store)

/-! ## What a copy promises -/

/-- How the conditional headers judge data that was written at a time. -/
def CopyObjectHeaders.judge (headers : CopyObjectHeaders keySize) (lastModified : UInt64) :
    Option StatusCode :=
  if ∃ time ∈ headers.ifModifiedSince, lastModified < time then some .notModified
  else if ∃ time ∈ headers.ifUnmodifiedSince, time < lastModified then some .preconditionFailed
  else none

/-- The code of an answer, if there is one. -/
def answerCode : Except Panic (Except StatusS3 StatusS3) → Option StatusCode
  | .error _ => none
  | .ok (.error status) => some status.code
  | .ok (.ok status) => some status.code

/-- The request comes to the handler with a reference to the server and these headers, and may
write. -/
structure PutRequest.Admitted (request : PutRequest) (readers : Readers)
    (headers : CopyObjectHeaders keySize) : Prop where
  extracted : .reference ∈ request.extensions
  read : CopyObjectHeaders.fromRequest readers request = .ok headers
  allowed : request.hasWrite = .ok true

/-- The copy source of the request is the text of this key. -/
def PutRequest.NamesSource (request : PutRequest) (readers : Readers) (src : BobKey keySize) :
    Prop :=
  ∃ value ∈ request.copySource, ∃ text ∈ value.toStr,
    DataKey.fromStr readers.guid text = .ok (.ok src)

/-- What is promised of a PUT on `dst` with `src` as its copy source. -/
structure CopiedRight (readers : Readers) (request : PutRequest) (store : Store keySize)
    (src dst : BobKey keySize) : Prop where
  /-- After an OK the target has the bytes of the source, and nothing else has changed. -/
  copied : ∀ data, store src = some data →
    answerCode (putObject readers request store).1 = some .ok →
      ((putObject readers request store).2 dst).map BobData.inner = some data.inner ∧
      ∀ key, key ≠ dst → (putObject readers request store).2 key = store key
  /-- The conditional headers are judged by the time of the source. -/
  judged : ∀ data, store src = some data → ∀ headers : CopyObjectHeaders keySize,
    request.Admitted readers headers → ∀ code, code = .notModified ∨ code = .preconditionFailed →
      (answerCode (putObject readers request store).1 = some code ↔
        headers.judge data.bobMeta.timestamp = some code)
  /-- Without a source the request fails and the target is as before. -/
  absent : store src = none →
    (∀ status, (putObject readers request store).1 ≠ .ok (.ok status)) ∧
    (putObject readers request store).2 dst = store dst

/-- A copy does not notice that it reads the one for the other. -/
def LooksAlike (headers : CopyObjectHeaders keySize) : Option BobData → Option BobData → Prop
  | none, none => True
  | none, some target => headers.judge target.bobMeta.timestamp ≠ none
  | some source, none => headers.judge source.bobMeta.timestamp = none
  | some source, some target =>
    headers.judge source.bobMeta.timestamp = headers.judge target.bobMeta.timestamp ∧
    (headers.judge source.bobMeta.timestamp = none → source.inner = target.inner)

/-! ## The handlers step by step -/

section Judge

variable {headers : CopyObjectHeaders keySize} {lastModified : UInt64} {code : StatusCode}

theorem CopyObjectHeaders.judge_rejects (rejected : headers.judge lastModified = some code) :
    code = .notModified ∨ code = .preconditionFailed := by
  unfold judge at rejected
  split_ifs at rejected
  · exact .inl (Option.some.inj rejected).symm
  · exact .inr (Option.some.inj rejected).symm

variable {now : UInt64} {key : BobKey keySize} {store : Store keySize} {data : BobData}

theorem copyObject_of_absent (absent : store key = none) :
    copyObject now key headers store =
      (.error (.statusExt (.ofError (.keyNotFound key))), store) := by
  rw [copyObject, Grinder.get, absent]

theorem copyObject_of_rejected (present : store key = some data)
    (rejected : headers.judge data.bobMeta.timestamp = some code) :
    copyObject now key headers store = (.error (.status code), store) := by
  simp only [CopyObjectHeaders.judge] at rejected
  simp only [copyObject, Grinder.get, present, Option.any_eq_true, decide_eq_true_eq, gt_iff_lt,
    ← Option.mem_def]
  split_ifs at rejected ⊢ <;> cases rejected <;> rfl

theorem copyObject_of_accepted (present : store key = some data)
    (accepted : headers.judge data.bobMeta.timestamp = none) :
    copyObject now key headers store =
      (.ok (.statusExt (.ofStatusCode .ok)), Grinder.put key ⟨data.inner, ⟨now⟩⟩ store) := by
  simp only [CopyObjectHeaders.judge] at accepted
  simp only [copyObject, Grinder.get, present, Option.any_eq_true, decide_eq_true_eq, gt_iff_lt,
    ← Option.mem_def]
  split_ifs at accepted ⊢
  rfl

end Judge

section Put

variable {readers : Readers} {request : PutRequest} {store : Store keySize}
  {src dst : BobKey keySize} {headers : CopyObjectHeaders keySize}

/-- The key of the source comes with the headers. -/
theorem sourceKey_of_namesSource (source : request.NamesSource readers src)
    (read : CopyObjectHeaders.fromRequest readers request = .ok headers) :
    headers.sourceKey = some src := by
  obtain ⟨value, hvalue, text, htext, named⟩ := source
  rw [Option.mem_def] at hvalue htext
  have found : CopyObjectHeaders.readSource readers request.copySource = .ok (some src) := by
    rw [hvalue, CopyObjectHeaders.readSource, htext]
    dsimp only
    rw [named]
    rfl
  rw [CopyObjectHeaders.fromRequest, found] at read
  obtain ⟨sourceKey, same, read⟩ := Math.bind_eq_ok_iff.mp read
  obtain ⟨modified, -, read⟩ := Math.bind_eq_ok_iff.mp read
  obtain ⟨unmodified, -, read⟩ := Math.bind_eq_ok_iff.mp read
  cases same
  cases read
  rfl

theorem PutRequest.Admitted.unique {other : CopyObjectHeaders keySize}
    (admitted : request.Admitted readers headers) (again : request.Admitted readers other) :
    other = headers :=
  Except.ok.inj (again.read.symm.trans admitted.read)

theorem putObject_of_admitted (admitted : request.Admitted readers headers)
    (path : DataKey.fromStr readers.guid request.path = .ok (.ok dst))
    (source : request.NamesSource readers src) :
    putObject readers request store =
      (.ok (copyObject readers.now dst headers store).1,
        (copyObject readers.now dst headers store).2) := by
  have set : headers.isSourceKeySet = true := by
    rw [CopyObjectHeaders.isSourceKeySet, sourceKey_of_namesSource source admitted.read]
    rfl
  rw [putObject, if_neg (not_not_intro admitted.extracted), admitted.read, admitted.allowed]
  dsimp only
  rw [path]
  exact if_pos set

/-- A request that is not admitted fails and changes nothing. -/
theorem putObject_of_not_admitted
    (refused : ∀ headers : CopyObjectHeaders keySize, ¬ request.Admitted readers headers) :
    (∀ status, (putObject readers request store).1 ≠ .ok (.ok status)) ∧
      answerCode (putObject readers request store).1 ≠ some .ok ∧
      (putObject readers request store).2 = store := by
  rw [putObject]
  split_ifs with extracted
  case neg => exact ⟨nofun, nofun, rfl⟩
  cases read : (CopyObjectHeaders.fromRequest readers request :
      Except Panic (CopyObjectHeaders keySize)) with
  | error panic => exact ⟨nofun, nofun, rfl⟩
  | ok headers =>
    cases allowed : request.hasWrite with
    | error e =>
      refine ⟨nofun, fun same => ?_, rfl⟩
      cases e <;> cases same
    | ok write =>
      cases write with
      | false => exact ⟨nofun, nofun, rfl⟩
      | true => exact absurd ⟨extracted, read, allowed⟩ (refused headers)

/-- A request that comes through the router does not get to the handler. -/
theorem putObject_layered (direct : .reference ∉ request.extensions) :
    putObject readers request.layered store =
      (.ok (.error (.status .internalServerError)), store) :=
  if_pos (by simpa [PutRequest.layered] using direct)

/-! ## Copies -/

theorem copiedRight_iff_of_absent (origin : store src = none) :
    CopiedRight readers request store src dst ↔
      (∀ status, (putObject readers request store).1 ≠ .ok (.ok status)) ∧
        (putObject readers request store).2 dst = store dst := by
  have nothing : ∀ data, store src ≠ some data := fun data present => by
    rw [origin] at present
    cases present
  exact ⟨fun right => right.absent origin, fun failed =>
    ⟨fun data present => absurd present (nothing data),
      fun data present => absurd present (nothing data), fun _ => failed⟩⟩

/-- With a source the promise is one about the code of the answer and the store after it. -/
theorem copiedRight_iff_of_present {data : BobData} (origin : store src = some data)
    (admitted : request.Admitted readers headers)
    {answer : Except Panic (Except StatusS3 StatusS3)} {after : Store keySize}
    (run : putObject readers request store = (answer, after)) {code : StatusCode}
    (answered : answerCode answer = some code) :
    CopiedRight readers request store src dst ↔
      (code = .ok → (after dst).map BobData.inner = some data.inner ∧
        ∀ key, key ≠ dst → after key = store key) ∧
      ∀ rejection, rejection = .notModified ∨ rejection = .preconditionFailed →
        (code = rejection ↔ headers.judge data.bobMeta.timestamp = some rejection) := by
  constructor
  · intro right
    have copied := right.copied data origin
    have judged := right.judged data origin headers admitted
    rw [run, answered, Option.some_inj] at copied
    simp only [run, answered, Option.some_inj] at judged
    exact ⟨copied, judged⟩
  · rintro ⟨copied, judged⟩
    refine ⟨?_, ?_, fun absent => ?_⟩
    · intro other present
      cases origin.symm.trans present
      rw [run, answered, Option.some_inj]
      exact copied
    · intro other present again hagain rejection kind
      cases origin.symm.trans present
      cases admitted.unique hagain
      rw [run, answered, Option.some_inj]
      exact judged rejection kind
    · rw [origin] at absent
      cases absent

/-- A rejection agrees with the judgement just when it is the judgement. -/
theorem agrees_iff_of_rejection {code : StatusCode} {lastModified : UInt64}
    (kind : code = .notModified ∨ code = .preconditionFailed) :
    (∀ rejection, rejection = .notModified ∨ rejection = .preconditionFailed →
      (code = rejection ↔ headers.judge lastModified = some rejection)) ↔
      headers.judge lastModified = some code := by
  constructor
  · intro agrees
    exact (agrees code kind).mp rfl
  · intro judgement rejection _
    rw [judgement, Option.some_inj]

/-- Any other answer agrees with the judgement just when nothing is rejected. -/
theorem agrees_iff_of_not_rejection {code : StatusCode} {lastModified : UInt64}
    (other : ¬ (code = .notModified ∨ code = .preconditionFailed)) :
    (∀ rejection, rejection = .notModified ∨ rejection = .preconditionFailed →
      (code = rejection ↔ headers.judge lastModified = some rejection)) ↔
      headers.judge lastModified = none := by
  constructor
  · intro agrees
    by_contra rejected
    obtain ⟨rejection, judgement⟩ := Option.ne_none_iff_exists'.mp rejected
    have kind := CopyObjectHeaders.judge_rejects judgement
    have same := (agrees rejection kind).mpr judgement
    exact other (same ▸ kind)
  · intro judgement rejection kind
    rw [judgement]
    exact iff_of_false (fun same => other (same ▸ kind)) nofun

section Targets

variable {goal : BobData} (admitted : request.Admitted readers headers)
  (path : DataKey.fromStr readers.guid request.path = .ok (.ok dst))
  (source : request.NamesSource readers src)

include admitted path source

theorem copiedRight_iff_of_target_absent (target : store dst = none) :
    CopiedRight readers request store src dst ↔ LooksAlike headers (store src) none := by
  have run := @putObject_of_admitted keySize readers request store src dst headers admitted path
    source
  rw [copyObject_of_absent target] at run
  cases origin : store src with
  | none =>
    rw [copiedRight_iff_of_absent origin, run]
    exact iff_of_true ⟨nofun, rfl⟩ trivial
  | some data =>
    have answered : answerCode (.ok (.error (.statusExt (.ofError (.keyNotFound dst))))) =
      some .notFound := rfl
    rw [copiedRight_iff_of_present origin admitted run answered, and_iff_right nofun]
    exact agrees_iff_of_not_rejection (by decide)

theorem copiedRight_iff_of_target_rejected {code : StatusCode} (target : store dst = some goal)
    (judgement : headers.judge goal.bobMeta.timestamp = some code) :
    CopiedRight readers request store src dst ↔ LooksAlike headers (store src) (some goal) := by
  have run := @putObject_of_admitted keySize readers request store src dst headers admitted path
    source
  have kind := CopyObjectHeaders.judge_rejects judgement
  rw [copyObject_of_rejected target judgement] at run
  cases origin : store src with
  | none =>
    rw [copiedRight_iff_of_absent origin, run, LooksAlike, judgement, target]
    exact iff_of_true ⟨nofun, target⟩ (Option.some_ne_none code)
  | some data =>
    have answered : answerCode (.ok (.error (.status code))) = some code := rfl
    have notOk : code ≠ .ok := by rcases kind with rfl | rfl <;> decide
    rw [copiedRight_iff_of_present origin admitted run answered, LooksAlike, judgement,
      and_iff_right fun answer => absurd answer notOk]
    refine (agrees_iff_of_rejection kind).trans (iff_self_and.mpr fun rejected none => ?_)
    rw [rejected] at none
    cases none

theorem copiedRight_iff_of_target_accepted (target : store dst = some goal)
    (judgement : headers.judge goal.bobMeta.timestamp = none) :
    CopiedRight readers request store src dst ↔ LooksAlike headers (store src) (some goal) := by
  have run := @putObject_of_admitted keySize readers request store src dst headers admitted path
    source
  rw [copyObject_of_accepted target judgement] at run
  dsimp only at run
  cases origin : store src with
  | none =>
    rw [copiedRight_iff_of_absent origin, run, LooksAlike, judgement]
    exact iff_of_false (fun failed => failed.1 _ rfl) fun differs => differs rfl
  | some data =>
    have answered : answerCode (.ok (.ok (.statusExt (.ofStatusCode .ok)))) = some .ok := rfl
    rw [copiedRight_iff_of_present origin admitted run answered, LooksAlike, judgement,
      and_comm, agrees_iff_of_not_rejection (by decide)]
    refine and_congr_right fun accepted => ?_
    rw [Grinder.put, Function.update_self, Option.map_some, Option.some_inj]
    constructor
    · intro copied _
      exact (copied rfl).1.symm
    · intro same _
      exact ⟨(same accepted).symm, fun key other => Function.update_of_ne other _ _⟩

/-- Of an admitted request the promise is one about the two entries of the store. -/
theorem copiedRight_iff_looksAlike :
    CopiedRight readers request store src dst ↔ LooksAlike headers (store src) (store dst) := by
  -- The handler looks at the target only, so its cases come first.
  cases target : store dst with
  | none => exact copiedRight_iff_of_target_absent admitted path source target
  | some goal =>
    cases judgement : headers.judge goal.bobMeta.timestamp with
    | some code => exact copiedRight_iff_of_target_rejected admitted path source target judgement
    | none => exact copiedRight_iff_of_target_accepted admitted path source target judgement

end Targets

/-- A copy keeps its promise just when, of a request that is admitted, the source and the
target look alike to it. A request through the router is not admitted. -/
theorem copiedRight_iff (readers : Readers) (request : PutRequest) (store : Store keySize)
    (src dst : BobKey keySize)
    (path : DataKey.fromStr readers.guid request.path = .ok (.ok dst))
    (source : request.NamesSource readers src) :
    CopiedRight readers request store src dst ↔
      ∀ headers : CopyObjectHeaders keySize, request.Admitted readers headers →
        LooksAlike headers (store src) (store dst) := by
  by_cases admission : ∃ headers : CopyObjectHeaders keySize, request.Admitted readers headers
  · obtain ⟨headers, admitted⟩ := admission
    rw [copiedRight_iff_looksAlike admitted path source]
    constructor
    · intro alike again hagain
      cases admitted.unique hagain
      exact alike
    · intro alike
      exact alike headers admitted
  · have refused := not_exists.mp admission
    obtain ⟨failed, notOk, same⟩ := @putObject_of_not_admitted _ _ _ store refused
    refine iff_of_true ⟨?_, ?_, ?_⟩ fun headers admitted => absurd admitted (refused headers)
    · intro data _ answered
      exact absurd answered notOk
    · intro data _ headers admitted
      exact absurd admitted (refused headers)
    · intro _
      rw [same]
      exact ⟨failed, rfl⟩

end Put

/-! ### A copy over other data -/

/-- Texts are read without GUIDs and dates, at the second 9. -/
def plainReaders : Readers where
  guid _ := .error "not a GUID"
  date _ := none
  now := 9

/-- A copy of the key 1 to the key 2, without conditions, as a call of the handler. -/
def copyOneToTwo : PutRequest where
  extensions := [.reference]
  path := ['2']
  body := []
  copySource := some ⟨[49]⟩
  modifiedSince := none
  unmodifiedSince := none
  hasWrite := .ok true

/-- The keys 1 and 2 have these bytes, since the seconds 5 and 6. -/
def oneAndTwo (one two : List UInt8) : Store 1 := fun key =>
  if key = ⟨#v[1]⟩ then some ⟨one, ⟨5⟩⟩
  else if key = ⟨#v[2]⟩ then some ⟨two, ⟨6⟩⟩
  else none

private theorem copyOneToTwo_path :
    DataKey.fromStr plainReaders.guid copyOneToTwo.path = .ok (.ok (⟨#v[2]⟩ : BobKey 1)) := by
  decide +kernel

private theorem copyOneToTwo_source :
    copyOneToTwo.NamesSource plainReaders (⟨#v[1]⟩ : BobKey 1) :=
  ⟨⟨[49]⟩, rfl, ['1'], by decide +kernel, by decide +kernel⟩

private theorem copyOneToTwo_headers :
    CopyObjectHeaders.fromRequest plainReaders copyOneToTwo =
      .ok (⟨none, none, some ⟨#v[1]⟩⟩ : CopyObjectHeaders 1) := by
  decide +kernel

/-- Without conditions, data of the same bytes is copied right. -/
theorem copiedRight_of_same_bytes :
    CopiedRight plainReaders copyOneToTwo (oneAndTwo [7] [7]) ⟨#v[1]⟩ ⟨#v[2]⟩ := by
  refine (copiedRight_iff plainReaders copyOneToTwo (oneAndTwo [7] [7]) ⟨#v[1]⟩ ⟨#v[2]⟩
    copyOneToTwo_path copyOneToTwo_source).mpr fun headers admitted => ?_
  cases Except.ok.inj (copyOneToTwo_headers.symm.trans admitted.read)
  exact ⟨rfl, fun _ => rfl⟩

/-- The copy is answered with OK, and the target still has its own bytes. -/
theorem not_copiedRight_of_other_bytes :
    answerCode (putObject plainReaders copyOneToTwo (oneAndTwo [1] [2])).1 = some .ok ∧
    ((putObject plainReaders copyOneToTwo (oneAndTwo [1] [2])).2 ⟨#v[2]⟩).map BobData.inner =
      some [2] ∧
    ¬ CopiedRight plainReaders copyOneToTwo (oneAndTwo [1] [2]) ⟨#v[1]⟩ ⟨#v[2]⟩ := by
  have answered : answerCode (putObject plainReaders copyOneToTwo (oneAndTwo [1] [2])).1 =
      some .ok := by decide +kernel
  have kept : ((putObject plainReaders copyOneToTwo (oneAndTwo [1] [2])).2 ⟨#v[2]⟩).map
      BobData.inner = some [2] := by decide +kernel
  refine ⟨answered, kept, fun right => ?_⟩
  have copied := (right.copied ⟨[1], ⟨5⟩⟩ (by decide) answered).1
  rw [kept] at copied
  exact absurd copied (by decide)

end Bob.Api

/-
# Errors on the wire

A node that fails a request answers with a status: a code and a text. The node
that asked takes the error back out of the text, by its words. The first word says
which error it was, and the others are its payload. The two tables are not inverse
to each other. Four kinds of error have a text that no entry of the second table
recognises, and a payload comes back without its whitespace. Every other error is
read back as it was sent.
-/

import Bob.Common.Types
import Bob.Math.Decimal
import Bob.Math.Sequencing
import Bob.Math.Words

namespace Bob

open Bob.Math

/-- The codes of a status. -/
inductive Code
  | ok
  | cancelled
  | unknown
  | invalidArgument
  | deadlineExceeded
  | notFound
  | alreadyExists
  | permissionDenied
  | resourceExhausted
  | failedPrecondition
  | aborted
  | outOfRange
  | unimplemented
  | internal
  | unavailable
  | dataLoss
  | unauthenticated
  deriving DecidableEq, Repr

/-- How a code is printed in its debug form. -/
def Code.debug : Code → String
  | .ok => "Ok"
  | .cancelled => "Cancelled"
  | .unknown => "Unknown"
  | .invalidArgument => "InvalidArgument"
  | .deadlineExceeded => "DeadlineExceeded"
  | .notFound => "NotFound"
  | .alreadyExists => "AlreadyExists"
  | .permissionDenied => "PermissionDenied"
  | .resourceExhausted => "ResourceExhausted"
  | .failedPrecondition => "FailedPrecondition"
  | .aborted => "Aborted"
  | .outOfRange => "OutOfRange"
  | .unimplemented => "Unimplemented"
  | .internal => "Internal"
  | .unavailable => "Unavailable"
  | .dataLoss => "DataLoss"
  | .unauthenticated => "Unauthenticated"

/-- The answer to a request that failed. -/
structure Status where
  code : Code
  message : String
  deriving DecidableEq, Repr

/-! ## Texts -/

/-- The characters with the Unicode property `White_Space`. -/
def isWhitespace (c : Char) : Bool :=
  (9 ≤ c.toNat && c.toNat ≤ 13) || c.toNat = 0x20 || c.toNat = 0x85 || c.toNat = 0xA0 ||
    c.toNat = 0x1680 || (0x2000 ≤ c.toNat && c.toNat ≤ 0x200A) || c.toNat = 0x2028 ||
    c.toNat = 0x2029 || c.toNat = 0x202F || c.toNat = 0x205F || c.toNat = 0x3000

/-- The digit of a number below 16, in upper case. -/
def upperHexDigit (n : ℕ) : Char := if n < 10 then Char.ofNat (48 + n) else Char.ofNat (55 + n)

/-- The text of a key: two digits for each byte. -/
def BobKey.display {keySize : ℕ} (key : BobKey keySize) : String :=
  String.ofList (key.bytes.toList.flatMap fun byte =>
    [upperHexDigit (byte.toNat / 16), upperHexDigit (byte.toNat % 16)])

/-- The value of a digit in base 16, of either case. -/
def hexDigitValue (c : Char) : Option ℕ :=
  if '0' ≤ c ∧ c ≤ '9' then some (c.toNat - 48)
  else if 'A' ≤ c ∧ c ≤ 'F' then some (c.toNat - 55)
  else if 'a' ≤ c ∧ c ≤ 'f' then some (c.toNat - 87)
  else none

/-- `u8::from_str_radix` in base 16 of a text of two characters. A plus sign may
stand in front. -/
def fromStrRadix (c d : Char) : Option UInt8 :=
  if c = '+' then (hexDigitValue d).map UInt8.ofNat
  else do
    let high ← hexDigitValue c
    let low ← hexDigitValue d
    pure (UInt8.ofNat (16 * high + low))

/-- The text cut into slices of two bytes, each read as a byte. Slicing panics at the
end of the text and inside of a character. -/
def bytesOfSlices : List Char → Except Panic (List (Option UInt8))
  | [] => .ok []
  | [c] =>
    if c.utf8Size = 2 then .ok [none]
    else .error ⟨"byte index is out of bounds or not a char boundary"⟩
  | c :: d :: rest =>
    if c.utf8Size = 2 then do
      let bytes ← bytesOfSlices (d :: rest)
      pure (none :: bytes)
    else if c.utf8Size = 1 ∧ d.utf8Size = 1 then do
      let bytes ← bytesOfSlices rest
      pure (fromStrRadix c d :: bytes)
    else .error ⟨"byte index is not a char boundary"⟩

/-- Read a key. What is not a number in base 16 leaves its byte at zero; a number
past the end of the key panics. -/
def BobKey.fromStr {keySize : ℕ} (text : List Char) : Except Panic (BobKey keySize) := do
  let bytes ← bytesOfSlices text
  if (bytes.drop keySize).any (·.isSome) then .error ⟨"index out of bounds"⟩
  else pure ⟨Vector.ofFn fun i => (bytes[i]?.bind id).getD 0⟩

/-- `u32::from_str`: digits, with a plus sign in front if any, of a number that fits. -/
def vdiskIdFromStr (text : List Char) : Option VDiskId :=
  let digits := if text.head? = some '+' then text.tail else text
  if digits ≠ [] ∧ digits.all (·.isDigit) ∧ Nat.ofDigitChars 10 digits 0 < 2 ^ 32 then
    some (UInt32.ofNat (Nat.ofDigitChars 10 digits 0))
  else none

/-! ## The two tables -/

/-- The status for an error. -/
def Status.ofError {keySize : ℕ} (err : Error keySize) : Status :=
  match err.ctx with
  | .keyNotFound key => ⟨.notFound, "KeyNotFound " ++ key.display⟩
  | .duplicateKey => ⟨.alreadyExists, "DuplicateKey"⟩
  | .timeout => ⟨.deadlineExceeded, "Timeout"⟩
  | .vdiskNotFound id => ⟨.notFound, "VDiskNotFound " ++ id.toNat.repr⟩
  | .storage msg => ⟨.internal, "Storage " ++ msg⟩
  | .vdiskIsNotReady => ⟨.internal, "VDiskIsNotReady"⟩
  | .dcIsNotAvailable => ⟨.internal, "Disk Controller is not available"⟩
  | .possibleDiskDisconnection => ⟨.internal, "Possibly disk was disconnected"⟩
  | .failed msg => ⟨.internal, "Failed " ++ msg⟩
  | .internal => ⟨.internal, "Internal"⟩
  | .pearlChangeState msg => ⟨.internal, "PearlChangeState " ++ msg⟩
  | .requestFailedCompletely msg =>
    ⟨.internal, "Request failed on both stages local and alien: " ++ msg⟩
  | .disksEventsLogger msg => ⟨.internal, "disk events logger error: " ++ msg⟩
  | .unauthorized => ⟨.unauthenticated, "Unauthorized"⟩
  | .holderTemporaryUnavailable => ⟨.unavailable, "HolderTemporaryUnavailable"⟩

namespace Error

variable {keySize : ℕ}

/-- The words that are left, with nothing between them. -/
def restWords (words : List (List Char)) : String := String.ofList words.flatten

/-- The error for a status whose first word is `name`. -/
def ofName (status : Status) (name : String) (rest : List (List Char)) :
    Except Panic (Error keySize) :=
  match name with
  | "KeyNotFound" =>
    match rest with
    | [] => .ok (failed s!"Failed to parse key from {status.message}")
    -- reading a key does not fail, but it may panic
    | word :: _ => do
      let key ← BobKey.fromStr word
      pure (keyNotFound key)
  | "DuplicateKey" => .ok ⟨.duplicateKey⟩
  | "Timeout" => .ok ⟨.timeout⟩
  | "VDiskNotFound" =>
    match rest.head?.bind vdiskIdFromStr with
    | none => .ok (failed s!"Failed to parse vdisk_id from {status.message}")
    | some id => .ok (vdiskNotFound id)
  | "Storage" => .ok (storage (restWords rest))
  | "VDiskIsNotReady" => .ok vdiskIsNotReady
  | "Failed" => .ok (failed (restWords rest))
  | "Internal" => .ok internal
  | "PearlChangeState" => .ok ⟨.pearlChangeState (restWords rest)⟩
  | "Unauthorized" => .ok ⟨.unauthorized⟩
  | "HolderTemporaryUnavailable" => .ok holderTemporaryUnavailable
  | other =>
    .ok (failed s!"Can't parse status {other.quote} from {status.code.debug}, {status.message}")

/-- The error for a status. -/
def ofStatus (status : Status) : Except Panic (Error keySize) :=
  match words isWhitespace status.message.toList with
  | [] => .ok (failed s!"Can't parse status from {status.code.debug}, {status.message}")
  | name :: rest => ofName status (String.ofList name) rest

end Error

/-! ## Words of a message -/

/-- A text without whitespace. -/
def Unspaced (text : List Char) : Prop := ∀ c ∈ text, isWhitespace c = false

instance (text : List Char) : Decidable (Unspaced text) :=
  List.decidableBAll (fun c => isWhitespace c = false) text

/-- Joining the words of a payload keeps it exactly when it has no whitespace. -/
theorem restWords_words_iff {payload : String} :
    Error.restWords (words isWhitespace payload.toList) = payload ↔ Unspaced payload.toList := by
  rw [Error.restWords, flatten_words]
  constructor
  · intro same c hc
    rw [← same, String.toList_ofList, List.mem_filter] at hc
    simpa using hc.2
  · intro free
    rw [List.filter_eq_self.mpr fun c hc => by simp [free c hc], String.ofList_toList]

/-! ## Numbers and keys -/

theorem isWhitespace_of_isDigit {c : Char} (digit : c.isDigit = true) :
    isWhitespace c = false := by
  rw [Char.isDigit, Bool.and_eq_true, decide_eq_true_eq, decide_eq_true_eq] at digit
  have low : 48 ≤ c.toNat := UInt32.le_iff_toNat_le.mp digit.1
  have high : c.toNat ≤ 57 := UInt32.le_iff_toNat_le.mp digit.2
  simp only [isWhitespace, Bool.or_eq_false_iff, Bool.and_eq_false_iff, decide_eq_false_iff_not]
  omega

theorem unspaced_toDigits (n : ℕ) : Unspaced (Nat.toDigits 10 n) := fun _ hc =>
  isWhitespace_of_isDigit (isDigit_of_mem_toDigits hc)

/-- A vdisk id is read as a number. -/
theorem vdiskIdFromStr_eq (text : List Char) :
    vdiskIdFromStr text = (parseDecimal (2 ^ 32) text).map UInt32.ofNat := by
  unfold vdiskIdFromStr parseDecimal
  dsimp only
  generalize (if text.head? = some '+' then text.tail else text) = digits
  split_ifs <;> rfl

/-- A vdisk id is read back from its digits. -/
theorem vdiskIdFromStr_toDigits (id : VDiskId) :
    vdiskIdFromStr (Nat.toDigits 10 id.toNat) = some id := by
  rw [vdiskIdFromStr_eq, parseDecimal_toDigits id.toNat_lt, Option.map_some, UInt32.ofNat_toNat]

private theorem upperHexDigit_spec : ∀ n < 16, hexDigitValue (upperHexDigit n) = some n ∧
    upperHexDigit n ≠ '+' ∧ (upperHexDigit n).utf8Size = 1 ∧
    isWhitespace (upperHexDigit n) = false := by decide

theorem fromStrRadix_upperHexDigit (byte : UInt8) :
    fromStrRadix (upperHexDigit (byte.toNat / 16)) (upperHexDigit (byte.toNat % 16)) =
      some byte := by
  have small := byte.toNat_lt
  obtain ⟨high, unsigned, -⟩ := upperHexDigit_spec (byte.toNat / 16) (by omega)
  obtain ⟨low, -⟩ := upperHexDigit_spec (byte.toNat % 16) (by omega)
  rw [fromStrRadix, if_neg unsigned, high, low]
  simp only [Option.bind_eq_bind, Option.bind_some, Option.pure_def, Nat.div_add_mod,
    UInt8.ofNat_toNat]

private theorem bytesOfSlices_display (bytes : List UInt8) :
    bytesOfSlices (bytes.flatMap fun byte =>
      [upperHexDigit (byte.toNat / 16), upperHexDigit (byte.toNat % 16)]) =
      .ok (bytes.map some) := by
  induction bytes with
  | nil => rfl
  | cons byte rest ih =>
    have small := byte.toNat_lt
    obtain ⟨-, -, high, -⟩ := upperHexDigit_spec (byte.toNat / 16) (by omega)
    obtain ⟨-, -, low, -⟩ := upperHexDigit_spec (byte.toNat % 16) (by omega)
    rw [List.flatMap_cons, List.cons_append, List.cons_append, List.nil_append, bytesOfSlices,
      if_neg (by rw [high]; decide), if_pos ⟨high, low⟩, ih, fromStrRadix_upperHexDigit]
    rfl

/-- A key is read back from its text. -/
theorem BobKey.fromStr_display {keySize : ℕ} (key : BobKey keySize) :
    BobKey.fromStr key.display.toList = .ok key := by
  rw [BobKey.fromStr, BobKey.display, String.toList_ofList, bytesOfSlices_display]
  have fits : (key.bytes.toList.map some).drop keySize = [] := by
    rw [List.drop_eq_nil_iff]
    simp
  simp only [bind, Except.bind, fits, List.any_nil, Bool.false_eq_true, if_false]
  refine congrArg Except.ok (congrArg BobKey.mk (Vector.ext fun i hi => ?_))
  simp

theorem BobKey.unspaced_display {keySize : ℕ} (key : BobKey keySize) :
    Unspaced key.display.toList := by
  intro c hc
  rw [BobKey.display, String.toList_ofList, List.mem_flatMap] at hc
  obtain ⟨byte, -, hc⟩ := hc
  have small := byte.toNat_lt
  rcases List.mem_cons.mp hc with rfl | hc
  · exact (upperHexDigit_spec _ (by omega)).2.2.2
  · rw [List.mem_singleton.mp hc]
    exact (upperHexDigit_spec _ (by omega)).2.2.2

/-- Only the key of size zero has an empty text. -/
theorem BobKey.display_ne_nil {keySize : ℕ} (key : BobKey keySize) (pos : 0 < keySize) :
    key.display.toList ≠ [] := by
  rw [BobKey.display, String.toList_ofList, Ne, List.flatMap_eq_nil_iff]
  intro empty
  have listed : key.bytes[0] ∈ key.bytes.toList := by simp
  cases empty _ listed

/-! ## Which errors come back -/

/-- An error that the receiver reads back: its kind has an entry in both tables, and
its payload has no whitespace. The key of size zero has no text. -/
def Kind.Survives {keySize : ℕ} : Kind keySize → Prop
  | .keyNotFound _ => 0 < keySize
  | .storage payload | .failed payload | .pearlChangeState payload => Unspaced payload.toList
  | .dcIsNotAvailable | .possibleDiskDisconnection => False
  | .requestFailedCompletely _ | .disksEventsLogger _ => False
  | _ => True

namespace Error

variable {keySize : ℕ}

/-- The text of a kind without payload is one word. -/
private theorem ofStatus_name {code : Code} {name : String} (free : Unspaced name.toList)
    (some : name.toList ≠ []) :
    (ofStatus ⟨code, name⟩ : Except Panic (Error keySize)) = ofName ⟨code, name⟩ name [] := by
  rw [ofStatus, words_eq_singleton free some]
  exact congrArg (ofName _ · []) String.ofList_toList

/-- The first word of any other text is the name in front of the first space. -/
private theorem ofStatus_name_append {code : Code} {message : String} (name : String)
    (rest : List Char) (text : message.toList = name.toList ++ ' ' :: rest)
    (free : Unspaced name.toList) (some : name.toList ≠ []) :
    (ofStatus ⟨code, message⟩ : Except Panic (Error keySize)) =
      ofName ⟨code, message⟩ name (words isWhitespace rest) := by
  rw [ofStatus, text, words_append_cons free some rfl]
  exact congrArg (ofName _ · _) String.ofList_toList

/-- So it is if a payload follows a fixed text. -/
private theorem ofStatus_append {code : Code} {first : String} (payload name : String)
    (rest : List Char) (text : first.toList = name.toList ++ ' ' :: rest)
    (free : Unspaced name.toList) (some : name.toList ≠ []) :
    (ofStatus ⟨code, first ++ payload⟩ : Except Panic (Error keySize)) =
      ofName ⟨code, first ++ payload⟩ name (words isWhitespace (rest ++ payload.toList)) := by
  refine ofStatus_name_append name _ ?_ free some
  rw [String.toList_append, text, List.append_assoc]
  rfl

/-- A payload is read back exactly when it has no whitespace. -/
private theorem ok_restWords_iff {payload : String} {kind : String → Kind keySize}
    (injective : Function.Injective kind) :
    (Except.ok ⟨kind (restWords (words isWhitespace payload.toList))⟩ :
      Except Panic (Error keySize)) = .ok ⟨kind payload⟩ ↔ Unspaced payload.toList := by
  rw [Except.ok.injEq, Error.mk.injEq, injective.eq_iff, restWords_words_iff]

/-- An id that is read is the payload of the error. -/
private theorem ofName_vdiskNotFound {status : Status} {word : List Char} {id : VDiskId}
    (read : vdiskIdFromStr word = some id) :
    (ofName status "VDiskNotFound" [word] : Except Panic (Error keySize)) =
      .ok (vdiskNotFound id) := by
  change (match vdiskIdFromStr word with
    | none => Except.ok (failed s!"Failed to parse vdisk_id from {status.message}")
    | some id => .ok (vdiskNotFound id)) = _
  rw [read]

/-- So is a key. -/
private theorem ofName_keyNotFound {status : Status} {word : List Char} {key : BobKey keySize}
    (read : BobKey.fromStr word = .ok key) :
    ofName status "KeyNotFound" [word] = .ok (keyNotFound key) := by
  change (BobKey.fromStr word >>= fun key => pure (keyNotFound key)) = _
  rw [read]
  rfl

/-- An error of the first table is read back by the second exactly when it is one
that survives. -/
theorem error_survives_wire_iff (err : Error keySize) :
    ofStatus (Status.ofError err) = .ok err ↔ err.ctx.Survives := by
  obtain ⟨kind⟩ := err
  cases kind with
  | timeout | duplicateKey | vdiskIsNotReady | internal | unauthorized
  | holderTemporaryUnavailable =>
    rw [Status.ofError, ofStatus_name (by decide +kernel) (by decide +kernel)]
    exact iff_of_true rfl trivial
  | storage payload =>
    rw [Status.ofError, ofStatus_append payload "Storage" [] (by decide +kernel)
      (by decide +kernel) (by decide +kernel)]
    exact ok_restWords_iff fun _ _ same => Kind.storage.inj same
  | failed payload =>
    rw [Status.ofError, ofStatus_append payload "Failed" [] (by decide +kernel)
      (by decide +kernel) (by decide +kernel)]
    exact ok_restWords_iff fun _ _ same => Kind.failed.inj same
  | pearlChangeState payload =>
    rw [Status.ofError, ofStatus_append payload "PearlChangeState" [] (by decide +kernel)
      (by decide +kernel) (by decide +kernel)]
    exact ok_restWords_iff fun _ _ same => Kind.pearlChangeState.inj same
  | vdiskNotFound id =>
    rw [Status.ofError, ofStatus_append id.toNat.repr "VDiskNotFound" [] (by decide +kernel)
      (by decide +kernel) (by decide +kernel), List.nil_append, Nat.toList_repr,
      words_eq_singleton (unspaced_toDigits _) Nat.toDigits_ne_nil,
      ofName_vdiskNotFound (vdiskIdFromStr_toDigits id)]
    exact iff_of_true rfl trivial
  | keyNotFound key =>
    rw [Status.ofError, ofStatus_append key.display "KeyNotFound" [] (by decide +kernel)
      (by decide +kernel) (by decide +kernel), List.nil_append]
    rcases Nat.eq_zero_or_pos keySize with zero | pos
    · subst zero
      have empty : key.display.toList = [] := by
        simp [BobKey.display, Vector.eq_empty]
      rw [empty, words_nil]
      exact iff_of_false (fun same => by cases same) (Nat.lt_irrefl 0)
    · rw [words_eq_singleton key.unspaced_display (key.display_ne_nil pos),
        ofName_keyNotFound key.fromStr_display]
      exact iff_of_true rfl pos
  -- the first words of the other texts are no names of the second table
  | dcIsNotAvailable =>
    rw [Status.ofError, ofStatus_name_append "Disk" _ rfl (by decide +kernel) (by decide +kernel)]
    exact iff_of_false (fun same => by cases same) id
  | possibleDiskDisconnection =>
    rw [Status.ofError, ofStatus_name_append "Possibly" _ rfl (by decide +kernel)
      (by decide +kernel)]
    exact iff_of_false (fun same => by cases same) id
  | requestFailedCompletely payload =>
    rw [Status.ofError, ofStatus_append payload "Request"
      "failed on both stages local and alien: ".toList (by decide +kernel) (by decide +kernel)
      (by decide +kernel)]
    exact iff_of_false (fun same => by cases same) id
  | disksEventsLogger payload =>
    rw [Status.ofError, ofStatus_append payload "disk" "events logger error: ".toList
      (by decide +kernel) (by decide +kernel) (by decide +kernel)]
    exact iff_of_false (fun same => by cases same) id

/-- A storage error comes back with its words run together, and a controller that is
not available as a text that could not be read. -/
theorem errors_changed_on_wire :
    ofStatus (Status.ofError (storage "disk is full" : Error 8)) =
      .ok (storage "diskisfull" : Error 8) ∧
    (storage "diskisfull" : Error 8) ≠ storage "disk is full" ∧
    ∃ cause, ofStatus (Status.ofError (dcIsNotAvailable : Error 8)) =
      .ok (failed cause : Error 8) := by
  exact ⟨by decide +kernel, by decide +kernel, _,
    ofStatus_name_append "Disk" _ rfl (by decide +kernel) (by decide +kernel)⟩

end Error

end Bob

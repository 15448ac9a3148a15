/-
# Credentials in a request

A client sends its user name and its password, with a colon between them, as one word of
its authorization header. The server splits what it decodes at every colon and takes the
first two pieces. So a password is read back up to its first colon.
-/

import Mathlib.Data.List.TakeWhile
import Bob.Math.Base64
import Bob.Access.Credentials
import Bob.Common.Status

namespace Bob.Access

open Bob.Math

inductive AuthenticationType
  | none
  | basic
  | token
  deriving DecidableEq, Repr

/-- What is read of a request: its headers, and the address it comes from. -/
structure Extractor where
  getHeader : String → Except Error (Option String)
  remoteAddr : Option SocketAddr

/-- The libraries that decode a header: the codec of its words, and the text of the error for
bytes that are no UTF-8. -/
structure Decoding where
  base64 : Base64Engine
  utf8Error : ByteArray → String

/-- The pieces between separators, without an empty one at the end. -/
def splitTerminator (sep : Char) (text : String) : List String :=
  let pieces := (text.toList.splitOnP (· == sep)).map String.ofList
  if pieces.getLast? = some "" then pieces.dropLast else pieces

variable (decoding : Decoding)

/-- The text of an encoded word. -/
def decodeText (credentials : String) : Except Error String := do
  let bytes ← (decoding.base64.decode credentials).mapError fun e =>
    Error.conversionError s!"bad base64 credentials: {e}"
  match String.fromUTF8? bytes with
  | some text => return text
  | none => throw (.conversionError
      s!"invalid utf8 credentials characters: {decoding.utf8Error bytes}")

def usernamePasswordFromCredentials (credentials : String) : Except Error (String × String) := do
  let strCred ← decodeText decoding credentials
  match splitTerminator ':' strCred with
  -- the pieces after the second are not looked at
  | username :: password :: _ => return (username, password)
  | [username] => return (username, "")
  | [] => throw (.credentialsNotProvided "missing username or password")

def nodenameFromCredentials (credentials : String) : Except Error String :=
  decodeText decoding credentials

/-- Equal up to the case of ASCII letters. -/
def eqIgnoreAsciiCase (first second : String) : Bool :=
  first.toList.map Char.toLower == second.toList.map Char.toLower

namespace Extractor

variable (extractor : Extractor)

def prepareBuilder : RequestCredentials :=
  ({} : RequestCredentials).withAddress extractor.remoteAddr

def extractBasic : Except Error RequestCredentials := do
  let builder := extractor.prepareBuilder
  match ← extractor.getHeader "authorization" with
  | some authHeader =>
    match (words isWhitespace authHeader.toList).map String.ofList with
    | authType :: credentials :: _ =>
      if eqIgnoreAsciiCase authType "Basic" then
        let (username, password) ← usernamePasswordFromCredentials decoding credentials
        return builder.withUsernamePassword username password
      else if eqIgnoreAsciiCase authType "InterNode" then
        let nodeName ← nodenameFromCredentials decoding credentials
        return builder.withNodename nodeName
      else throw (.credentialsNotProvided "unknown authorization type")
    | _ => throw (.credentialsNotProvided "bad authorization header")
  -- the user of requests without credentials
  | none => return builder.withUsernamePassword "default" ""

def extractToken : Except Error RequestCredentials := do
  let builder := extractor.prepareBuilder
  match ← extractor.getHeader "token" with
  | some token => return builder.withToken token
  | none =>
    match ← extractor.getHeader "node_name" with
    | some nodeName => return builder.withNodename nodeName
    | none => throw (.credentialsNotProvided "missing token")

def extract : AuthenticationType → Except Error RequestCredentials
  | .none => .ok {}
  | .basic => extractor.extractBasic decoding
  | .token => extractor.extractToken

end Extractor

/-! ## The client -/

/-- The arguments of the client that matter for its credentials. -/
structure AppArgs where
  user : Option String
  password : Option String

namespace AppArgs

variable (engine : Base64Engine)

/-- The value of the header that the client prepares. -/
def authorization (args : AppArgs) : String :=
  "Basic " ++ engine.encode (args.user.getD "" ++ ":" ++ args.password.getD "").toUTF8

/-- The header of a request, which has one if both arguments are given. -/
def requestCreator (args : AppArgs) : Option String :=
  if args.user.isSome && args.password.isSome then some (args.authorization engine) else none

end AppArgs

/-! ## Reading it back -/

/-- The part of a text before its first colon. -/
def uptoColon (text : String) : String := String.ofList (text.toList.takeWhile (· ≠ ':'))

theorem uptoColon_eq_self_iff {text : String} : uptoColon text = text ↔ ':' ∉ text.toList := by
  rw [← String.toList_inj, uptoColon, String.toList_ofList, List.takeWhile_eq_self_iff]
  simp only [decide_eq_true_eq]
  exact ⟨fun free colon => free _ colon rfl, fun free c member same => free (same ▸ member)⟩

/-- The first piece of a text is what stands before the first separator. -/
private theorem exists_splitOnP_eq (sep : Char) (text : List Char) :
    ∃ pieces, text.splitOnP (· == sep) = text.takeWhile (· ≠ sep) :: pieces := by
  induction text with
  | nil => exact ⟨[], by simp⟩
  | cons c rest ih =>
    obtain ⟨pieces, split⟩ := ih
    rw [List.splitOnP_cons_eq_if_modifyHead]
    by_cases cut : c = sep
    · exact ⟨rest.splitOnP (· == sep), by simp [cut]⟩
    · exact ⟨pieces, by simp [cut, split]⟩

/-- A name without colon, then a password: an empty piece at the end goes, and the first two
pieces are the name and the password up to its first colon. -/
private theorem splitTerminator_eq {user password : String} (free : ':' ∉ user.toList) :
    (∃ more, splitTerminator ':' (user ++ ":" ++ password) = user :: uptoColon password :: more) ∨
      splitTerminator ':' (user ++ ":" ++ password) = [user] ∧ uptoColon password = "" := by
  obtain ⟨pieces, split⟩ := exists_splitOnP_eq ':' password.toList
  have text : (user ++ ":" ++ password).toList = user.toList ++ ':' :: password.toList := by
    simp [String.toList_append]
  have unsplit : ∀ c ∈ user.toList, (c == ':') = false := fun c member =>
    beq_eq_false_iff_ne.mpr fun same => free (same ▸ member)
  have all : ((user ++ ":" ++ password).toList.splitOnP (· == ':')).map String.ofList =
      user :: uptoColon password :: pieces.map String.ofList := by
    rw [text, List.splitOnP_append_cons_of_forall_mem unsplit ':' (beq_self_eq_true _), split,
      List.map_cons, List.map_cons, String.ofList_toList, uptoColon]
  rw [splitTerminator, all]
  cases pieces with
  | nil =>
    by_cases empty : uptoColon password = ""
    · exact Or.inr ⟨by simp [empty], empty⟩
    · exact Or.inl ⟨[], by simp [empty]⟩
  | cons piece pieces =>
    split_ifs
    · exact Or.inl ⟨_, rfl⟩
    · exact Or.inl ⟨_, rfl⟩

/-- A header of a scheme and of encoded bytes has these two words, as no character of base64 is
a space. -/
theorem words_header {engine : Base64Engine} (lawful : engine.Lawful) {bytes : ByteArray}
    (some : bytes ≠ ByteArray.empty) {scheme header : String} (plain : Unspaced scheme.toList)
    (named : scheme.toList ≠ [])
    (text : header.toList = scheme.toList ++ ' ' :: (engine.encode bytes).toList) :
    (words isWhitespace header.toList).map String.ofList = [scheme, engine.encode bytes] := by
  have unspaced : Unspaced (engine.encode bytes).toList := by
    intro c member
    have graphic := lawful.graphic bytes c member
    simp only [isWhitespace, Bool.or_eq_false_iff, Bool.and_eq_false_iff, decide_eq_false_iff_not]
    omega
  rw [text, words_append_cons plain named rfl,
    words_eq_singleton unspaced (lawful.encode_ne_nil bytes some)]
  simp

section Lawful

variable {decoding : Decoding} (lawful : decoding.base64.Lawful)
include lawful

theorem decodeText_encode (text : String) :
    decodeText decoding (decoding.base64.encode text.toUTF8) = .ok text := by
  rw [decodeText, lawful.decode_encode]
  simp only [Except.mapError, bind, Except.bind, fromUTF8?_toUTF8]
  rfl

/-- The server reads a password up to its first colon. -/
theorem usernamePasswordFromCredentials_encode {user password : String}
    (free : ':' ∉ user.toList) :
    usernamePasswordFromCredentials decoding
        (decoding.base64.encode (user ++ ":" ++ password).toUTF8) =
      .ok (user, uptoColon password) := by
  rw [usernamePasswordFromCredentials, decodeText_encode lawful]
  simp only [bind, Except.bind]
  rcases @splitTerminator_eq user password free with ⟨more, pieces⟩ | ⟨pieces, empty⟩
  · rw [pieces]
    rfl
  · rw [pieces, empty]
    rfl

/-- The header has two words, the second of which is the encoded one. -/
theorem words_authorization {user password : String} :
    (words isWhitespace (AppArgs.authorization decoding.base64
        ⟨some user, some password⟩).toList).map String.ofList =
      ["Basic", decoding.base64.encode (user ++ ":" ++ password).toUTF8] := by
  refine words_header lawful (fun empty => ?_) (by decide) (by decide)
    (by simp [AppArgs.authorization])
  have none : user ++ ":" ++ password = "" := String.toByteArray_inj.mp empty
  simpa using congrArg (':' ∈ ·.toList) none

/-- The server reads the credentials of a request with the password up to its first colon. -/
theorem extractBasic_sent {user password : String} (free : ':' ∉ user.toList)
    {extractor : Extractor} (sent : extractor.getHeader "authorization" =
      .ok (AppArgs.requestCreator decoding.base64 ⟨some user, some password⟩)) :
    extractor.extractBasic decoding =
      .ok ⟨extractor.remoteAddr, some (.basic user (uptoColon password))⟩ := by
  rw [Extractor.extractBasic, sent]
  simp only [AppArgs.requestCreator, Option.isSome_some, Bool.and_self, if_true, bind,
    Except.bind, words_authorization lawful, usernamePasswordFromCredentials_encode lawful free]
  rfl

end Lawful

/-- The credentials that a client sends for a user name without colon are read back exactly if
and only if the password has no colon. -/
theorem basic_credentials_read_back_iff {decoding : Decoding} (lawful : decoding.base64.Lawful)
    {user : String} (free : ':' ∉ user.toList) (password : String) {extractor : Extractor}
    (sent : extractor.getHeader "authorization" =
      .ok (AppArgs.requestCreator decoding.base64 ⟨some user, some password⟩)) :
    extractor.extractBasic decoding = .ok ⟨extractor.remoteAddr, some (.basic user password)⟩ ↔
      ':' ∉ password.toList := by
  rw [extractBasic_sent lawful free sent, ← uptoColon_eq_self_iff]
  simp

/-- The standard codec, with a text for bytes that are no UTF-8. -/
def plainDecoding : Decoding := ⟨Base64.standard, fun _ => "invalid utf-8 sequence"⟩

/-- A request with the credentials of a client. -/
def requestOf (user password : String) : Extractor where
  getHeader := fun _ => .ok (AppArgs.requestCreator Base64.standard ⟨some user, some password⟩)
  remoteAddr := none

theorem plain_password_read_back : (requestOf "bob" "secret").extractBasic plainDecoding =
    .ok ⟨none, some (.basic "bob" "secret")⟩ :=
  (@basic_credentials_read_back_iff plainDecoding Base64.standard.lawful "bob" (by decide) "secret"
    (requestOf "bob" "secret") rfl).mpr (by decide)

/-- Two passwords that differ after a colon are read as the same one, and one that is a colon is
read as none. -/
theorem passwords_with_colons_are_cut :
    (requestOf "bob" "a:b").extractBasic plainDecoding = .ok ⟨none, some (.basic "bob" "a")⟩ ∧
    (requestOf "bob" "a:c").extractBasic plainDecoding = .ok ⟨none, some (.basic "bob" "a")⟩ ∧
    (requestOf "bob" ":").extractBasic plainDecoding = .ok ⟨none, some (.basic "bob" "")⟩ := by
  have cut (password : String) : (requestOf "bob" password).extractBasic plainDecoding =
      .ok ⟨none, some (.basic "bob" (uptoColon password))⟩ :=
    @extractBasic_sent plainDecoding Base64.standard.lawful "bob" password (by decide)
      (requestOf "bob" password) rfl
  exact ⟨cut "a:b", cut "a:c", cut ":"⟩

end Bob.Access

import Cdk.Agent.Describe
import Cdk.Link.Session
import Cdk.Processes.Waiting
import Cdk.Tools.Manifest

/-!
# The gateway's answers to tool messages

A listing, a refusal or the parts of a result, each in a sealed frame of its own.  Results
are cut to fit.  A listing is bounded only by the number of its entries and the length of
each: sixteen long entries do not fit, and the gateway stops at the failed `seal`.
-/

namespace Cdk.Tools

open ByteFormat Link Processes Agent Reader

/-! ## The messages -/

def maxBody : Nat := maxPlaintext - 8 - 48

def maxResult : Nat := 16 * 1024

def maxTools : Nat := 16

/-- A listed tool. -/
structure Entry where
  name : Bytes
  flags : UInt8
  endpoint : Bytes
  deriving DecidableEq

/-- The tool messages. -/
inductive Message where
  | listRequest
  | listResponse (entries : List Entry)
  | callRequest (callId : UInt32) (name args : Bytes)
  | callResponse (callId : UInt32) (status : Status) (body : Bytes)
  | callChunk (callId : UInt32) (body : Bytes)
  deriving DecidableEq

namespace Entry

def valid (entry : Entry) : Bool := validToolName entry.name && validEndpoint entry.endpoint

def encode (entry : Entry) : Bytes :=
  UInt8.ofNat entry.name.length :: (entry.name ++ entry.flags ::
    UInt8.ofNat entry.endpoint.length :: entry.endpoint)

/-- Valid names and endpoints are ASCII, so that the check of UTF-8 refuses nothing more. -/
def reader : Reader Entry := do
  let nameLength ← u8
  let name ← take nameLength.toNat
  let flags ← u8
  let endpointLength ← u8
  let endpoint ← take endpointLength.toNat
  require ((⟨name, flags, endpoint⟩ : Entry).valid && flags &&& ~~~3 == 0)
  pure { name, flags, endpoint }

end Entry

def encodeListResponse (entries : List Entry) : Option Bytes :=
  if maxTools < entries.length ∨ (!entries.all Entry.valid) = true then none
  else some (4 :: UInt8.ofNat entries.length :: entries.flatMap Entry.encode)

/-- A status that says so if the body was cut. -/
def cutStatus (status : Status) (body : Bytes) (limit : Nat) : Status :=
  if limit < body.length ∧ status = .ok then .truncated else status

def encodeCallResponse (callId : UInt32) (status : Status) (body : Bytes) : Bytes :=
  2 :: (le32 callId ++ (cutStatus status body maxBody).code.toUInt8 ::
    (le16 (UInt16.ofNat (body.take maxBody).length) ++ body.take maxBody))

def callChunk (callId : UInt32) (part : Bytes) : Bytes :=
  5 :: (le32 callId ++ (le16 (UInt16.ofNat part.length) ++ part))

/-- A result in chunks. -/
def encodeCallResult (callId : UInt32) (status : Status) (body : Bytes) : List Bytes :=
  let parts := chunks maxBody (body.take maxResult)
  parts.dropLast.map (callChunk callId) ++
    [encodeCallResponse callId (cutStatus status body maxResult) (parts.getLast?.getD [])]

def Status.ofByte? (byte : UInt8) : Option Status :=
  [.ok, .toolError, .unknownTool, .refused, .unavailable, .truncated][byte.toNat]?

def bodyReader : Reader Bytes := do
  let length ← u16
  let body ← take length.toNat
  finish
  require (length.toNat ≤ maxBody)
  pure body

/-- Decode a message. -/
def decode : Bytes → Option Message
  | [] => none
  | tag :: rest =>
    if tag = 3 then if rest = [] then some .listRequest else none
    else if tag = 4 then
      (do let count ← u8
          require (count.toNat ≤ maxTools)
          let entries ← many Entry.reader count.toNat
          finish
          pure (.listResponse entries) : Reader Message).parse rest
    else if tag = 1 then
      (do let callId ← u32
          let length ← u8
          let name ← take length.toNat
          require (validToolName name)
          return .callRequest callId name (← bodyReader) : Reader Message).parse rest
    else if tag = 2 then
      (do let callId ← u32
          let byte ← u8
          let status ← (Status.ofByte? byte : Option Status)
          return .callResponse callId status (← bodyReader) : Reader Message).parse rest
    else if tag = 5 then
      (do let callId ← u32
          return .callChunk callId (← bodyReader) : Reader Message).parse rest
    else none

/-! ## The handler -/

/-- How a model call ends. -/
inductive CallOutcome where
  | ok (text : Bytes)
  | toolError (text : Bytes)
  | failed (text : Bytes)

/-- The tools of the MCP servers, in order, and what a call gives. -/
structure Registry where
  toolNames : List Bytes
  serverOf : Bytes → Option Bytes
  call : Bytes → Bytes → Option CallOutcome

/-- A model backend. -/
structure Backend where
  name : Bytes
  hasKey : Bool
  remote : Bool
  endpoint : Bytes
  call : Bytes → CallOutcome

def modelPrefix : Bytes := ascii "model:"

def Backend.entry (backend : Backend) : Entry where
  name := modelPrefix ++ backend.name
  flags := (if backend.hasKey then 1 else 0) ||| if backend.remote then 2 else 0
  endpoint := backend.endpoint

variable (registry : Registry) (models : List Backend) (allowed : Bytes → Bool)

/-- The tools that are listed. -/
def listed : List Entry :=
  let servers := registry.toolNames.map fun name =>
    (⟨name, 0, ascii "mcp:" ++ (registry.serverOf name).getD (ascii "?")⟩ : Entry)
  ((servers ++ models.map Backend.entry).filter fun entry => allowed entry.name).take maxTools

def CallOutcome.settle : CallOutcome → Status × Bytes
  | .ok text => (.ok, text)
  | .toolError text => (.toolError, text)
  | .failed text => (.unavailable, text)

/-- Call a tool or a model. -/
def callTool (name args : Bytes) : Status × Bytes :=
  if !allowed name then (.refused, name ++ ascii " is not allowed by the gateway")
  else if modelPrefix.isPrefixOf name then
    let model := name.drop modelPrefix.length
    match models.find? fun backend => backend.name == model with
    | some backend => (backend.call args).settle
    | none => (.unknownTool, ascii "no model backend " ++ model)
  else
    match registry.call name args with
    | some outcome => outcome.settle
    | none => (.unknownTool, ascii "no MCP server provides " ++ name)

/-- Answer a tool message. -/
def handleTool (message : Bytes) : List Bytes :=
  match decode message with
  | some .listRequest =>
    [((encodeListResponse (listed registry models allowed)).or (encodeListResponse [])).getD []]
  | some (.callRequest callId name args) =>
    let result := callTool registry models allowed name args
    encodeCallResult callId result.1 result.2
  | _ => [encodeCallResponse 0 .toolError (ascii "malformed tool message")]

/-- The answer before attestation. -/
def refuseUnattested (message : Bytes) : List Bytes :=
  match decode message with
  | some .listRequest => [(encodeListResponse []).getD []]
  | some (.callRequest callId _ _) =>
    [encodeCallResponse callId .refused
      (ascii "the gateway refuses service: CDK's measured boot did not attest")]
  | _ => []

/-! ## What fits -/

/-- Nothing about the message keeps `seal` from succeeding. -/
def Sealable (message : Bytes) : Prop :=
  message.length ≤ maxPlaintext ∧ ∀ (aead : Aead) (session : Session),
    session.txSeq ≠ 0xFFFFFFFFFFFFFFFF →
    (aead.encrypt session.tx (Session.nonce session.txSeq) (Session.aad session.txSeq)
      message).isSome →
      (session.seal aead message maxPayload).2.isOk

theorem sealable_iff : Sealable message ↔ message.length ≤ maxPlaintext := by
  refine ⟨And.left, fun short => ⟨short, fun aead session left encrypts => ?_⟩⟩
  obtain ⟨encrypted, isSome⟩ := Option.isSome_iff_exists.mp encrypts
  rw [Session.seal, if_neg (not_lt.mpr short),
    if_neg (by rw [maxPlaintext, maxPayload, sealOverhead] at short; rw [maxPayload]; omega),
    if_neg left]
  simp only [isSome]
  rfl

def Entry.size (entry : Entry) : Nat := 3 + entry.name.length + entry.endpoint.length

theorem length_flatMap_encode (entries : List Entry) :
    (entries.flatMap Entry.encode).length = (entries.map Entry.size).sum := by
  rw [List.length_flatMap]
  congr 2
  funext entry
  simp [Entry.encode, Entry.size]
  omega

theorem sealable_callResponse (callId : UInt32) (status : Status) (body : Bytes) :
    Sealable (encodeCallResponse callId status body) := by
  rw [sealable_iff]
  simp [encodeCallResponse, maxBody, maxPlaintext, maxPayload, sealOverhead]
  omega

theorem sealable_callResult (callId : UInt32) (status : Status) (body : Bytes) :
    ∀ reply ∈ encodeCallResult callId status body, Sealable reply := by
  intro reply member
  rcases List.mem_append.mp member with chunk | last
  · obtain ⟨part, listed, rfl⟩ := List.mem_map.mp chunk
    have short := length_le_of_mem_chunks (by decide) (List.mem_of_mem_dropLast listed)
    rw [maxBody, maxPlaintext, maxPayload, sealOverhead] at short
    rw [sealable_iff]
    simp [callChunk, maxPlaintext, maxPayload, sealOverhead]
    omega
  · rw [List.mem_singleton.mp last]
    exact sealable_callResponse callId _ _

/-- Every answer fits a sealed frame, except a listing whose entries are too long together. -/
theorem tool_replies_fit_iff
    (message : Bytes) :
    ((∀ reply ∈ handleTool registry models allowed message, Sealable reply) ↔
      (decode message = some .listRequest →
        (∀ entry ∈ listed registry models allowed, entry.valid) →
          2 + ((listed registry models allowed).map Entry.size).sum ≤ maxPlaintext)) ∧
    ∀ reply ∈ refuseUnattested message, Sealable reply := by
  have empty : Sealable ((encodeListResponse []).getD []) := sealable_iff.mpr (by decide)
  have few : ¬ maxTools < (listed registry models allowed).length :=
    not_lt.mpr (List.length_take_le _ _)
  unfold handleTool refuseUnattested
  split
  · rename_i isList
    simp only [isList, List.mem_singleton, forall_eq, true_implies, empty, and_true]
    by_cases valid : ∀ entry ∈ listed registry models allowed, entry.valid
    · have passes : ¬ (maxTools < (listed registry models allowed).length ∨
          (!(listed registry models allowed).all Entry.valid)) := by
        rw [List.all_eq_true.mpr valid]
        simpa using few
      rw [encodeListResponse, if_neg passes, Option.some_or, Option.getD_some, sealable_iff,
        List.length_cons, List.length_cons, length_flatMap_encode]
      rw [imp_iff_right valid]
      omega
    · have refused : (!(listed registry models allowed).all Entry.valid) := by
        rw [Bool.not_eq_true', Bool.eq_false_iff]
        exact fun all => valid (List.all_eq_true.mp all)
      rw [encodeListResponse, if_pos (.inr refused), Option.none_or]
      exact ⟨fun _ isValid => absurd isValid valid, fun _ => empty⟩
  · rename_i isCall
    simp only [isCall, List.mem_singleton, forall_eq]
    exact ⟨iff_of_true (sealable_callResult _ _ _) nofun, sealable_callResponse _ _ _⟩
  · rename_i notList notCall
    simp only [List.mem_singleton, forall_eq]
    exact ⟨iff_of_true (sealable_callResponse _ _ _) fun isList => absurd isList notList, nofun⟩

/-- Sixteen tools of one server, with names and endpoints of the greatest length. -/
def longRegistry : Registry where
  toolNames := (List.range 16).map fun index => List.replicate 47 97 ++ [UInt8.ofNat (97 + index)]
  serverOf _ := some (List.replicate 60 97)
  call _ _ := none

theorem long_listing_not_sealed :
    (∀ entry ∈ listed longRegistry [] fun _ => true, entry.valid) ∧
    ∃ reply, handleTool longRegistry [] (fun _ => true) [3] = [reply] ∧ reply.length = 1842 ∧
      ∀ (aead : Aead) (session : Session),
        (session.seal aead reply maxPayload).2 = .error .tooLarge := by
  have lengths : (handleTool longRegistry [] (fun _ => true) [3]).map List.length = [1842] := by
    decide +kernel
  obtain ⟨reply, answer, length⟩ := List.map_eq_singleton_iff.mp lengths
  refine ⟨by decide +kernel, reply, answer, length, fun aead session => ?_⟩
  rw [Session.seal, if_pos (by rw [length]; decide)]

end Cdk.Tools

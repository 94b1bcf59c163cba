import Cdk.Link.Blob

/-!
# Approval messages

The kernel sends a request to the gateway, and operators answer with a
signature over a statement that binds every field of the request and the
decision.  A signature is longer than a frame, so it comes back in parts;
`Assembler.push` puts consecutive parts together and starts over at a gap or a
change of decision.
-/

namespace Cdk.Link
namespace Approval

open ByteFormat Reader

/-- The signature context, which is also the start of a statement. -/
def context : Bytes := ascii "CDK-APPROVAL-v1"

def requestTag : UInt8 := 0x20

def decisionPartTag : UInt8 := 0x21

def resolvedTag : UInt8 := 0x22

def kindAction : UInt8 := 1

def kindPolicy : UInt8 := 2

/-- Plaintext bytes in one sealed frame. -/
def maxPlaintext : Nat := 1024 - (8 + 16)

def maxText : Nat := maxPlaintext - (1 + 4 + 16 + 1 + 1 + 2 + 32 + 2)

def partBytes : Nat := maxPlaintext - (1 + 4 + 16 + 1 + 2 + 2 + 2)

def isApproval (message : Bytes) : Bool :=
  match message with
  | [] => false
  | tag :: _ => tag == requestTag || tag == decisionPartTag || tag == resolvedTag

/-- What operators are asked. -/
structure Request where
  id : UInt32
  /-- The kernel's issuer id, new at every boot. -/
  issuer : Fixed 16
  kind : UInt8
  /-- Distinct operators that must approve. -/
  quorum : UInt8
  /-- Seconds before the request is denied. -/
  ttl : UInt16
  payloadDigest : Fixed 32
  text : Text
  deriving DecidableEq

/-- One part of a signed decision. -/
structure DecisionPart where
  id : UInt32
  operator : Fixed 16
  approve : Bool
  /-- Length of the whole signature. -/
  total : UInt16
  offset : UInt16
  bytes : Bytes
  deriving DecidableEq

/-- A complete signed decision, its signature still to be checked. -/
structure Decision where
  id : UInt32
  operator : Fixed 16
  approve : Bool
  signature : Bytes
  deriving DecidableEq

/-- A part of the signature. -/
def Decision.part (decision : Decision) (offset : Nat) (bytes : Bytes) : DecisionPart where
  id := decision.id
  operator := decision.operator
  approve := decision.approve
  total := UInt16.ofNat decision.signature.length
  offset := UInt16.ofNat offset
  bytes := bytes

/-- The approval messages. -/
inductive Message where
  | request (request : Request)
  | decisionPart (part : DecisionPart)
  | resolved (id : UInt32) (outcome : UInt8)
  deriving DecidableEq

/-- What is hashed for a statement: every field and the decision. -/
def statementInput (request : Request) (approve : Bool) : Bytes :=
  context ++ [0] ++ le32 request.id ++ request.issuer.bytes ++
    [request.kind, request.quorum] ++ le16 request.ttl ++
    request.payloadDigest.bytes ++
    le16 (UInt16.ofNat (utf8 request.text).length) ++ utf8 request.text ++
    [if approve then 1 else 0]

/-- What an operator signs to approve or deny a request. -/
def statement (crypto : Crypto) (request : Request) (approve : Bool) : Fixed 32 :=
  crypto.sha256 (statementInput request approve)

/-- Every field and the decision can be read off the hashed bytes: all fields
before the text have a fixed length, and the decision is the last byte. -/
theorem statementInput_inj
    (equal : statementInput left leftApprove = statementInput right rightApprove) :
    left = right ∧ leftApprove = rightApprove := by
  simp only [statementInput, List.append_assoc] at equal
  replace equal := List.append_cancel_left (List.append_cancel_left equal)
  obtain ⟨ids, equal⟩ := List.append_inj equal (by simp)
  obtain ⟨issuers, equal⟩ := List.append_inj equal (by simp)
  obtain ⟨kinds, equal⟩ := List.append_inj equal (by simp)
  obtain ⟨ttls, equal⟩ := List.append_inj equal (by simp)
  obtain ⟨digests, equal⟩ := List.append_inj equal (by simp)
  obtain ⟨-, equal⟩ := List.append_inj equal (by simp)
  obtain ⟨texts, decisions⟩ := List.append_inj' equal rfl
  simp only [List.cons.injEq, and_true] at kinds
  refine ⟨?_, ?_⟩
  · have id_eq := congrArg (fun bytes => UInt32.ofNat (leValue bytes)) ids
    have ttl_eq := congrArg (fun bytes => UInt16.ofNat (leValue bytes)) ttls
    simp only [ofNat_leValue_le32] at id_eq
    simp only [ofNat_leValue_le16] at ttl_eq
    cases left
    cases right
    rw [Request.mk.injEq]
    exact ⟨id_eq, Fixed.ext issuers, kinds.1, kinds.2, ttl_eq,
      Fixed.ext digests, utf8_injective texts⟩
  · cases leftApprove <;> cases rightApprove <;> simp_all

def encodeRequest (request : Request) : Option Bytes :=
  if (utf8 request.text).length > maxText then none
  else
    some (requestTag :: (le32 request.id ++ request.issuer.bytes ++
      [request.kind, request.quorum] ++ le16 request.ttl ++
      request.payloadDigest.bytes ++
      le16 (UInt16.ofNat (utf8 request.text).length) ++ utf8 request.text))

def DecisionPart.encode (part : DecisionPart) : Bytes :=
  decisionPartTag :: (le32 part.id ++ (part.operator.bytes ++
    ([if part.approve then 1 else 0] ++ (le16 part.total ++
      (le16 part.offset ++ (le16 (UInt16.ofNat part.bytes.length) ++ part.bytes))))))

def encodeDecision (decision : Decision) : List Bytes :=
  (chunks partBytes decision.signature).mapIdx fun index bytes =>
    (decision.part (index * partBytes) bytes).encode

def encodeResolved (id : UInt32) (outcome : UInt8) : Bytes := resolvedTag :: (le32 id ++ [outcome])

def requestReader : Reader Request := do
  let id ← u32
  let issuer ← fixed 16
  let kind ← u8
  let quorum ← u8
  let ttl ← u16
  let payloadDigest ← fixed 32
  let count ← u16
  let bytes ← take count.toNat
  finish
  require (count.toNat ≤ maxText && (kind == kindAction || kind == kindPolicy) && quorum != 0)
  let text ← (fromUtf8 bytes : Option Text)
  pure { id, issuer, kind, quorum, ttl, payloadDigest, text }

def decisionOfByte (byte : UInt8) : Option Bool :=
  if byte = 0 then some false else if byte = 1 then some true else none

def decisionPartReader : Reader DecisionPart := do
  let id ← u32
  let operator ← fixed 16
  let byte ← u8
  let approve ← (decisionOfByte byte : Option Bool)
  let total ← u16
  let offset ← u16
  let count ← u16
  let bytes ← take count.toNat
  require (offset.toNat + count.toNat ≤ total.toNat)
  pure { id, operator, approve, total, offset, bytes }

/-- Decode a message. -/
def decode (message : Bytes) : Option Message :=
  match message with
  | [] => none
  | tag :: body =>
    if tag = requestTag then (requestReader.parse body).map .request
    else if tag = decisionPartTag then
      ((do let part ← decisionPartReader; finish; pure part :
        Reader DecisionPart).parse body).map .decisionPart
    else if tag = resolvedTag then
      ((do let id ← u32; let outcome ← u8; finish
           pure (id, outcome) : Reader (UInt32 × UInt8)).parse body).map
        fun resolved => .resolved resolved.1 resolved.2
    else none

namespace DecisionPart

/-- The part lies within its signature. -/
def WellFormed (part : DecisionPart) : Prop :=
  part.offset.toNat + part.bytes.length ≤ part.total.toNat

end DecisionPart

/-- The layout of a message. -/
def Message.encode : Message → Bytes
  | .request asked => requestTag :: (le32 asked.id ++ asked.issuer.bytes ++
      [asked.kind, asked.quorum] ++ le16 asked.ttl ++ asked.payloadDigest.bytes ++
      le16 (UInt16.ofNat (utf8 asked.text).length) ++ utf8 asked.text)
  | .decisionPart part => part.encode
  | .resolved id outcome => encodeResolved id outcome

/-- The text is short, the kind known and the quorum positive. -/
def Request.WellFormed (request : Request) : Prop := (utf8 request.text).length ≤ maxText ∧
    (request.kind = kindAction ∨ request.kind = kindPolicy) ∧ request.quorum ≠ 0

/-- What a decoded message meets. -/
def Message.WellFormed : Message → Prop
  | .request asked => asked.WellFormed
  | .decisionPart part => part.WellFormed
  | .resolved _ _ => True

theorem run_request : (∃ rest, requestReader.run body = some (request, rest)) ↔
    requestTag :: body = (Message.request request).encode ∧ request.WellFormed := by
  cases request
  simp [requestReader, Message.encode, Request.WellFormed, Option.bind_eq_some_iff,
    fromUtf8_eq_some, eq_toNat16]
  intro _
  simp only [← and_assoc, mod_le_iff (by decide : maxText < 65536)]

theorem decisionOfByte_eq_some : decisionOfByte byte = some approve ↔
    byte = if approve then 1 else 0 := by
  unfold decisionOfByte
  split_ifs <;> cases approve <;> simp_all

theorem run_decisionPart : decisionPartReader.run input = some (part, rest) ↔
    decisionPartTag :: input = part.encode ++ rest ∧ part.WellFormed := by
  obtain ⟨id, operator, _ | _, total, offset, bytes⟩ := part
  all_goals
    simp [decisionPartReader, DecisionPart.encode, DecisionPart.WellFormed,
      Option.bind_eq_some_iff, decisionOfByte_eq_some, eq_toNat16]
    have := total.toNat_lt
    omega

/-- Exactly the encodings of well-formed messages are accepted. -/
theorem decode_iff : decode input = some message ↔ input = message.encode ∧ message.WellFormed := by
  have tags : requestTag ≠ decisionPartTag ∧ requestTag ≠ resolvedTag ∧
      decisionPartTag ≠ resolvedTag := by decide
  cases input with
  | nil => cases message <;> simp [decode, Message.encode, DecisionPart.encode, encodeResolved]
  | cons tag body =>
    unfold decode
    dsimp only
    split_ifs with isRequest isPart isResolved
    · subst isRequest
      cases message with
      | request asked => simp [run_request, Message.WellFormed]
      | decisionPart part => simp [Message.encode, DecisionPart.encode, tags]
      | resolved id outcome => simp [Message.encode, encodeResolved, tags]
    · subst isPart
      cases message with
      | request asked => simp [Message.encode, isRequest]
      | decisionPart part =>
        simp [run_decisionPart, Message.encode, Message.WellFormed, Option.bind_eq_some_iff]
      | resolved id outcome => simp [Message.encode, encodeResolved, tags]
    · subst isResolved
      cases message with
      | request asked => simp [Message.encode, isRequest]
      | decisionPart part => simp [Message.encode, DecisionPart.encode, isPart]
      | resolved id outcome =>
        simp [Message.encode, encodeResolved, Message.WellFormed, Option.bind_eq_some_iff]
    · cases message <;> simp [Message.encode, DecisionPart.encode, encodeResolved, *]

theorem DecisionPart.decode_encode (part : DecisionPart) (wellFormed : part.WellFormed) :
    decode part.encode = some (.decisionPart part) :=
  decode_iff.mpr ⟨rfl, wellFormed⟩

/-- Puts parts together. -/
structure Assembler where
  key : Option (UInt32 × Fixed 16 × Bool)
  buffer : Bytes
  deriving DecidableEq

namespace Assembler

/-- Nothing under way. -/
def initial : Assembler := ⟨none, []⟩

/-- Append a part. -/
def extend (assembler : Assembler) (part : DecisionPart) : Assembler × Option Decision :=
  let buffer := assembler.buffer ++ part.bytes
  if buffer.length = part.total.toNat then
    (⟨none, []⟩, some ⟨part.id, part.operator, part.approve, buffer⟩)
  else (⟨assembler.key, buffer⟩, none)

/-- Take a part; offset zero restarts. -/
def push (assembler : Assembler) (part : DecisionPart) : Assembler × Option Decision :=
  let key := some (part.id, part.operator, part.approve)
  if part.offset = 0 ∨ assembler.key ≠ key ∨
      assembler.buffer.length ≠ part.offset.toNat then
    if part.offset ≠ 0 then (⟨key, []⟩, none)
    else extend ⟨key, []⟩ part
  else extend assembler part

/-- The assembler is ready for the bytes after `front`. -/
def Ready (decision : Decision) (front : Bytes) (assembler : Assembler) : Prop := front = [] ∨
    assembler = ⟨some (decision.id, decision.operator, decision.approve), front⟩

theorem push_part {assembler : Assembler} {decision : Decision} {front bytes : Bytes}
    (ready : Ready decision front assembler)
    (fits : (front ++ bytes).length ≤ decision.signature.length)
    (short : decision.signature.length < 2 ^ 16) :
    assembler.push (decision.part front.length bytes) =
      if (front ++ bytes).length = decision.signature.length then
        (initial, some { decision with signature := front ++ bytes }) else
        (⟨some (decision.id, decision.operator, decision.approve), front ++ bytes⟩, none) := by
  rw [List.length_append] at fits
  have offset : (UInt16.ofNat front.length).toNat = front.length := by
    rw [UInt16.toNat_ofNat']
    exact Nat.mod_eq_of_lt (by omega)
  have total : (UInt16.ofNat decision.signature.length).toNat = decision.signature.length := by
    rw [UInt16.toNat_ofNat']
    exact Nat.mod_eq_of_lt short
  have extended : extend ⟨some (decision.id, decision.operator, decision.approve), front⟩
          (decision.part front.length bytes) =
        if (front ++ bytes).length = decision.signature.length then
          (initial, some { decision with signature := front ++ bytes })
        else
          (⟨some (decision.id, decision.operator, decision.approve), front ++ bytes⟩, none) := by
    simp only [extend, Decision.part, total, initial]
  rw [← extended]
  by_cases empty : front = []
  · subst empty
    simp [push, Decision.part]
  obtain rfl := ready.resolve_left empty
  have later : (decision.part front.length bytes).offset ≠ 0 := by
    intro zero
    have none : (UInt16.ofNat front.length).toNat = 0 := congrArg UInt16.toNat zero
    exact empty (List.eq_nil_of_length_eq_zero (offset.symm.trans none))
  rw [push, if_neg]
  rintro (zero | other | gap)
  · exact later zero
  · exact other rfl
  · exact gap offset.symm

/-- The parts are taken one after another without a result. -/
def Takes : Assembler → List DecisionPart → Assembler → Prop
  | before, [], later => before = later
  | before, part :: rest, later =>
    (before.push part).2 = none ∧ part.WellFormed ∧ Takes (before.push part).1 rest later

/-- The parts of a decision complete it, with the last of them and not
before. -/
theorem completes_decision {decision : Decision} (short : decision.signature.length < 2 ^ 16)
    {front rest : Bytes} (nonempty : rest ≠ []) (whole : front ++ rest = decision.signature)
    (isParts : ((chunks partBytes rest).mapIdx fun index bytes =>
      decision.part (front.length + index * partBytes) bytes) = parts) :
    ∀ assembler, Ready decision front assembler → ∃ early last later, parts = early ++ [last] ∧
      Takes assembler early later ∧ last.WellFormed ∧
      later.push last = (initial, some decision) := by
  have wellFormed (front bytes : Bytes)
      (fits : (front ++ bytes).length ≤ decision.signature.length) :
      (decision.part front.length bytes).WellFormed := by
    rw [List.length_append] at fits
    simp only [DecisionPart.WellFormed, Decision.part, UInt16.toNat_ofNat']
    omega
  refine chunks_induction _ (by decide) ?_ ?_ front parts nonempty whole isParts
  · intro front bytes nonempty _ whole assembler ready
    have fits : (front ++ bytes).length ≤ decision.signature.length := by rw [whole]
    refine ⟨[], _, assembler, rfl, rfl, wellFormed front bytes fits, ?_⟩
    rw [push_part ready fits short, whole, if_pos rfl]
  · intro front bytes rest nonempty _ less ih assembler ready
    have pushed := push_part ready less.le short
    rw [if_neg less.ne] at pushed
    obtain ⟨early, final, later, split, takes, finalFits, completes⟩ := ih _ (.inr rfl)
    refine ⟨decision.part front.length bytes :: early, final, later, by rw [split]; rfl,
      ⟨congrArg Prod.snd pushed, wellFormed _ _ less.le, by rwa [pushed]⟩, finalFits, completes⟩

end Assembler

end Approval
end Cdk.Link

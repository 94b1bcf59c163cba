import Cdk.Link.Transfers
import Cdk.Tools.Replies

/-!
# One encoding for each tool and approval message

Both decoders accept exactly the encodings of well-formed messages.
-/

namespace Cdk.Tools

open ByteFormat Link Processes Agent

def encodeListRequest : Bytes := [3]

def encodeCallRequest (callId : UInt32) (name args : Bytes) : Option Bytes :=
  if (!validToolName name) ∨ maxBody < args.length then none
  else some (1 :: (le32 callId ++ UInt8.ofNat name.length ::
    (name ++ (le16 (UInt16.ofNat args.length) ++ args))))

namespace Message

/-- The layout of a message. -/
def encode : Message → Bytes
  | listRequest => [3]
  | listResponse entries => 4 :: UInt8.ofNat entries.length :: entries.flatMap Entry.encode
  | callRequest callId name args =>
    1 :: (le32 callId ++ UInt8.ofNat name.length :: (name ++ nested args))
  | callResponse callId status body => 2 :: (le32 callId ++ status.code.toUInt8 :: nested body)
  | callChunk callId body => 5 :: (le32 callId ++ nested body)

/-- What a decoded message meets. -/
def WellFormed : Message → Prop
  | listRequest => True
  | listResponse entries => entries.length ≤ maxTools ∧
      ∀ entry ∈ entries, entry.valid ∧ entry.flags &&& ~~~3 = 0
  | callRequest _ name args => validToolName name ∧ args.length ≤ maxBody
  | callResponse _ _ body | callChunk _ body => body.length ≤ maxBody

end Message

theorem length_lt_of_validToolName (valid : validToolName name) : name.length < 256 :=
  (length_le_of_validName valid).trans_lt (by decide)

theorem Entry.run_reader : reader.run input = some (entry, rest) ↔
    input = entry.encode ++ rest ∧ entry.valid ∧ entry.flags &&& ~~~3 = 0 := by
  cases entry
  simp [reader, encode, Option.bind_eq_some_iff, eq_toNat8]
  intro _
  rw [← and_assoc, and_iff_right_iff_imp]
  rintro ⟨valid, -⟩
  simp only [Entry.valid, validEndpoint, Bool.and_eq_true, decide_eq_true_eq] at valid
  exact ⟨length_lt_of_validToolName valid.1, valid.2.1.trans_lt (by decide)⟩

theorem run_body : bodyReader.run input = some (body, rest) ↔
    input = nested body ∧ body.length ≤ maxBody ∧ rest = [] := by
  simp [bodyReader, nested, Option.bind_eq_some_iff, eq_toNat16]
  intro _
  rw [← and_assoc, mod_le_iff (by decide)]

theorem Status.ofByte?_eq_some :
    Status.ofByte? byte = some status ↔ byte = status.code.toUInt8 := by
  rw [Status.ofByte?, ← UInt8.toNat_inj]
  generalize byte.toNat = number
  cases status <;> rcases number with _ | _ | _ | _ | _ | _ | number <;> simp [Status.code]

/-- Exactly the encodings of well-formed messages are accepted. -/
theorem decode_iff : decode input = some message ↔ input = message.encode ∧ message.WellFormed := by
  cases input with
  | nil => cases message <;> simp [decode, Message.encode]
  | cons tag rest =>
    unfold decode
    dsimp only
    split_ifs with isListRequest empty isListResponse isCallRequest isCallResponse isCallChunk
    · subst isListRequest empty
      cases message <;> simp [Message.encode, Message.WellFormed]
    · cases message <;> simp_all [Message.encode]
    · subst isListResponse
      cases message <;> simp [Message.encode, Message.WellFormed, Option.bind_eq_some_iff,
        Reader.run_many_valid Entry.run_reader, eq_toNat8]
      intro _
      rw [← and_assoc, and_comm (a := _ % _ ≤ _), mod_le_iff (by decide)]
    · subst isCallRequest
      cases message <;> simp [Message.encode, Message.WellFormed, Option.bind_eq_some_iff, run_body,
        eq_toNat8]
      intro _ valid _
      exact length_lt_of_validToolName valid
    · subst isCallResponse
      cases message <;> simp [Message.encode, Message.WellFormed, Option.bind_eq_some_iff, run_body,
        Status.ofByte?_eq_some]
    · subst isCallChunk
      cases message <;> simp [Message.encode, Message.WellFormed, Option.bind_eq_some_iff, run_body]
    · cases message <;> simp [Message.encode, *]

/-- Tool and approval messages have one encoding each: what is accepted is the encoding of the
message it decodes to, and every encoder's output decodes to what was encoded. -/
theorem messages_canonical :
    (∀ input message, decode input = some message → message.encode = input) ∧
    (∀ input message, Approval.decode input = some message → message.encode = input) ∧
    (∀ left right message, decode left = some message → decode right = some message →
      left = right) ∧
    (∀ left right message, Approval.decode left = some message →
      Approval.decode right = some message → left = right) ∧
    decode encodeListRequest = some .listRequest ∧
    (∀ entries : List Entry, entries.length ≤ maxTools →
      (∀ entry ∈ entries, entry.valid ∧ entry.flags &&& ~~~3 = 0) →
        ∃ message, encodeListResponse entries = some message ∧
          decode message = some (.listResponse entries)) ∧
    (∀ callId name args, validToolName name → args.length ≤ maxBody →
      ∃ message, encodeCallRequest callId name args = some message ∧
        decode message = some (.callRequest callId name args)) ∧
    (∀ callId status body, body.length ≤ maxBody →
      decode (encodeCallResponse callId status body) = some (.callResponse callId status body)) ∧
    (∀ callId body, body.length ≤ maxBody →
      decode (callChunk callId body) = some (.callChunk callId body)) ∧
    (∀ request : Approval.Request, request.WellFormed →
      ∃ message, Approval.encodeRequest request = some message ∧
        Approval.decode message = some (.request request)) ∧
    (∀ part : Approval.DecisionPart,
      Approval.decode part.encode = some (.decisionPart part) ↔ part.WellFormed) ∧
    (∀ decision : Approval.Decision, decision.signature.length ≤ 65535 →
      ∃ parts : List Approval.DecisionPart, (∀ part ∈ parts, part.WellFormed) ∧
        Approval.encodeDecision decision = parts.map Approval.DecisionPart.encode) ∧
    ∀ id outcome, Approval.decode (Approval.encodeResolved id outcome) =
      some (.resolved id outcome) := by
  refine ⟨fun _ _ decoded => (decode_iff.mp decoded).1.symm,
    fun _ _ decoded => (Approval.decode_iff.mp decoded).1.symm,
    fun _ _ _ left right => (decode_iff.mp left).1.trans (decode_iff.mp right).1.symm,
    fun _ _ _ left right =>
      (Approval.decode_iff.mp left).1.trans (Approval.decode_iff.mp right).1.symm,
    decode_iff.mpr ⟨rfl, trivial⟩, ?_, ?_, ?_, fun callId body fits => decode_iff.mpr ⟨rfl, fits⟩,
    ?_, ?_, ?_, fun id outcome => Approval.decode_iff.mpr ⟨rfl, trivial⟩⟩
  · intro entries few wellFormed
    refine ⟨_, if_neg ?_, decode_iff.mpr ⟨rfl, few, wellFormed⟩⟩
    have valid : entries.all Entry.valid :=
      List.all_eq_true.mpr fun entry listed => (wellFormed entry listed).1
    simp [valid, few]
  · intro callId name args valid fits
    refine ⟨_, if_neg ?_, decode_iff.mpr ⟨rfl, valid, fits⟩⟩
    simp [valid, fits]
  · intro callId status body fits
    rw [encodeCallResponse, List.take_of_length_le fits, cutStatus, if_neg (by omega)]
    exact decode_iff.mpr ⟨rfl, fits⟩
  · intro request wellFormed
    exact ⟨_, if_neg (Nat.not_lt.mpr wellFormed.1), Approval.decode_iff.mpr ⟨rfl, wellFormed⟩⟩
  · intro part
    simp [Approval.decode_iff, Approval.Message.encode, Approval.Message.WellFormed]
  · intro decision short
    rcases Nat.eq_zero_or_pos decision.signature.length with empty | positive
    · refine ⟨[], by simp, ?_⟩
      rw [Approval.encodeDecision, List.eq_nil_of_length_eq_zero empty, chunks_nil]
      rfl
    · obtain ⟨early, last, -, encoded, wellFormed, -⟩ :=
        Approval.Assembler.initial.takes_encoded positive short
      exact ⟨early ++ [last], wellFormed, encoded⟩

end Cdk.Tools

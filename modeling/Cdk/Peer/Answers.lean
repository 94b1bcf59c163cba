import Cdk.Link.Approval
import Cdk.Peer.Lists

/-!
# Waiting for the gateway's answer

`waitAnswer` reads the link in batches, each to its end, until a status or a blob of the wanted
kind has arrived, and applies the revocation lists that come in between.  The chunks of a blob
have their effect with the last of them.
-/

namespace Cdk.Peer

open ByteFormat Link

/-- The gateway's answer to a request. -/
inductive Answer where
  /-- A successful status, with its note. -/
  | done (note : Text)
  /-- A blob of the requested kind. -/
  | blob (data : Bytes)
  deriving DecidableEq

/-- What a call has while it waits. -/
structure Waiting where
  assembler : BlobAssembler
  out : Option (Except Text Answer)
  revoked : BoundedVec UInt64 maxRevoked
  deriving DecidableEq

def Waiting.start (revoked : BoundedVec UInt64 maxRevoked) : Waiting := ⟨.initial, none, revoked⟩

section

variable (kind : UInt8) (waiting : Waiting)

/-- A complete blob. -/
def complete (blob : UInt8 × Bytes) : Waiting :=
  if blob.1 = BlobKind.revocations.byte then
    { waiting with revoked := onRevocations waiting.revoked blob.2 }
  else if blob.1 = kind then
    { waiting with out := some (.ok (.blob blob.2)) }
  else waiting

def conclude : BlobAssembler.Outcome → Waiting
  | .ok (some blob) => complete kind waiting blob
  | _ => waiting

/-- Take an answer. -/
def receive (message : Bytes) : Waiting :=
  if Approval.isApproval message then waiting
  else match decodeStatus message with
    | some (ok, text) =>
      { waiting with
        out := some (if ok then .ok (.done text) else .error text) }
    | none =>
      if message.head? = some blobTag then
        let pushed := waiting.assembler.push message
        { conclude kind waiting pushed.2 with assembler := pushed.1 }
      else waiting

/-- Read the link in batches until there is an answer; the list of batches ends
when the time does. -/
def waitAnswer (kind : UInt8) (waiting : Waiting) : List (List Bytes) → Waiting
  | [] => waiting
  | batch :: rest =>
    if waiting.out.isSome then waiting
    else waitAnswer kind (batch.foldl (receive kind) waiting) rest

/-- If no answer is there before the last message, all messages are read. -/
theorem waitAnswer_eq_foldl (batches : List (List Bytes))
    (quiet : ∀ early, early <+: batches.flatten → early ≠ batches.flatten →
      (early.foldl (receive kind) waiting).out = none) : waitAnswer kind waiting batches =
      batches.flatten.foldl (receive kind) waiting := by
  induction batches generalizing waiting with
  | nil => rfl
  | cons batch rest ih =>
    rw [waitAnswer]
    split
    · rename_i answered
      have nothingLeft : (batch :: rest).flatten = [] := by
        by_contra nonempty
        have silent := quiet [] List.nil_prefix (Ne.symm nonempty)
        rw [List.foldl_nil] at silent
        rw [silent] at answered
        cases answered
      rw [nothingLeft, List.foldl_nil]
    · rw [List.flatten_cons, List.foldl_append]
      apply ih
      intro early before proper
      rw [← List.foldl_append]
      apply quiet
      · rw [List.flatten_cons]
        exact (List.prefix_append_right_inj batch).mpr before
      · rw [List.flatten_cons]
        exact fun equal => proper (List.append_cancel_left equal)

end

variable {kind : UInt8}

/-- No answer is there before the last of two groups of messages if the first
group gives none and the second gives none before its end. -/
theorem quiet_append
    (firstQuiet : ∀ early, early <+: first → (early.foldl (receive kind) waiting).out = none)
    (secondQuiet : ∀ early, early <+: second → early ≠ second → (early.foldl (receive kind)
        (first.foldl (receive kind) waiting)).out = none) :
    ∀ early, early <+: first ++ second → early ≠ first ++ second →
      (early.foldl (receive kind) waiting).out = none := by
  intro early before proper
  rcases le_total early.length first.length with short | long
  · exact firstQuiet early (List.prefix_of_prefix_length_le before (List.prefix_append _ _) short)
  obtain ⟨rest, rfl⟩ := List.prefix_of_prefix_length_le (List.prefix_append first second) before
      long
  rw [List.foldl_append]
  apply secondQuiet rest ((List.prefix_append_right_inj first).mp before)
  rintro rfl
  exact proper rfl

/-! ## Statuses on the link -/

section

variable (kind : UInt8) (waiting : Waiting)

theorem receive_status (ok : Bool) (text : Text) :
    receive kind waiting (encodeStatus ok text) = { waiting with
        out := some (if ok then .ok (.done (cutAt 200 text)) else .error (cutAt 200 text)) } := by
  have noApproval : Approval.isApproval (encodeStatus ok text) = false := by
    simp [Approval.isApproval, encodeStatus, peerStatusTag, Approval.requestTag,
      Approval.decisionPartTag, Approval.resolvedTag]
  simp [receive, noApproval]

/-! ## Blobs on the link -/

/-- The message carries part of a blob. -/
def IsChunk (message : Bytes) : Prop := message.head? = some blobTag

theorem receive_chunk (chunk : IsChunk message) :
    receive kind waiting message = { conclude kind waiting (waiting.assembler.push message).2 with
        assembler := (waiting.assembler.push message).1 } := by
  obtain ⟨rest, rfl⟩ : ∃ rest, message = blobTag :: rest := by
    cases message with
    | nil => cases chunk
    | cons tag rest =>
      cases chunk
      exact ⟨rest, rfl⟩
  have noApproval : Approval.isApproval (blobTag :: rest) = false := by
    simp [Approval.isApproval, blobTag, Approval.requestTag,
      Approval.decisionPartTag, Approval.resolvedTag]
  have noStatus : decodeStatus (blobTag :: rest) = none := by
    cases rest with
    | nil => rfl
    | cons ok text => simp [decodeStatus, blobTag, peerStatusTag]
  simp [receive, noApproval, noStatus]

theorem conclude_assembler (assembler : BlobAssembler) (outcome : BlobAssembler.Outcome) :
    conclude kind { waiting with assembler := assembler } outcome =
      { conclude kind waiting outcome with assembler := assembler } := by
  unfold conclude
  split
  · simp only [complete]
    repeat' split
    all_goals rfl
  · rfl

theorem foldl_conclude_assembler (assembler : BlobAssembler)
    (outcomes : List BlobAssembler.Outcome) :
    outcomes.foldl (conclude kind) { waiting with assembler := assembler } =
      { outcomes.foldl (conclude kind) waiting with assembler := assembler } := by
  induction outcomes generalizing waiting with
  | nil => rfl
  | cons outcome rest ih =>
    rw [List.foldl_cons, conclude_assembler, ih, List.foldl_cons]

theorem foldl_receive_chunks (messages : List Bytes)
    (chunks : ∀ message ∈ messages, IsChunk message) : messages.foldl (receive kind) waiting =
      { (waiting.assembler.pushAll messages).2.foldl (conclude kind) waiting with
        assembler := (waiting.assembler.pushAll messages).1 } := by
  induction messages generalizing waiting with
  | nil => rfl
  | cons message rest ih =>
    rw [List.foldl_cons, receive_chunk kind waiting (chunks message List.mem_cons_self),
      ih _ fun other later =>
        chunks other (List.mem_cons_of_mem _ later)]
    simp only [BlobAssembler.pushAll, List.foldl_cons, foldl_conclude_assembler]

end

variable {data : Bytes}

theorem isChunk_of_encodeBlob (encoded : encodeBlob kind data = some messages) :
    ∀ message ∈ messages, IsChunk message := by
  unfold encodeBlob at encoded
  split at encoded
  · cases encoded
  · cases encoded
    intro message sent
    obtain ⟨index, _, rfl⟩ := List.mem_mapIdx.mp sent
    rfl

theorem foldl_conclude_idle (kind : UInt8) (waiting : Waiting) (count : Nat) :
    (List.replicate count (.ok none)).foldl (conclude kind) waiting = waiting := by
  induction count with
  | zero => rfl
  | succ count ih =>
    rw [List.replicate_succ, List.foldl_cons]
    exact ih

theorem foldl_receive_encodeBlob (wanted : UInt8) (waiting : Waiting)
    (encoded : encodeBlob kind data = some messages) : messages.foldl (receive wanted) waiting =
      { complete wanted waiting (kind, data) with assembler := ⟨kind, 0, []⟩ } := by
  obtain ⟨count, pushed⟩ := waiting.assembler.pushAll_encodeBlob encoded
  rw [foldl_receive_chunks wanted waiting messages (isChunk_of_encodeBlob encoded), pushed]
  simp only [List.foldl_append, foldl_conclude_idle, List.foldl_cons, List.foldl_nil]
  rfl

variable (wanted : UInt8) (waiting : Waiting) (encoded : encodeBlob kind data = some messages)
  (before : early <+: messages) (proper : early ≠ messages)
include encoded before proper

/-- A proper prefix of the chunks of a blob has no effect beyond the
assembler. -/
theorem foldl_receive_prefix : ∃ assembler, early.foldl (receive wanted) waiting =
      { waiting with assembler := assembler } := by
  refine ⟨(waiting.assembler.pushAll early).1, ?_⟩
  rw [foldl_receive_chunks wanted waiting early fun message sent =>
      isChunk_of_encodeBlob encoded message (before.subset sent),
    waiting.assembler.pushAll_of_prefix encoded before proper,
    foldl_conclude_idle]

theorem out_of_incomplete : (early.foldl (receive wanted) waiting).out = waiting.out := by
  obtain ⟨assembler, same⟩ := foldl_receive_prefix wanted waiting encoded before proper
  rw [same]

end Cdk.Peer

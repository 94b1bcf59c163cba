import Cdk.Agent.Handles
import Cdk.Library.HashChain

/-!
# Audit records

A record says what happened and carries a hash over its contents and the hash of
the record before it.  `recordInput_inj` says that the hashed bytes determine
everything that goes into them: all fields but the subject have fixed lengths.

Sequence numbers are 64-bit words, which wrap around.  The place of a record in the
chain is a natural number; its sequence number is the word of that place.
-/

namespace Cdk.Audit

open ByteFormat BoundedText Link

/-- What happened. -/
inductive EventKind
  | boot
  | capIssued
  | capAccepted
  | capRejected
  | processSpawned
  | processStarted
  | processExited
  | processReaped
  | processCrashed
  | programLoaded
  | capGranted
  | capDerived
  | processKilled
  | approvalRequested
  | approvalGranted
  | approvalDenied
  | linkEstablished
  | linkRejected
  | toolCall
  | toolResult
  | policyApplied
  | policyRefused
  | approvalSigned
  | approvalRejected
  | approvalTimeout
  | bootMeasured
  | bootVerified
  | bootRejected
  | attested
  | tpmReady
  | nodeCertified
  | capExported
  | capImported
  | capImportRejected
  | capRevoked
  | peerMessageSent
  | peerMessageDelivered
  | peerMessageRejected
  | storeLoaded
  | storeFailed
  | storeReset
  | storeMigrated
  deriving DecidableEq

namespace EventKind

def code : EventKind → UInt8
  | boot => 1
  | capIssued => 2
  | capAccepted => 3
  | capRejected => 4
  | processSpawned => 5
  | processStarted => 6
  | processExited => 7
  | processReaped => 8
  | processCrashed => 9
  | programLoaded => 10
  | capGranted => 11
  | capDerived => 12
  | processKilled => 13
  | approvalRequested => 14
  | approvalGranted => 15
  | approvalDenied => 16
  | linkEstablished => 17
  | linkRejected => 18
  | toolCall => 19
  | toolResult => 20
  | policyApplied => 21
  | policyRefused => 22
  | approvalSigned => 23
  | approvalRejected => 24
  | approvalTimeout => 25
  | bootMeasured => 26
  | bootVerified => 27
  | bootRejected => 28
  | attested => 29
  | tpmReady => 30
  | nodeCertified => 31
  | capExported => 32
  | capImported => 33
  | capImportRejected => 34
  | capRevoked => 35
  | peerMessageSent => 36
  | peerMessageDelivered => 37
  | peerMessageRejected => 38
  | storeLoaded => 39
  | storeFailed => 40
  | storeReset => 41
  | storeMigrated => 42

/-- All kinds. -/
def all : List EventKind :=
  [.boot, .capIssued, .capAccepted, .capRejected, .processSpawned, .processStarted,
    .processExited, .processReaped, .processCrashed, .programLoaded, .capGranted,
    .capDerived, .processKilled, .approvalRequested, .approvalGranted,
    .approvalDenied, .linkEstablished, .linkRejected, .toolCall, .toolResult,
    .policyApplied, .policyRefused, .approvalSigned, .approvalRejected,
    .approvalTimeout, .bootMeasured, .bootVerified, .bootRejected, .attested,
    .tpmReady, .nodeCertified, .capExported, .capImported, .capImportRejected,
    .capRevoked, .peerMessageSent, .peerMessageDelivered, .peerMessageRejected,
    .storeLoaded, .storeFailed, .storeReset, .storeMigrated]

theorem find_code (kind : EventKind) :
    (all.find? fun other => other.code == kind.code) = some kind := by
  cases kind <;> rfl

theorem code_injective : Function.Injective code := by
  intro left right equal
  apply Option.some.inj
  rw [← find_code left, ← find_code right, equal]

end EventKind

/-- Bytes of a subject that are kept. -/
def maxSubject : Nat := 48

/-- What is recorded, without its place in the log. -/
structure Event where
  tsc : UInt64
  kind : EventKind
  subject : Str maxSubject
  detail : UInt64
  deriving DecidableEq

/-- A record of the log. -/
structure Record where
  seq : UInt64
  event : Event
  hash : Fixed 32
  deriving DecidableEq

/-- As much of a subject as fits, cut between characters. -/
def truncate (subject : List Char) : Str maxSubject :=
  ⟨writePieces maxSubject [] (subject.map String.utf8EncodeChar),
    length_writePieces_le _ (Nat.zero_le _)⟩

/-- The bytes a record's hash is computed from. -/
def recordInput (prev : Fixed 32) (seq : UInt64) (event : Event) : Bytes :=
  ascii "CDK-AUDIT-REC-v1" ++ (prev.bytes ++ (le64 seq ++
    (le64 event.tsc ++ ([event.kind.code, UInt8.ofNat event.subject.text.length] ++
        (event.subject.text ++ le64 event.detail)))))

variable (crypto : Crypto)

/-- The hash of a record: over its contents and the hash before it. -/
def recordHash (prev : Fixed 32) (seq : UInt64) (event : Event) : Fixed 32 :=
  crypto.sha256 (recordInput prev seq event)

/-- The bytes the hash before the first record is computed from. -/
def genesisInput (issuerId : Fixed 16) : Bytes :=
  ascii "CDK-AUDIT-GENESIS-v1" ++ issuerId.bytes

/-- The hash before the first record. -/
def genesisHash (issuerId : Fixed 16) : Fixed 32 :=
  crypto.sha256 (genesisInput issuerId)

/-- What the issuer signs at a checkpoint. -/
def checkpointDigest (issuerId : Fixed 16) (seq : UInt64) (head : Fixed 32) : Fixed 32 :=
  crypto.sha256 (ascii "CDK-AUDIT-CKPT-v1" ++ issuerId.bytes ++ le64 seq ++ head.bytes)

/-- The hashed bytes determine the hash before and the event. -/
theorem recordInput_inj (equal : recordInput prev seq event = recordInput prev' seq event') :
    prev = prev' ∧ event = event' := by
  have afterDomain := List.append_cancel_left equal
  obtain ⟨prevs, afterPrev⟩ := List.append_inj afterDomain (by simp)
  have afterSeq := List.append_cancel_left afterPrev
  obtain ⟨tscs, afterTsc⟩ := List.append_inj afterSeq (by simp)
  obtain ⟨heads, texts⟩ := List.append_inj afterTsc rfl
  have tails : (le64 event.detail).length = (le64 event'.detail).length := by simp
  obtain ⟨subjects, details⟩ := List.append_inj' texts tails
  refine ⟨Fixed.ext prevs, ?_⟩
  have kinds := EventKind.code_injective (List.cons.inj heads).1
  cases event
  cases event'
  simp only [Event.mk.injEq]
  exact ⟨le64_injective tscs, kinds, Str.ext subjects, le64_injective details⟩

/-- The domain labels keep records apart from the start of the chain. -/
theorem recordInput_ne_genesisInput : recordInput prev seq event ≠ genesisInput issuerId := by
  intro equal
  have labels := congrArg (List.take 11) equal
  revert labels
  exact nofun

/-- A record stands at a place of the chain after the hash `prev`. -/
def Record.Fits (place : Nat) (prev : Fixed 32) (record : Record) : Prop :=
  record.seq = UInt64.ofNat place ∧ recordHash crypto prev record.seq record.event = record.hash

/-- Each record stands at its place, after the hash of the one before it. -/
abbrev Chained : Fixed 32 → Nat → List Record → Prop :=
  HashChain.Chained Record.hash (Record.Fits crypto)

/-- The hash after some records. -/
abbrev headAfter : Fixed 32 → List Record → Fixed 32 := HashChain.tip Record.hash

end Cdk.Audit

import Cdk.Agent.Handles
import Cdk.Peer.Import

/-!
# Delegating a handle to another node

What the kernel of a certified node signs for other nodes: the delegation of a
process's handle, which `prepareExport` drafts and `signExport` signs, and the
messages that its agents send under the delegations of others, which `outbound`
takes from the queue of a proxy object.
-/

namespace Cdk.Peer

open ByteFormat Link Kernel Agent Mask

/-- One boot of a node: its issuer key and the certificate it has been given. -/
structure Boot extends Issuer where
  cert : Option NodeCert
  /-- The certificate is for this boot's key. -/
  own : ∀ held ∈ cert, held.issuer = key

/-! ## Exports -/

/-- Why a handle is not exported. -/
inductive ExportError where
  | noCertificate
  | badNodeName
  | thisNode
  | noSuchHandle
  | objectGone
  | peersObject
  | badObjectName
  | notHeld
  | nothingToExport
  deriving DecidableEq, Repr

theorem has_approvalBit (bit : Nat) : has approvalBit bit = decide (7 = bit) :=
  Agent.has_approvalBit bit

/-- The mask to export of a held one: what is asked for, or everything, and
always the approval gate. -/
def exportMask (held : UInt64) : Option UInt64 → Except ExportError UInt64
  | some asked =>
    if asked &&& ~~~held ≠ 0 then .error .notHeld
    else .ok (asked ||| (held &&& approvalBit))
  | none => .ok held

theorem exportMask_ok (exported : exportMask held asked = .ok mask) :
    (∀ bit, has mask bit → has held bit) ∧
      (∀ part ∈ asked, ∀ bit, has part bit → has held bit) ∧
      (has held 7 → has mask 7) := by
  cases asked with
  | none =>
    cases exported
    simp
  | some part =>
    simp only [exportMask, ne_eq, ite_not] at exported
    split at exported
    · rename_i within
      rw [and_not_eq_zero_iff] at within
      cases exported
      refine ⟨?_, ?_, ?_⟩
      · intro bit set
        rw [has_or, has_and, Bool.or_eq_true, Bool.and_eq_true] at set
        rcases set with asked | ⟨kept, -⟩
        · exact within bit asked
        · exact kept
      · rintro other isPart bit set
        cases isPart
        exact within bit set
      · intro gated
        rw [has_or, has_and, gated, has_approvalBit, Bool.or_eq_true]
        exact .inr rfl
    · cases exported

def exportSerial (random exports : UInt64) : UInt64 :=
  (random &&& ~~~0xFFFF) ||| (exports &&& 0xFFFF)

/-- What an export is asked for. -/
structure ExportRequest where
  pid : UInt32
  handle : UInt64
  audience : Bytes
  /-- A part of the handle's permissions, or all of them. -/
  perms : Option UInt64

/-- Draft the delegation of a handle, not yet signed. -/
def prepareExport (boot : Boot) (tables : Tables) (objects : Objects) (request : ExportRequest)
    (random exports : UInt64) : Except ExportError PortableCap :=
  match boot.cert with
  | none => .error .noCertificate
  | some cert =>
    match Name.ofBytes? validNodeName request.audience with
    | none => .error .badNodeName
    | some audience =>
      if audience = cert.name then .error .thisNode
      else match tables.handleCap request.pid request.handle with
      | .error _ => .error .noSuchHandle
      | .ok token =>
        match objects.get token.objectId with
        | none => .error .objectGone
        | some object =>
          if (ascii "peer:").isPrefixOf object.kind then
            .error .peersObject
          else match Name.ofBytes? validObjectName object.kind with
          | none => .error .badObjectName
          | some name =>
            match exportMask token.permissionMask request.perms with
            | .error error => .error error
            | .ok mask =>
              if mask &&& ~~~approvalBit = 0 then
                .error .nothingToExport
              else
                .ok
                  { cert := cert
                    object := name
                    perms := mask
                    audience := audience
                    serial := exportSerial random exports
                    notAfter := cert.notAfter
                    signature := default }

def signExport (boot : Boot) (draft : PortableCap) : PortableCap :=
  { draft with
    signature := boot.sign PortableCap.context (draft.digest boot.crypto) }

/-- What is drafted comes from a handle of the process: its mask is what
`exportMask` makes of the handle's, and more than the gate. -/
theorem prepareExport_ok
    (prepared : prepareExport boot tables objects request random exports = .ok draft) :
    ∃ token, tables.handleCap request.pid request.handle = .ok token ∧
      exportMask token.permissionMask request.perms = .ok draft.perms := by
  unfold prepareExport at prepared
  repeat' split at prepared
  all_goals try contradiction
  rename_i token held _ _ _ _ _ _ _ _ mask exported _
  cases prepared
  exact ⟨token, held, exported⟩

/-! ## Messages -/

def payloadBytes : MessagePayload → Option Bytes
  | .data bytes => some bytes
  | .text text | .command text => some text
  | .request _ _ | .response _ => none

def agentLabel : SenderName := ⟨ascii "agent", by decide⟩

/-- The signed message for one that was queued at the proxy of a delegation.
Payloads that cannot be sent are skipped. -/
def outbound (boot : Boot) (grant : PortableCap) (seq : UInt64)
    (queued : Message) : Option PeerMessage :=
  match boot.cert, (payloadBytes queued.payload).bind Payload.ofBytes? with
  | some me, some payload =>
    let message : PeerMessage :=
      { sender := me
        grant := grant
        seq := seq
        «from» := (Name.ofBytes? validSender queued.from).getD agentLabel
        payload := payload
        signature := default }
    some
      { message with
        signature :=
          boot.sign PeerMessage.context (message.digest boot.crypto) }
  | _, _ => none

end Cdk.Peer

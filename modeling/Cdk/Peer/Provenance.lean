import Cdk.Gateway.Certify
import Cdk.Library.Signatures
import Cdk.Peer.Export

/-!
# Where a delivered message comes from

The registry root, the gateways and the boots sign nothing but what `NodeAuthority.issue`,
`Registry.certify`, `signExport` and `outbound` build: each signature is an `Act`.  Every other
byte, and the clock, is the adversary's.  `delivered_has_provenance`: a message that is accepted
goes back, record by record, to acts.
-/

namespace Cdk
namespace Link

def NodeAuthority.issue (root : Agent.Issuer) (node : NodeName) (key : Identity)
    (notAfter : UInt64) : NodeAuthority :=
  let authority : NodeAuthority :=
    { node := node
      key := key
      root := root.id
      notAfter := notAfter
      signature := default }
  { authority with
    signature := root.sign NodeAuthority.context (authority.digest root.crypto) }

end Link

namespace Peer

open ByteFormat Link Kernel Agent Gateway Signatures

/-! ## Acts -/

/-- A signature of an honest party. -/
inductive Act where
  /-- The root lets a key certify a node. -/
  | issue (root : Issuer) (node : NodeName) (key : Identity) (notAfter : UInt64)
  /-- A gateway certifies a boot. -/
  | certify (registry : Registry) (issuer : Identity) (attested : Fixed 32) (serial now : UInt64)
  /-- A boot signs a delegation. -/
  | signExport (boot : Boot) (draft : PortableCap)
  /-- A boot forwards a queued message under a delegation. -/
  | send (boot : Boot) (grant : PortableCap) (seq : UInt64) (queued : Message)

/-- Who signs what in which context.  A gateway loads only an authority for its
own key, so that is the key it signs with. -/
def Act.signing (crypto : Crypto) : Act → Option (Signing Identity Bytes Bytes)
  | .issue root node key notAfter =>
    some ⟨root.key, NodeAuthority.context, (NodeAuthority.issue root node key notAfter).signedPart⟩
  | .certify registry issuer attested serial now =>
    some ⟨registry.authority.key, NodeCert.context,
      (registry.certify crypto issuer attested serial now).signedPart⟩
  | .signExport boot draft =>
    some ⟨boot.key, PortableCap.context, (Peer.signExport boot draft).signedPart⟩
  | .send boot grant seq queued =>
    (outbound boot grant seq queued).map fun message =>
      ⟨boot.key, PeerMessage.context, message.signedPart⟩

/-- The context of a signature. -/
def Act.context : Act → Bytes
  | .issue _ _ _ _ => NodeAuthority.context
  | .certify _ _ _ _ _ => NodeCert.context
  | .signExport _ _ => PortableCap.context
  | .send _ _ _ _ => PeerMessage.context

variable {signing : Signing Identity Bytes Bytes}

theorem Act.context_of_signing {act : Act} (signs : act.signing crypto = some signing) :
    signing.context = act.context := by
  cases act with
  | send boot grant seq queued =>
    obtain ⟨message, -, rfl⟩ := Option.map_eq_some_iff.mp signs
    rfl
  | _ =>
    cases signs
    rfl

def signings (crypto : Crypto) (history : List Act) : List (Signing Identity Bytes Bytes) :=
  history.filterMap (Act.signing crypto)

/-- What is signed does not depend on how hashes are computed. -/
theorem signings_eq (crypto other : Crypto) (history : List Act) :
    signings crypto history = signings other history := by
  have same : Act.signing crypto = Act.signing other := by
    funext act
    cases act <;> rfl
  rw [signings, signings, same]

section Acts

variable {crypto : Crypto} {history : List Act} {key : Identity}

theorem issued_of_mem_signings {authority : NodeAuthority}
    (logged : ⟨key, NodeAuthority.context, authority.signedPart⟩ ∈ signings crypto history) :
    ∃ root, root.key = key ∧
      .issue root authority.node authority.key authority.notAfter ∈ history := by
  obtain ⟨act, happened, signs⟩ := List.mem_filterMap.mp logged
  have context := Act.context_of_signing signs
  cases act with
  | issue root node gateway notAfter =>
    simp only [Act.signing, Option.some.injEq, Signing.mk.injEq] at signs
    have same := NodeAuthority.eq_of_signedPart signs.2.2
    rw [NodeAuthority.issue, NodeAuthority.mk.injEq] at same
    obtain ⟨rfl, rfl, -, rfl, -⟩ := same
    exact ⟨root, signs.1, happened⟩
  | _ => exact absurd context (ne_of_beq_false rfl)

/-- A certificate in the log was made by a gateway that holds its authority. -/
theorem certified_of_mem_signings {cert : NodeCert}
    (logged : ⟨key, NodeCert.context, cert.signedPart⟩ ∈ signings crypto history) :
    ∃ registry serial now, registry.authority = cert.authority ∧
      registry.authority.key = key ∧ registry.node = cert.name ∧
      .certify registry cert.issuer cert.attested serial now ∈ history := by
  obtain ⟨act, happened, signs⟩ := List.mem_filterMap.mp logged
  have context := Act.context_of_signing signs
  cases act with
  | certify registry issuer attested serial now =>
    simp only [Act.signing, Option.some.injEq, Signing.mk.injEq] at signs
    have same := NodeCert.eq_of_signedPart signs.2.2
    rw [Registry.certify, NodeCert.mk.injEq] at same
    obtain ⟨name, rfl, -, -, rfl, -, authority, -⟩ := same
    exact ⟨registry, serial, now, authority, signs.1, name, happened⟩
  | _ => exact absurd context (ne_of_beq_false rfl)

/-- A delegation in the log was exported, with all it says. -/
theorem exported_of_mem_signings {cap : PortableCap}
    (logged : ⟨key, PortableCap.context, cap.signedPart⟩ ∈ signings crypto history) :
    ∃ boot draft, boot.key = key ∧ draft = { cap with signature := draft.signature } ∧
      .signExport boot draft ∈ history := by
  obtain ⟨act, happened, signs⟩ := List.mem_filterMap.mp logged
  have context := Act.context_of_signing signs
  cases act with
  | signExport boot draft =>
    simp only [Act.signing, Option.some.injEq, Signing.mk.injEq] at signs
    -- Signing does not change the signed part.
    have same : draft.signedPart = cap.signedPart := signs.2.2
    exact ⟨boot, draft, signs.1, PortableCap.eq_of_signedPart same, happened⟩
  | _ => exact absurd context (ne_of_beq_false rfl)

/-- A message that a boot forwards is about the given delegation and carries the
payload of the queued one. -/
theorem outbound_eq_some (forwarded : outbound boot grant seq queued = some message) :
    boot.cert = some message.sender ∧ message.grant = grant ∧ message.seq = seq ∧
      payloadBytes queued.payload = some message.payload.bytes := by
  unfold outbound at forwarded
  split at forwarded
  · rename_i me payload certified read
    cases forwarded
    obtain ⟨bytes, carried, checked⟩ := Option.bind_eq_some_iff.mp read
    refine ⟨certified, rfl, rfl, ?_⟩
    unfold Payload.ofBytes? at checked
    repeat' split at checked
    all_goals cases checked
    exact carried
  · cases forwarded

/-- A message in the log was forwarded by a boot with the sender's
certificate. -/
theorem sent_of_mem_signings {message : PeerMessage}
    (logged : ⟨key, PeerMessage.context, message.signedPart⟩ ∈ signings crypto history) :
    ∃ boot queued, boot.key = key ∧ boot.cert = some message.sender ∧
      payloadBytes queued.payload = some message.payload.bytes ∧
      .send boot message.grant message.seq queued ∈ history := by
  obtain ⟨act, happened, signs⟩ := List.mem_filterMap.mp logged
  have context := Act.context_of_signing signs
  cases act with
  | send boot grant seq queued =>
    obtain ⟨sent, forwarded, signed⟩ := Option.map_eq_some_iff.mp signs
    simp only [Signing.mk.injEq] at signed
    obtain ⟨certified, rfl, rfl, carried⟩ := outbound_eq_some forwarded
    have same := PeerMessage.eq_of_signedPart signed.2.2
    rw [same] at happened certified carried
    exact ⟨boot, queued, signed.1, certified, carried, happened⟩
  | _ => exact absurd context (ne_of_beq_false rfl)

end Acts

/-! ## Provenance -/

/-- Only their acts are signed with the root's key, with the keys that the root
lets certify and with the keys that have been certified. -/
structure Honest (crypto : Crypto) (root : Identity) (history : List Act) : Prop where
  rootKey : Unforgeable crypto.sha256 (verifyWith crypto) (signings crypto history) root
  gatewayKeys : ∀ holder node key notAfter, holder.key = root →
    .issue holder node key notAfter ∈ history →
    Unforgeable crypto.sha256 (verifyWith crypto) (signings crypto history) key
  bootKeys : ∀ registry issuer attested serial now,
    .certify registry issuer attested serial now ∈ history →
    Unforgeable crypto.sha256 (verifyWith crypto) (signings crypto history) issuer

/-- The texts whose signatures are checked. -/
def checkedTexts (message : PeerMessage) : List Bytes :=
  [message.sender.authority.signedPart, message.sender.signedPart,
    message.grant.cert.authority.signedPart, message.grant.cert.signedPart,
    message.grant.signedPart, message.signedPart]

def textsInQuestion (crypto : Crypto) (history : List Act) (delivered : Bytes) : Set Bytes :=
  {text | text ∈ (signings crypto history).map Signing.text ∨
    ∃ now message, parseDelivered delivered = some (now, message) ∧
      text ∈ checkedTexts message}

/-- The root authorised a key for the certificate's name, and the gateway with
that key certified the certificate's boot. -/
structure Certified (root : Identity) (history : List Act) (cert : NodeCert) : Prop where
  authorised : ∃ holder, holder.key = root ∧
    .issue holder cert.name cert.authority.key cert.authority.notAfter ∈ history
  certified : ∃ registry serial now, registry.authority = cert.authority ∧
    registry.node = cert.name ∧
    .certify registry cert.issuer cert.attested serial now ∈ history

/-- The acts behind a message to a node. -/
structure Provenance (root : Identity) (history : List Act) (me : NodeName) (now : UInt64)
    (message : PeerMessage) : Prop where
  /-- The delegation is of a certified boot of this node. -/
  here : message.grant.cert.name = me
  owner : Certified root history message.grant.cert
  /-- The sender is a certified boot of the node in its certificate. -/
  sender : Certified root history message.sender
  /-- The owner's boot exported this object with these permissions to the
  sender's node. -/
  exported : ∃ boot draft, .signExport boot draft ∈ history ∧ boot.key = message.grant.cert.issuer ∧
    draft.cert = message.grant.cert ∧
    draft.object = message.grant.object ∧
    draft.perms = message.grant.perms ∧
    draft.audience = message.sender.name ∧
    draft.notAfter = message.grant.notAfter
  /-- The sender's boot forwarded this payload under this delegation. -/
  sent : ∃ boot queued, .send boot message.grant message.seq queued ∈ history ∧
    boot.key = message.sender.issuer ∧
    boot.cert = some message.sender ∧
    payloadBytes queued.payload = some message.payload.bytes
  senderValid : now ≤ message.sender.notAfter ∧
    message.sender.notAfter ≤ message.sender.authority.notAfter
  grantValid : now ≤ message.grant.notAfter ∧ message.grant.notAfter ≤ message.grant.cert.notAfter ∧
    message.grant.cert.notAfter ≤ message.grant.cert.authority.notAfter

section Provenance

variable {crypto : Crypto} {root : Identity} {history : List Act}

theorem certified_of_chained (honest : Honest crypto root history)
    (apart : Set.InjOn crypto.sha256 texts)
    (logged : ∀ signing ∈ signings crypto history, signing.text ∈ texts)
    (authorityChecked : cert.authority.signedPart ∈ texts) (certChecked : cert.signedPart ∈ texts)
    (chained : cert.Chained crypto root) :
    Certified root history cert := by
  obtain ⟨holder, held, issued⟩ := issued_of_mem_signings
    (honest.rootKey.mem_log apart logged authorityChecked chained.authorised)
  have gateway := honest.gatewayKeys holder _ _ _ held issued
  obtain ⟨registry, serial, now, authority, -, name, certified⟩ := certified_of_mem_signings
      (gateway.mem_log apart logged certChecked chained.certified)
  rw [chained.named] at issued
  exact ⟨⟨holder, held, issued⟩, ⟨registry, serial, now, authority, name, certified⟩⟩

theorem Certified.unforgeable (certified : Certified root history cert)
    (honest : Honest crypto root history) :
    Unforgeable crypto.sha256 (verifyWith crypto) (signings crypto history) cert.issuer := by
  obtain ⟨registry, serial, now, -, -, happened⟩ := certified.certified
  exact honest.bootKeys registry _ _ serial now happened

/-- A message that is delivered has been verified against the pinned registry
under this node's name. -/
theorem verified_of_deliver
    (accepted : (deliver crypto setting outcome node delivered).2 = .ok result) :
    ∃ now message registry me, parseDelivered delivered = some (now, message) ∧
      setting.registry = some registry ∧ setting.node = some me ∧
      message.Verified crypto registry me now := by
  unfold deliver at accepted
  split at accepted
  · cases accepted
  rename_i now message parsed
  have ends := deliverMessage_delivers crypto setting outcome node now message
  rw [accepted] at ends
  generalize (deliverMessage crypto setting outcome node now message).1 = after at ends
  cases ends with
  | delivered id kept pushed store durable objects recordable =>
    obtain ⟨⟨registry, me, pinned, certified, verified⟩, -⟩ := screen_ok recordable.screened
    exact ⟨now, message, registry, me, parsed, pinned, certified, verified⟩

/-- Whatever the adversary sends and whatever the clock says: the records of a
message that a node accepts go back to acts of the root, of the two gateways
and of the two boots, and none of them has expired. -/
theorem delivered_has_provenance
    (crypto : Crypto)
    (root : Identity)
    (history : List Act)
    (honest : Honest crypto root history)
    (setting : Setting)
    (me : NodeName)
    (pinned : setting.registry = some root)
    (named : setting.node = some me)
    (outcome : WriteOutcome)
    (node : Node)
    (delivered : Bytes)
    (apart : Set.InjOn crypto.sha256 (textsInQuestion crypto history delivered))
    (result : Bytes × Bytes)
    (accepted : (deliver crypto setting outcome node delivered).2 = .ok result) :
    ∃ now message, parseDelivered delivered = some (now, message) ∧
      Provenance root history me now message := by
  obtain ⟨now, message, registry, name, parsed, pinnedHere, namedHere, verified⟩ :=
    verified_of_deliver accepted
  obtain rfl := Option.some.inj (pinned.symm.trans pinnedHere)
  obtain rfl := Option.some.inj (named.symm.trans namedHere)
  refine ⟨now, message, parsed, ?_⟩
  have logged : ∀ signing ∈ signings crypto history,
      signing.text ∈ textsInQuestion crypto history delivered :=
    fun signing signed => .inl (List.mem_map_of_mem signed)
  have checked : ∀ text ∈ checkedTexts message, text ∈ textsInQuestion crypto history delivered :=
    fun text listed => .inr ⟨now, message, parsed, listed⟩
  have owner : Certified root history message.grant.cert := certified_of_chained honest apart logged
      (checked _ (by simp [checkedTexts])) (checked _ (by simp [checkedTexts]))
      verified.owner
  have sender : Certified root history message.sender := certified_of_chained honest apart logged
      (checked _ (by simp [checkedTexts])) (checked _ (by simp [checkedTexts]))
      verified.sender
  obtain ⟨exporter, draft, exporterKey, drafted, exports⟩ :=
    exported_of_mem_signings ((owner.unforgeable honest).mem_log apart logged
      (checked _ (by simp [checkedTexts])) verified.delegated)
  obtain ⟨boot, queued, bootKey, bootCert, carried, sends⟩ :=
    sent_of_mem_signings ((sender.unforgeable honest).mem_log apart logged
      (checked _ (by simp [checkedTexts])) verified.signed)
  exact
    { here := verified.issuedHere
      owner := owner
      sender := sender
      exported := ⟨exporter, draft, exports, exporterKey,
        by rw [drafted], by rw [drafted], by rw [drafted],
        by rw [drafted, verified.issuedTo], by rw [drafted]⟩
      sent := ⟨boot, queued, sends, bootKey, bootCert, carried⟩
      senderValid := ⟨verified.senderValid, verified.sender.outlived⟩
      grantValid :=
        ⟨verified.grantValid, verified.outlived, verified.owner.outlived⟩ }

end Provenance

/-! ## A message with its history -/

/-- The first bytes of a text, without the length of a nested record, in the
place of its hash. -/
def headHash (bytes : Bytes) : Fixed 32 :=
  ⟨(bytes.take 11 ++ (bytes.drop 13 ++ List.replicate 32 0)).take 32, by
    simp only [List.length_take, List.length_append, List.length_replicate]
    omega⟩

def holderOf (byte : UInt8) : Issuer where
  crypto := { sampleCrypto with sha256 := headHash }
  key := ⟨.replicate 32 byte, .replicate 1952 byte⟩
  sign _ _ := default

def gatewayOf (name : NodeName) (byte : UInt8) : Registry where
  sign _ _ := default
  authority := .issue (holderOf 1) name (holderOf byte).key 100
  node := name
  validity := 100

def certOf (name : NodeName) (gateway byte : UInt8) : NodeCert :=
  (gatewayOf name gateway).certify (holderOf 1).crypto (holderOf byte).key default 1 0

def bootOf (name : NodeName) (gateway byte : UInt8) : Boot where
  toIssuer := holderOf byte
  cert := some (certOf name gateway byte)
  own := by
    intro held certified
    obtain rfl := Option.some.inj certified
    rfl

/-- The hub lets the edge send to `object`. -/
def hubDraft : PortableCap where
  cert := certOf sampleHub 2 4
  object := default
  perms := sendBit
  audience := sampleEdge
  serial := 1
  notAfter := 100
  signature := default

def hubGrant : PortableCap := signExport (bootOf sampleHub 2 4) hubDraft

/-- Two gateways are authorised, two boots certified, and the edge forwards a
message under a delegation of the hub. -/
def sampleHistory : List Act := [.issue (holderOf 1) sampleHub (holderOf 2).key 100,
    .issue (holderOf 1) sampleEdge (holderOf 3).key 100,
    .certify (gatewayOf sampleHub 2) (holderOf 4).key default 1 0,
    .certify (gatewayOf sampleEdge 3) (holderOf 5).key default 1 0,
    .signExport (bootOf sampleHub 2 4) hubDraft,
    .send (bootOf sampleEdge 3 5) hubGrant 1 sampleQueued]

/-- Signatures that verify exactly for what is signed in the history, by keys
that are told apart by their first byte. -/
def historyCrypto : Crypto where
  sha256 := headHash
  edVerify _ _ _ := true
  mlVerify ml digest context _ :=
    (signings sampleCrypto sampleHistory).any fun signing =>
      signing.context == context && headHash signing.text == digest &&
        signing.key.ml.bytes.head? == ml.bytes.head?

def edgeMessage : PeerMessage :=
  (outbound (bootOf sampleEdge 3 5) hubGrant 1 sampleQueued).getD default

theorem exists_holder (signed : signing ∈ signings sampleCrypto sampleHistory) :
    ∃ byte, signing.key = (holderOf byte).key := by
  have keys : ∀ signing ∈ signings sampleCrypto sampleHistory,
      signing.key ∈ [1, 2, 3, 4, 5].map fun byte => (holderOf byte).key := by
    decide +kernel
  obtain ⟨byte, -, same⟩ := List.mem_map.mp (keys signing signed)
  exact ⟨byte, same.symm⟩

theorem unforgeable_historyCrypto (byte : UInt8) :
    Unforgeable historyCrypto.sha256 (verifyWith historyCrypto)
      (signings historyCrypto sampleHistory) (holderOf byte).key := by
  intro digest signature context verified
  rw [signings_eq historyCrypto sampleCrypto]
  have listed : ((signings sampleCrypto sampleHistory).any fun signing =>
      signing.context == context && headHash signing.text == digest &&
        signing.key.ml.bytes.head? == (holderOf byte).key.ml.bytes.head?) := verified
  obtain ⟨signing, signed, found⟩ := List.any_eq_true.mp listed
  simp only [Bool.and_eq_true, beq_iff_eq] at found
  obtain ⟨⟨inContext, hashed⟩, first⟩ := found
  obtain ⟨other, held⟩ := exists_holder signed
  rw [held] at first
  obtain rfl : other = byte := Option.some.inj first
  exact ⟨signing, signed, held, inContext, hashed⟩

theorem honest_sampleHistory : Honest historyCrypto (holderOf 1).key sampleHistory where
  rootKey := unforgeable_historyCrypto 1
  gatewayKeys := by
    intro holder node key notAfter _ issued
    simp only [sampleHistory, List.mem_cons, List.not_mem_nil, or_false,
      Act.issue.injEq, reduceCtorEq] at issued
    rcases issued with ⟨-, -, rfl, -⟩ | ⟨-, -, rfl, -⟩
    · exact unforgeable_historyCrypto 2
    · exact unforgeable_historyCrypto 3
  bootKeys := by
    intro registry issuer attested serial now certified
    simp only [sampleHistory, List.mem_cons, List.not_mem_nil, or_false,
      false_or, Act.certify.injEq, reduceCtorEq] at certified
    rcases certified with ⟨-, rfl, -⟩ | ⟨-, rfl, -⟩
    · exact unforgeable_historyCrypto 4
    · exact unforgeable_historyCrypto 5

/-- The texts of the history have different beginnings, and the edge's message
is made of them. -/
theorem injOn_headHash : Set.InjOn headHash (textsInQuestion historyCrypto sampleHistory
      (le64 50 ++ edgeMessage.encode)) := by
  have distinct : (((signings sampleCrypto sampleHistory).map
      Signing.text).map headHash).Nodup := by
    decide +kernel
  have among : ∀ text ∈ textsInQuestion historyCrypto sampleHistory (le64 50 ++ edgeMessage.encode),
      text ∈ (signings sampleCrypto sampleHistory).map Signing.text := by
    rintro text (logged | ⟨now, message, parsed, checked⟩)
    · rwa [signings_eq historyCrypto sampleCrypto] at logged
    rw [parseDelivered_encode] at parsed
    cases parsed
    have signed : ∀ text ∈ checkedTexts edgeMessage,
        text ∈ (signings sampleCrypto sampleHistory).map Signing.text := by
      decide +kernel
    exact signed text checked
  intro left inLeft right inRight same
  exact List.inj_on_of_nodup_map distinct (among left inLeft) (among right inRight) same

/-- The hub accepts the edge's message, and every record of it is in the
history. -/
theorem delivered_has_provenance_edge :
    (deliver historyCrypto ⟨some (holderOf 1).key, some sampleHub, false, true⟩
        .committed (sampleNode .empty) (le64 50 ++ edgeMessage.encode)).2 =
      .ok (ascii "peer:edge/pid-1", ascii "object") ∧
    ∃ now message, parseDelivered (le64 50 ++ edgeMessage.encode) = some (now, message) ∧
        Provenance (holderOf 1).key sampleHistory sampleHub now message := by
  have accepted : (deliver historyCrypto
      ⟨some (holderOf 1).key, some sampleHub, false, true⟩ .committed
      (sampleNode .empty) (le64 50 ++ edgeMessage.encode)).2 =
        .ok (ascii "peer:edge/pid-1", ascii "object") := by
    rw [deliver_encode]
    decide +kernel
  exact ⟨accepted, delivered_has_provenance historyCrypto (holderOf 1).key
    sampleHistory honest_sampleHistory
    ⟨some (holderOf 1).key, some sampleHub, false, true⟩ sampleHub rfl rfl
    .committed (sampleNode .empty) (le64 50 ++ edgeMessage.encode) injOn_headHash
    _ accepted⟩

end Peer
end Cdk

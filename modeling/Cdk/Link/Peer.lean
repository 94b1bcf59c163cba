import Cdk.Link.Secure

/-!
# Node certificates, portable capabilities and peer messages

The records by which nodes speak to each other, as they nest: the registry root lets a gateway
key certify one node name (`NodeAuthority`), that key certifies this boot's issuer (`NodeCert`),
the issuer delegates a capability (`PortableCap`), and the delegate sends a message under it
(`PeerMessage`).  A record is the part its signer signs followed by the signature.
-/

namespace Cdk.Link

open ByteFormat Reader

/-- Largest blob, certificate or capability accepted. -/
def maxBlob : Nat := 48 * 1024

def maxMessage : Nat := 64

/-- Read a constant. -/
def magic (expected : Bytes) : Reader Unit := do
  let found ← take expected.length
  require (found == expected)

@[simp] theorem run_magic {value : Unit} :
    (magic expected).run input = some (value, rest) ↔ input = expected ++ rest := by
  simp [magic, Option.bind_eq_some_iff]

def nested (bytes : Bytes) : Bytes := le16 (UInt16.ofNat bytes.length) ++ bytes

@[simp] theorem length_nested (bytes : Bytes) : (nested bytes).length = 2 + bytes.length := by
  simp [nested]

def readNested (decode : Bytes → Option α) : Reader α := do
  let count ← u16
  let bytes ← take count.toNat
  (decode bytes : Option α)

theorem run_nested {encode : α → Bytes}
    (decodes : ∀ {input value}, decode input = some value ↔ input = encode value)
    (short : ∀ value, (encode value).length < 65536) :
    (readNested decode).run input = some (value, rest) ↔ input = nested (encode value) ++ rest := by
  simp [readNested, nested, Option.bind_eq_some_iff, decodes, eq_toNat16, short]

/-- Run a reader that must use up its input. -/
def strictly (fields : Reader α) (bytes : Bytes) : Option α :=
  (do let value ← fields; finish; pure value : Reader α).parse bytes

@[simp] theorem strictly_eq_some :
    strictly fields input = some value ↔ fields.run input = some (value, []) := by
  simp [strictly, Option.bind_eq_some_iff]

theorem injective_of_decode {decode : Bytes → Option α} {encode : α → Bytes}
    (decodes : ∀ {input value}, decode input = some value ↔ input = encode value) :
    Function.Injective encode := by
  intro left right same
  exact Option.some.inj ((decodes.mpr rfl).symm.trans (decodes.mpr same))

@[simp] theorem run_nodeName : (Name.reader validNodeName).run input = some (name, rest) ↔
    input = name.bytes ++ rest :=
  Name.run_reader fun name => (length_nodeName name).trans (by decide)

@[simp] theorem run_objectName : (Name.reader validObjectName).run input = some (name, rest) ↔
    input = name.bytes ++ rest :=
  Name.run_reader fun name => (length_objectName name).trans (by decide)

@[simp] theorem run_senderName : (Name.reader validSender).run input = some (name, rest) ↔
    input = name.bytes ++ rest :=
  Name.run_reader fun name => (length_senderName name).trans (by decide)

/-! ## Node authorities -/

/-- The registry root's permission for one gateway key to certify one node
name. -/
structure NodeAuthority where
  /-- The only node name this authority may certify. -/
  node : NodeName
  key : Identity
  /-- Id of the root that signs it. -/
  root : Fixed 16
  /-- Valid until, in Unix seconds. -/
  notAfter : UInt64
  signature : Signature
  deriving DecidableEq

variable (crypto : Crypto)

namespace NodeAuthority

/-- FIPS 204 context of the root's signature. -/
def context : Bytes := ascii "CDK-NODEAUTH-v1"

def signedPart (authority : NodeAuthority) : Bytes :=
  ascii "CDK-NODE-AUTH-v1" ++ (authority.node.bytes ++ (authority.key.bytes ++
    (authority.root.bytes ++ le64 authority.notAfter)))

def digest (authority : NodeAuthority) : Fixed 32 :=
  crypto.sha256 authority.signedPart

/-- The wire form. -/
def encode (authority : NodeAuthority) : Bytes := authority.signedPart ++ authority.signature.bytes

def reader : Reader NodeAuthority := do
  magic (ascii "CDK-NODE-AUTH-v1")
  let node ← Name.reader validNodeName
  let key ← Identity.reader
  let root ← fixed 16
  let notAfter ← u64
  let signature ← Signature.reader
  pure ⟨node, key, root, notAfter, signature⟩

def decode : Bytes → Option NodeAuthority := strictly reader

variable {authority : NodeAuthority}

theorem decode_iff : decode input = some authority ↔ input = authority.encode := by
  cases authority
  simp [decode, reader, encode, signedPart, Option.bind_eq_some_iff]

theorem eq_of_signedPart {authority other : NodeAuthority}
    (same : authority.signedPart = other.signedPart) :
    authority = { other with signature := authority.signature } := by
  apply injective_of_decode decode_iff
  change authority.signedPart ++ authority.signature.bytes =
    other.signedPart ++ authority.signature.bytes
  rw [same]

theorem length_encode (authority : NodeAuthority) : authority.encode.length ≤ 5414 := by
  have := length_nodeName authority.node
  have magicLength : (ascii "CDK-NODE-AUTH-v1").length = 16 := by decide
  simp only [encode, signedPart, List.length_append, Name.length_bytes,
    Identity.length_bytes, Fixed.length_bytes, length_le64,
    Signature.length_bytes]
  omega

@[simp] theorem run_nested : (readNested decode).run input = some (authority, rest) ↔
    input = nested authority.encode ++ rest :=
  Link.run_nested decode_iff fun authority => authority.length_encode.trans_lt (by decide)

/-- Signed by the registry root, and naming it. -/
def verify (authority : NodeAuthority) (root : Identity) : Bool :=
  authority.root == root.id crypto &&
    verifyWith crypto root (authority.digest crypto) authority.signature context

end NodeAuthority

/-! ## Node certificates -/

/-- A certificate for one boot of one node. -/
structure NodeCert where
  name : NodeName
  issuer : Identity
  /-- Id of the registry key. -/
  registry : Fixed 16
  /-- Serial number of the certificate. -/
  serial : UInt64
  /-- A digest of what the registry attested. -/
  attested : Fixed 32
  /-- Valid until, in Unix seconds. -/
  notAfter : UInt64
  /-- The authority that issued it. -/
  authority : NodeAuthority
  signature : Signature
  deriving DecidableEq

namespace NodeCert

/-- FIPS 204 context of the authority's signature. -/
def context : Bytes := ascii "CDK-NODE-v1"

variable (cert : NodeCert)

def signedPart : Bytes :=
  ascii "CDK-NODE-CERT-v1" ++ (cert.name.bytes ++ (cert.issuer.bytes ++
    (cert.registry.bytes ++ (le64 cert.serial ++ (cert.attested.bytes ++
      (le64 cert.notAfter ++ nested cert.authority.encode))))))

def digest : Fixed 32 := crypto.sha256 cert.signedPart

/-- The wire form. -/
def encode : Bytes := cert.signedPart ++ cert.signature.bytes

def reader : Reader NodeCert := do
  magic (ascii "CDK-NODE-CERT-v1")
  let name ← Name.reader validNodeName
  let issuer ← Identity.reader
  let registry ← fixed 16
  let serial ← u64
  let attested ← fixed 32
  let notAfter ← u64
  let authority ← readNested NodeAuthority.decode
  let signature ← Signature.reader
  pure ⟨name, issuer, registry, serial, attested, notAfter, authority, signature⟩

def decode : Bytes → Option NodeCert := strictly reader

theorem decode_iff {cert : NodeCert} : decode input = some cert ↔ input = cert.encode := by
  cases cert
  simp [decode, reader, encode, signedPart, Option.bind_eq_some_iff]

theorem eq_of_signedPart {cert other : NodeCert} (same : cert.signedPart = other.signedPart) :
    cert = { other with signature := cert.signature } := by
  apply injective_of_decode decode_iff
  change cert.signedPart ++ cert.signature.bytes = other.signedPart ++ cert.signature.bytes
  rw [same]

theorem length_encode : cert.encode.length ≤ 10870 := by
  have := length_nodeName cert.name
  have := cert.authority.length_encode
  have magicLength : (ascii "CDK-NODE-CERT-v1").length = 16 := by decide
  simp only [encode, signedPart, List.length_append, Name.length_bytes,
    Identity.length_bytes, Fixed.length_bytes, length_le64, length_nested,
    Signature.length_bytes]
  omega

@[simp] theorem run_nested : (readNested decode).run input = some (cert, rest) ↔
    input = nested cert.encode ++ rest :=
  Link.run_nested decode_iff fun cert => cert.length_encode.trans_lt (by decide)

/-- The chain from the pinned registry root: the root signed the authority, the
authority may certify exactly this name and outlives the certificate, and the
authority signed the certificate. -/
def verify (root : Identity) : Bool :=
  cert.registry == root.id crypto && cert.authority.node == cert.name &&
    decide (cert.notAfter ≤ cert.authority.notAfter) &&
    cert.authority.verify crypto root &&
    verifyWith crypto cert.authority.key (cert.digest crypto) cert.signature context

/-- What holds of a certificate that verifies. -/
structure Chained (root : Identity) : Prop where
  registry : cert.registry = root.id crypto
  named : cert.authority.node = cert.name
  outlived : cert.notAfter ≤ cert.authority.notAfter
  rooted : cert.authority.root = root.id crypto
  authorised : verifyWith crypto root (cert.authority.digest crypto)
    cert.authority.signature NodeAuthority.context
  certified : verifyWith crypto cert.authority.key (cert.digest crypto) cert.signature context

theorem verify_iff (root : Identity) : cert.verify crypto root ↔ cert.Chained crypto root := by
  simp only [verify, NodeAuthority.verify, Bool.and_eq_true, beq_iff_eq, decide_eq_true_eq]
  constructor
  · rintro ⟨⟨⟨⟨registry, named⟩, outlived⟩, rooted, authorised⟩, certified⟩
    exact ⟨registry, named, outlived, rooted, authorised, certified⟩
  · rintro ⟨registry, named, outlived, rooted, authorised, certified⟩
    exact ⟨⟨⟨⟨registry, named⟩, outlived⟩, rooted, authorised⟩, certified⟩

end NodeCert

/-! ## Portable capabilities -/

/-- A capability one node delegates to another. -/
structure PortableCap where
  /-- The issuing node's certificate. -/
  cert : NodeCert
  object : ObjectName
  perms : UInt64
  /-- The only node that may import it. -/
  audience : NodeName
  /-- Serial number, unique per issuer. -/
  serial : UInt64
  /-- Valid until, in Unix seconds. -/
  notAfter : UInt64
  signature : Signature
  deriving DecidableEq

namespace PortableCap

/-- FIPS 204 context of the issuing node's signature. -/
def context : Bytes := ascii "CDK-PCAP-v1"

variable (cap : PortableCap)

/-- The fields the issuing node signs, in order. -/
def signedPart : Bytes :=
  ascii "CDK-PCAP-v1" ++ (nested cap.cert.encode ++ (cap.object.bytes ++
    (le64 cap.perms ++ (cap.audience.bytes ++ (le64 cap.serial ++ le64 cap.notAfter)))))

def digest : Fixed 32 := crypto.sha256 cap.signedPart

/-- The wire form. -/
def encode : Bytes := cap.signedPart ++ cap.signature.bytes

def reader : Reader PortableCap := do
  magic (ascii "CDK-PCAP-v1")
  let cert ← readNested NodeCert.decode
  let object ← Name.reader validObjectName
  let perms ← u64
  let audience ← Name.reader validNodeName
  let serial ← u64
  let notAfter ← u64
  let signature ← Signature.reader
  pure ⟨cert, object, perms, audience, serial, notAfter, signature⟩

/-- Strict decoding, of at most `maxBlob` bytes. -/
def decode (bytes : Bytes) : Option PortableCap :=
  if bytes.length > maxBlob then none else strictly reader bytes

theorem length_encode : cap.encode.length ≤ 14308 := by
  have := length_objectName cap.object
  have := length_nodeName cap.audience
  have := cap.cert.length_encode
  have magicLength : (ascii "CDK-PCAP-v1").length = 11 := by decide
  simp only [encode, signedPart, List.length_append, Name.length_bytes,
    length_le64, length_nested, Signature.length_bytes]
  omega

theorem decode_iff {cap : PortableCap} : decode input = some cap ↔ input = cap.encode := by
  have parsed : strictly reader input = some cap ↔ input = cap.encode := by
    cases cap
    simp [reader, encode, signedPart, Option.bind_eq_some_iff]
  rw [decode, Option.ite_none_left_eq_some, parsed, and_iff_right_iff_imp]
  rintro rfl
  exact Nat.not_lt.mpr (cap.length_encode.trans (by decide))

theorem decode_encode : decode cap.encode = some cap :=
  decode_iff.mpr rfl

@[simp] theorem run_nested : (readNested decode).run input = some (cap, rest) ↔
    input = nested cap.encode ++ rest :=
  Link.run_nested decode_iff fun cap => cap.length_encode.trans_lt (by decide)

theorem eq_of_signedPart {cap other : PortableCap} (same : cap.signedPart = other.signedPart) :
    cap = { other with signature := cap.signature } := by
  apply injective_of_decode decode_iff
  change cap.signedPart ++ cap.signature.bytes = other.signedPart ++ cap.signature.bytes
  rw [same]

/-- Why a portable capability does not verify. -/
inductive VerifyError where
  | certNotSigned
  | outlivesCert
  | expired
  | issuedByThisNode
  | addressedToAnother
  | noPermission
  | badSignature
  deriving DecidableEq, Repr

def VerifyError.text : VerifyError → String
  | certNotSigned => "the node certificate is not signed by the pinned registry"
  | outlivesCert => "outlives its node certificate"
  | expired => "expired"
  | issuedByThisNode => "issued by this node"
  | addressedToAnother => "addressed to another node"
  | noPermission => "grants no permission"
  | badSignature => "the issuing node's signature does not verify"

/-- Everything except the importer's policy and replay list. -/
def verify (registry : Identity) (me : NodeName) (now : UInt64) : Except VerifyError Unit :=
  if !cap.cert.verify crypto registry then .error .certNotSigned
  else if cap.notAfter > cap.cert.notAfter then .error .outlivesCert
  else if now > cap.notAfter then .error .expired
  else if cap.cert.name == me then .error .issuedByThisNode
  else if cap.audience != me then .error .addressedToAnother
  else if cap.perms == 0 then .error .noPermission
  else if !verifyWith crypto cap.cert.issuer (cap.digest crypto) cap.signature
      context then .error .badSignature
  else .ok ()

end PortableCap

/-! ## Peer messages -/

/-- A message payload: 1 to `maxMessage` bytes. -/
structure Payload where
  bytes : Bytes
  nonempty : bytes.length ≠ 0
  fits : bytes.length ≤ maxMessage
  deriving DecidableEq

namespace Payload

def ofBytes? (bytes : Bytes) : Option Payload :=
  if nonempty : bytes.length ≠ 0 then
    if fits : bytes.length ≤ maxMessage then some ⟨bytes, nonempty, fits⟩
    else none
  else none

@[simp] theorem ofBytes?_bytes (payload : Payload) : ofBytes? payload.bytes = some payload := by
  rw [ofBytes?, dif_pos payload.nonempty, dif_pos payload.fits]

def reader : Reader Payload := do
  let count ← u8
  require (count.toNat != 0 && count.toNat ≤ maxMessage)
  let bytes ← take count.toNat
  (ofBytes? bytes : Option Payload)

theorem ofBytes?_eq_some {bytes : Bytes} :
    ofBytes? bytes = some payload ↔ bytes = payload.bytes := by
  constructor
  · intro checked
    obtain ⟨nonempty, checked⟩ := Option.dite_none_right_eq_some.mp checked
    obtain ⟨fits, same⟩ := Option.dite_none_right_eq_some.mp checked
    cases same
    rfl
  · rintro rfl
    exact ofBytes?_bytes payload

@[simp] theorem run_reader : reader.run input = some (payload, rest) ↔
    input = UInt8.ofNat payload.bytes.length :: (payload.bytes ++ rest) := by
  have small : payload.bytes.length < 256 := payload.fits.trans_lt (by decide)
  simp [reader, Option.bind_eq_some_iff, ofBytes?_eq_some, eq_toNat8, small,
    Nat.mod_eq_of_lt small, payload.nonempty, payload.fits]

end Payload

/-- A message an agent on one node sends to an object on another, under a
delegation the owning node issued to the sending node. -/
structure PeerMessage where
  sender : NodeCert
  grant : PortableCap
  /-- Sequence number, unique per sending boot. -/
  seq : UInt64
  «from» : SenderName
  payload : Payload
  signature : Signature
  deriving DecidableEq

namespace PeerMessage

/-- FIPS 204 context of the sending node's signature. -/
def context : Bytes := ascii "CDK-PMSG-v1"

variable (message : PeerMessage)

def signedPart : Bytes :=
  ascii "CDK-PMSG-v1" ++ (nested message.sender.encode ++
    (nested message.grant.encode ++ (le64 message.seq ++ (message.from.bytes ++
        (UInt8.ofNat message.payload.bytes.length :: message.payload.bytes)))))

def digest (message : PeerMessage) : Fixed 32 := crypto.sha256 message.signedPart

/-- The wire form. -/
def encode : Bytes := message.signedPart ++ message.signature.bytes

def reader : Reader PeerMessage := do
  magic (ascii "CDK-PMSG-v1")
  let sender ← readNested NodeCert.decode
  let grant ← readNested PortableCap.decode
  let seq ← u64
  let sentBy ← Name.reader validSender
  let payload ← Payload.reader
  let signature ← Signature.reader
  pure ⟨sender, grant, seq, sentBy, payload, signature⟩

/-- Strict decoding, of at most `maxBlob` bytes. -/
def decode (bytes : Bytes) : Option PeerMessage :=
  if bytes.length > maxBlob then none else strictly reader bytes

theorem length_encode : message.encode.length ≤ 28664 := by
  have := message.sender.length_encode
  have := message.grant.length_encode
  have := length_senderName message.from
  have payloadFits : message.payload.bytes.length ≤ 64 := message.payload.fits
  have magicLength : (ascii "CDK-PMSG-v1").length = 11 := by decide
  simp only [encode, signedPart, List.length_append, List.length_cons,
    Name.length_bytes, length_le64, length_nested, Signature.length_bytes]
  omega

theorem decode_iff {message : PeerMessage} :
    decode input = some message ↔ input = message.encode := by
  have parsed : strictly reader input = some message ↔ input = message.encode := by
    cases message
    simp [reader, encode, signedPart, Option.bind_eq_some_iff]
  rw [decode, Option.ite_none_left_eq_some, parsed, and_iff_right_iff_imp]
  rintro rfl
  exact Nat.not_lt.mpr (message.length_encode.trans (by decide))

theorem decode_encode : decode message.encode = some message :=
  decode_iff.mpr rfl

variable {message}

theorem eq_of_signedPart {message other : PeerMessage}
    (same : message.signedPart = other.signedPart) :
    message = { other with signature := message.signature } := by
  apply injective_of_decode decode_iff
  change message.signedPart ++ message.signature.bytes = other.signedPart ++ message.signature.bytes
  rw [same]

/-- Why a peer message does not verify. -/
inductive VerifyError where
  | senderNotSigned
  | senderExpired
  | grantNotSigned
  | grantNotIssuedHere
  | grantToAnother
  | grantExpired
  | badGrantSignature
  | badSenderSignature
  deriving DecidableEq, Repr

def VerifyError.text : VerifyError → String
  | senderNotSigned =>
    "the sender's certificate is not signed by the pinned registry"
  | senderExpired => "the sender's certificate has expired"
  | grantNotSigned =>
    "the delegation's certificate is not signed by the pinned registry"
  | grantNotIssuedHere => "the delegation was not issued by this node"
  | grantToAnother => "the delegation was issued to another node"
  | grantExpired => "the delegation has expired"
  | badGrantSignature => "the delegation's signature does not verify"
  | badSenderSignature => "the sender's signature does not verify"

variable (message) (registry : Identity) (me : NodeName) (now : UInt64)

/-- Everything the owning node checks that does not need its state. -/
def verify : Except VerifyError Unit :=
  let grant := message.grant
  if !message.sender.verify crypto registry then .error .senderNotSigned
  else if now > message.sender.notAfter then .error .senderExpired
  else if !grant.cert.verify crypto registry then .error .grantNotSigned
  else if grant.cert.name != me then .error .grantNotIssuedHere
  else if grant.audience != message.sender.name then .error .grantToAnother
  else if grant.notAfter > grant.cert.notAfter || now > grant.notAfter then
    .error .grantExpired
  else if !verifyWith crypto grant.cert.issuer (grant.digest crypto)
      grant.signature PortableCap.context then .error .badGrantSignature
  else if !verifyWith crypto message.sender.issuer (message.digest crypto)
      message.signature context then .error .badSenderSignature
  else .ok ()

/-- What holds of a message that verifies. -/
structure Verified : Prop where
  sender : message.sender.Chained crypto registry
  senderValid : now ≤ message.sender.notAfter
  owner : message.grant.cert.Chained crypto registry
  issuedHere : message.grant.cert.name = me
  issuedTo : message.grant.audience = message.sender.name
  outlived : message.grant.notAfter ≤ message.grant.cert.notAfter
  grantValid : now ≤ message.grant.notAfter
  delegated : verifyWith crypto message.grant.cert.issuer
    (message.grant.digest crypto) message.grant.signature
    PortableCap.context
  signed : verifyWith crypto message.sender.issuer (message.digest crypto) message.signature context

theorem verify_ok_iff : message.verify crypto registry me now = .ok () ↔
      message.Verified crypto registry me now := by
  constructor
  · intro verified
    simp only [verify] at verified
    repeat' split at verified
    all_goals try contradiction
    rename_i sender senderValid owner issuedHere issuedTo valid delegated signed
    simp only [Bool.not_eq_true', Bool.not_eq_false, NodeCert.verify_iff,
      bne_iff_ne, ne_eq, not_not, Bool.or_eq_true, decide_eq_true_eq, not_or,
      UInt64.not_lt] at *
    exact ⟨sender, senderValid, owner, issuedHere, issuedTo, valid.1, valid.2, delegated, signed⟩
  · rintro ⟨sender, senderValid, owner, issuedHere, issuedTo, outlived,
      grantValid, delegated, signed⟩
    rw [← NodeCert.verify_iff] at sender owner
    simp [verify, sender, UInt64.not_lt.mpr senderValid, owner, issuedHere,
      issuedTo, UInt64.not_lt.mpr outlived, UInt64.not_lt.mpr grantValid,
      delegated, signed]

end PeerMessage

/-! ## One encoding for each value -/

/-- In each of the four formats, what decodes is the encoding of the value it decodes to, every
value decodes from its encoding, and what is signed determines every field but the signature. -/
theorem trust_chain_canonical :
    ((∀ bytes value, NodeAuthority.decode bytes = some value → value.encode = bytes) ∧
      (∀ value, NodeAuthority.decode value.encode = some value) ∧
      ∀ left right : NodeAuthority, left.signedPart = right.signedPart →
        left = { right with signature := left.signature }) ∧
    ((∀ bytes value, NodeCert.decode bytes = some value → value.encode = bytes) ∧
      (∀ value, NodeCert.decode value.encode = some value) ∧
      ∀ left right : NodeCert, left.signedPart = right.signedPart →
        left = { right with signature := left.signature }) ∧
    ((∀ bytes value, PortableCap.decode bytes = some value → value.encode = bytes) ∧
      (∀ value, PortableCap.decode value.encode = some value) ∧
      ∀ left right : PortableCap, left.signedPart = right.signedPart →
        left = { right with signature := left.signature }) ∧
    ((∀ bytes value, PeerMessage.decode bytes = some value → value.encode = bytes) ∧
      (∀ value, PeerMessage.decode value.encode = some value) ∧
      ∀ left right : PeerMessage, left.signedPart = right.signedPart →
        left = { right with signature := left.signature }) := by
  refine ⟨⟨fun _ _ decoded => (NodeAuthority.decode_iff.mp decoded).symm,
      fun _ => NodeAuthority.decode_iff.mpr rfl, fun _ _ same => ?_⟩,
    ⟨fun _ _ decoded => (NodeCert.decode_iff.mp decoded).symm,
      fun _ => NodeCert.decode_iff.mpr rfl, fun _ _ same => ?_⟩,
    ⟨fun _ _ decoded => (PortableCap.decode_iff.mp decoded).symm,
      PortableCap.decode_encode, fun _ _ same => ?_⟩,
    ⟨fun _ _ decoded => (PeerMessage.decode_iff.mp decoded).symm,
      PeerMessage.decode_encode, fun _ _ same => ?_⟩⟩
  · exact NodeAuthority.eq_of_signedPart same
  · exact NodeCert.eq_of_signedPart same
  · exact PortableCap.eq_of_signedPart same
  · exact PeerMessage.eq_of_signedPart same

/-! ## Default values -/

instance : Inhabited (Fixed length) := ⟨Fixed.replicate length 0⟩

instance : Inhabited Identity := ⟨⟨default, default⟩⟩

instance : Inhabited Signature := ⟨⟨default, default⟩⟩

instance : Inhabited NodeName := ⟨⟨ascii "node", by decide⟩⟩

instance : Inhabited ObjectName := ⟨⟨ascii "object", by decide⟩⟩

instance : Inhabited SenderName := ⟨⟨ascii "pid-1", by decide⟩⟩

instance : Inhabited Payload := ⟨⟨[0], by decide, by decide⟩⟩

instance : Inhabited NodeAuthority := ⟨⟨default, default, default, 0, default⟩⟩

instance : Inhabited NodeCert := ⟨⟨default, default, default, 0, default, 0, default, default⟩⟩

instance : Inhabited PortableCap := ⟨⟨default, default, 0, default, 0, 0, default⟩⟩

instance : Inhabited PeerMessage := ⟨⟨default, default, 0, default, default, default⟩⟩

theorem PeerMessage.exists_grant (perms serial : UInt64) : ∃ message : PeerMessage,
    message.grant.perms = perms ∧ message.grant.serial = serial :=
  ⟨{ (default : PeerMessage) with
      grant := { (default : PortableCap) with
        perms := perms
        serial := serial } }, rfl, rfl⟩

end Cdk.Link

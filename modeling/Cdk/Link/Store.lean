import Cdk.Link.Peer

/-!
# The sealed store's format

The state a node keeps across reboots (`Records`), the file that carries it (`Envelope`) and the
comparison of a file with the TPM counter (`freshness`).  The records are encrypted and
authenticated with the rest of the file; the cipher is a parameter.
-/

namespace Cdk.Link

open ByteFormat Reader Fixed

def maxRevoked : Nat := 128

def maxDelivered : Nat := 256

def maxImported : Nat := 64

def maxSealed : Nat := 512

def maxBranches : Nat := 8

def tagLength : Nat := 16

def maxEnvelope : Nat := 12 + 8 + 2 * (2 + maxSealed) + 1 + 32 * maxBranches + 12 + 4 + 6 +
    8 * maxRevoked + 32 * (maxDelivered + maxImported) + tagLength

/-- An accepted message or import: who, which, and until when it matters. -/
structure Seen where
  id : Fixed 16
  /-- Sequence number or serial. -/
  n : UInt64
  /-- Expiry, in Unix seconds. -/
  notAfter : UInt64
  deriving DecidableEq

namespace Seen

/-- What the replay checks compare. -/
def key (seen : Seen) : Fixed 16 × UInt64 := (seen.id, seen.n)

/-- The wire form. -/
def bytes (seen : Seen) : Bytes := seen.id.bytes ++ (le64 seen.n ++ le64 seen.notAfter)

@[simp] theorem length_bytes (seen : Seen) : seen.bytes.length = 32 := by
  simp [bytes]

/-- Read an entry. -/
def reader : Reader Seen := do
  let id ← fixed 16
  let n ← u64
  let notAfter ← u64
  pure ⟨id, n, notAfter⟩

@[simp] theorem run_reader : reader.run input = some (seen, rest) ↔ input = seen.bytes ++ rest := by
  cases seen
  simp [reader, bytes, Option.bind_eq_some_iff]

end Seen

/-! ## Records -/

/-- What the store holds. -/
structure Records where
  /-- Serials of delegations this node revoked. -/
  revoked : List UInt64
  delivered : List Seen
  imported : List Seen
  deriving DecidableEq

namespace Records

/-- Every list is within its limit. -/
def fits (records : Records) : Bool := records.revoked.length ≤ maxRevoked &&
    records.delivered.length ≤ maxDelivered &&
    records.imported.length ≤ maxImported

/-- Drop the entries that expired before `now`. -/
def prune (records : Records) (now : UInt64) : Records where
  revoked := records.revoked
  delivered := records.delivered.filter fun seen => seen.notAfter ≥ now
  imported := records.imported.filter fun seen => seen.notAfter ≥ now

def counted (bytes : α → Bytes) (list : List α) : Bytes :=
  le16 (UInt16.ofNat list.length) ++ list.flatMap bytes

/-- Read a list behind its 16-bit length, of at most `limit` items. -/
def readCounted (limit : Nat) (item : Reader α) : Reader (List α) := do
  let count ← u16
  require (count.toNat ≤ limit)
  many item count.toNat

theorem run_counted {bytes : α → Bytes} (small : limit < 65536) (runItem : ∀ {input value rest},
      item.run input = some (value, rest) ↔ input = bytes value ++ rest) :
    (readCounted limit item).run input = some (list, rest) ↔
      input = counted bytes list ++ rest ∧ list.length ≤ limit := by
  simp only [readCounted, counted, StateT.run_bind, Option.bind_eq_bind, Option.bind_eq_some_iff,
    Prod.exists, run_u16, run_require, run_many runItem]
  constructor
  · rintro ⟨count, _, rfl, _, _, ⟨within, rfl⟩, rfl, length⟩
    simpa [length] using within
  · rintro ⟨rfl, within⟩
    have count : (UInt16.ofNat list.length).toNat = list.length := by
      simpa using within.trans_lt small
    exact ⟨_, _, List.append_assoc .., (), _, ⟨by simpa [count] using within, rfl⟩, rfl, count.symm⟩

theorem length_counted {bytes : α → Bytes} (each : ∀ value, (bytes value).length = size)
    (list : List α) : (counted bytes list).length = 2 + size * list.length := by
  rw [counted, List.length_append, length_le16, List.length_flatMap]
  simp [each, Nat.mul_comm]

/-- The plaintext of the records, whatever their length. -/
def bytes (records : Records) : Bytes := counted le64 records.revoked ++
    (counted Seen.bytes records.delivered ++ counted Seen.bytes records.imported)

/-- The plaintext; `none` if a list is over its limit. -/
def encode (records : Records) : Option Bytes :=
  if records.fits then some records.bytes else none

def reader : Reader Records := do
  let revoked ← readCounted maxRevoked u64
  let delivered ← readCounted maxDelivered Seen.reader
  let imported ← readCounted maxImported Seen.reader
  pure ⟨revoked, delivered, imported⟩

def decode : Bytes → Option Records := strictly reader

theorem decode_iff : decode input = some records ↔ records.encode = some input := by
  obtain ⟨revoked, delivered, imported⟩ := records
  simp [decode, reader, encode, bytes, fits, Option.bind_eq_some_iff,
    run_counted (by decide : maxRevoked < 65536) run_u64,
    run_counted (by decide : maxDelivered < 65536) Seen.run_reader,
    run_counted (by decide : maxImported < 65536) Seen.run_reader]
  grind

theorem length_of_encode {records : Records} (encoded : records.encode = some plaintext) :
    plaintext.length ≤ 6 + 8 * maxRevoked + 32 * (maxDelivered + maxImported) := by
  unfold encode at encoded
  split at encoded
  · rename_i within
    simp only [fits, Bool.and_eq_true, decide_eq_true_eq] at within
    cases encoded
    simp only [bytes, List.length_append, length_counted length_le64,
      length_counted Seen.length_bytes]
    omega
  · contradiction

end Records

/-! ## Envelopes -/

/-- The cipher (ChaCha20-Poly1305): encryption in place with a detached tag
over the ciphertext and a header. -/
structure Aead where
  /-- Encrypt under a key and a nonce, authenticating a header. -/
  encrypt : Fixed 32 → Fixed 12 → Bytes → Bytes → Option (Bytes × Fixed 16)
  /-- Decrypt, or fail if anything was changed. -/
  decrypt : Fixed 32 → Fixed 12 → Bytes → Bytes → Fixed 16 → Option Bytes
  /-- The ciphertext is as long as the plaintext. -/
  length_encrypt : ∀ {key nonce header plaintext ciphertext tag},
    encrypt key nonce header plaintext = some (ciphertext, tag) →
      ciphertext.length = plaintext.length
  decrypt_encrypt : ∀ {key nonce header plaintext ciphertext tag},
    encrypt key nonce header plaintext = some (ciphertext, tag) →
      decrypt key nonce header ciphertext tag = some plaintext

/-- Texts that fit an envelope are short enough for the cipher. -/
def Aead.Accepts (aead : Aead) : Prop :=
  ∀ key nonce header plaintext, header.length ≤ maxEnvelope → plaintext.length ≤ maxEnvelope →
    ∃ output, aead.encrypt key nonce header plaintext = some output

/-- A cipher that leaves the text readable and authenticates it by checksum. -/
def sampleAead : Aead where
  encrypt key nonce header plaintext := some (plaintext,
      checksum 16 (key.bytes ++ nonce.bytes ++ header ++ plaintext))
  decrypt key nonce header ciphertext tag :=
    if tag = checksum 16 (key.bytes ++ nonce.bytes ++ header ++ ciphertext) then
      some ciphertext
    else none
  length_encrypt := by
    rintro key nonce header plaintext ciphertext tag ⟨⟩
    rfl
  decrypt_encrypt := by
    rintro key nonce header plaintext ciphertext tag ⟨⟩
    rw [if_pos rfl]

/-- The stored file: the sealed key and the encrypted records. -/
structure Envelope where
  /-- The TPM counter value this envelope is for. -/
  counter : UInt64
  /-- Public part of the sealed key object. -/
  sealedPublic : Bytes
  sealedPrivate : Bytes
  /-- The branches of the key's policy, or none for a single policy. -/
  branches : List (Fixed 32)
  nonce : Fixed 12
  /-- Encrypted records followed by the tag. -/
  ciphertext : Bytes
  deriving DecidableEq

/-- No branches, or two to eight of them. -/
def validBranches (count : Nat) : Bool := count == 0 || (2 ≤ count && count ≤ maxBranches)

namespace Envelope

def storeMagic : Bytes := ascii "CDK-STORE-v1"

/-- The authenticated header: everything before the ciphertext length. -/
def header (envelope : Envelope) : Bytes :=
  storeMagic ++ (le64 envelope.counter ++ (nested envelope.sealedPublic ++
    (nested envelope.sealedPrivate ++ (UInt8.ofNat envelope.branches.length ::
        (envelope.branches.flatMap bytes ++ envelope.nonce.bytes)))))

/-- Encrypt records. -/
def «seal» (aead : Aead) (key : Fixed 32) (counter : UInt64) (sealedPublic sealedPrivate : Bytes)
    (branches : List (Fixed 32)) (nonce : Fixed 12) (records : Records) : Option Envelope :=
  if sealedPublic.length > maxSealed || sealedPrivate.length > maxSealed ||
      !validBranches branches.length then none
  else do
    let envelope : Envelope :=
      ⟨counter, sealedPublic, sealedPrivate, branches, nonce, []⟩
    let body ← records.encode
    let (ciphertext, tag) ← aead.encrypt key nonce envelope.header body
    some { envelope with ciphertext := ciphertext ++ tag.bytes }

/-- Decrypt with a key; `none` if anything was changed or the key is
wrong. -/
def «open» (aead : Aead) (envelope : Envelope) (key : Fixed 32) : Option Records :=
  if envelope.ciphertext.length < tagLength then none
  else do
    let split := envelope.ciphertext.length - tagLength
    let tag ← ofBytes? 16 (envelope.ciphertext.drop split)
    let body ← aead.decrypt key envelope.nonce envelope.header (envelope.ciphertext.take split) tag
    Records.decode body

/-- The wire form. -/
def encode (envelope : Envelope) : Bytes :=
  envelope.header ++ (le32 (UInt32.ofNat envelope.ciphertext.length) ++ envelope.ciphertext)

/-- Read a sealed part of at most `maxSealed` bytes. -/
def readPart : Reader Bytes := do
  let count ← u16
  require (count.toNat ≤ maxSealed)
  take count.toNat

def reader : Reader Envelope := do
  magic storeMagic
  let counter ← u64
  let sealedPublic ← readPart
  let sealedPrivate ← readPart
  let count ← u8
  require (validBranches count.toNat)
  let branches ← many (fixed 32) count.toNat
  let nonce ← fixed 12
  let length ← u32
  require (tagLength ≤ length.toNat)
  let ciphertext ← take length.toNat
  pure ⟨counter, sealedPublic, sealedPrivate, branches, nonce, ciphertext⟩

/-- Strict decoding, of at most `maxEnvelope` bytes. -/
def decode (bytes : Bytes) : Option Envelope :=
  if bytes.length > maxEnvelope then none else strictly reader bytes

/-- The limits a decoded or sealed envelope keeps. -/
structure WellFormed (envelope : Envelope) : Prop where
  publicFits : envelope.sealedPublic.length ≤ maxSealed
  privateFits : envelope.sealedPrivate.length ≤ maxSealed
  branchesValid : validBranches envelope.branches.length
  tagged : tagLength ≤ envelope.ciphertext.length
  ciphertextFits : envelope.ciphertext.length ≤
    6 + 8 * maxRevoked + 32 * (maxDelivered + maxImported) + tagLength

theorem run_part : readPart.run input = some (part, rest) ↔
    input = nested part ++ rest ∧ part.length ≤ maxSealed := by
  simp [readPart, nested, Option.bind_eq_some_iff, eq_toNat16]
  intro _
  rw [and_comm, mod_le_iff (by decide)]

/-- The sealed key and the branches are within their limits. -/
def Limited (envelope : Envelope) : Prop := envelope.sealedPublic.length ≤ maxSealed ∧
    envelope.sealedPrivate.length ≤ maxSealed ∧ validBranches envelope.branches.length

theorem branches_le (valid : validBranches count) : count ≤ maxBranches := by
  simp only [validBranches, Bool.or_eq_true, beq_iff_eq, Bool.and_eq_true,
    decide_eq_true_eq] at valid
  omega

variable {envelope : Envelope}

theorem run_reader : reader.run input = some (envelope, rest) ↔
    input = envelope.encode ++ rest ∧ envelope.Limited ∧
      tagLength ≤ envelope.ciphertext.length ∧ envelope.ciphertext.length < 4294967296 := by
  cases envelope
  simp [reader, encode, header, Limited, Option.bind_eq_some_iff, run_part,
    run_many run_fixed, eq_toNat8, eq_toNat32]
  intro _
  constructor
  · rintro ⟨publicFits, privateFits, valid, few, tagged, fits⟩
    rw [Nat.mod_eq_of_lt few] at valid
    rw [Nat.mod_eq_of_lt fits] at tagged
    exact ⟨⟨publicFits, privateFits, valid⟩, tagged, fits⟩
  · rintro ⟨⟨publicFits, privateFits, valid⟩, tagged, fits⟩
    have few := (branches_le valid).trans_lt (by decide : maxBranches < 256)
    rw [Nat.mod_eq_of_lt few, Nat.mod_eq_of_lt fits]
    exact ⟨publicFits, privateFits, valid, few, tagged, fits⟩

/-- What is decoded is the encoding of an envelope within the limits. -/
theorem encode_of_decode (decoded : decode input = some envelope) :
    input = envelope.encode ∧ envelope.Limited := by
  rw [decode, Option.ite_none_left_eq_some, strictly_eq_some, run_reader,
    List.append_nil] at decoded
  exact ⟨decoded.2.1, decoded.2.2.1⟩

theorem WellFormed.length_encode (wellFormed : envelope.WellFormed) :
    envelope.encode.length ≤ maxEnvelope := by
  have publicFits := wellFormed.publicFits
  have privateFits := wellFormed.privateFits
  have branchesFit := branches_le wellFormed.branchesValid
  have ciphertextFits := wellFormed.ciphertextFits
  have magicLength : storeMagic.length = 12 := by decide
  have branchBytes : (envelope.branches.flatMap bytes).length = 32 * envelope.branches.length := by
    simp [List.length_flatMap, Nat.mul_comm]
  simp only [encode, header, List.length_append, List.length_cons, length_le64,
    length_le32, length_nested, length_bytes, magicLength, branchBytes,
    maxEnvelope]
  omega

theorem WellFormed.decode_encode (wellFormed : envelope.WellFormed) :
    decode envelope.encode = some envelope := by
  rw [decode, if_neg (Nat.not_lt.mpr wellFormed.length_encode), strictly_eq_some, run_reader]
  exact ⟨(List.append_nil _).symm, ⟨wellFormed.publicFits, wellFormed.privateFits,
    wellFormed.branchesValid⟩, wellFormed.tagged, wellFormed.ciphertextFits.trans_lt (by decide)⟩

variable {sealedPublic sealedPrivate : Bytes} {branches : List (Fixed 32)} {records : Records}

section Sealed

variable {aead : Aead} {counter : UInt64} {nonce : Fixed 12}
  (made : «seal» aead key counter sealedPublic sealedPrivate branches nonce records = some envelope)
include made

/-- What `seal` computes when it succeeds. -/
theorem seal_eq_some :
    (sealedPublic.length ≤ maxSealed ∧ sealedPrivate.length ≤ maxSealed ∧
        validBranches branches.length) ∧ ∃ body ciphertext tag, records.encode = some body ∧
        aead.encrypt key nonce envelope.header body = some (ciphertext, tag) ∧
        envelope = ⟨counter, sealedPublic, sealedPrivate, branches, nonce,
          ciphertext ++ tag.bytes⟩ := by
  unfold «seal» at made
  split at made
  · contradiction
  rename_i limits
  simp only [Bool.or_eq_true, decide_eq_true_eq, Bool.not_eq_true', not_or,
    not_lt, Bool.not_eq_false] at limits
  refine ⟨⟨limits.1.1, limits.1.2, limits.2⟩, ?_⟩
  obtain ⟨body, encoded, made⟩ := Option.bind_eq_some_iff.mp made
  obtain ⟨⟨ciphertext, tag⟩, encrypted, made⟩ := Option.bind_eq_some_iff.mp made
  cases made
  exact ⟨body, ciphertext, tag, encoded, encrypted, rfl⟩

theorem wellFormed_of_seal : envelope.WellFormed := by
  obtain ⟨⟨publicFits, privateFits, branchesValid⟩, body, ciphertext, tag,
    encoded, encrypted, rfl⟩ := seal_eq_some made
  have bodyFits := Records.length_of_encode encoded
  have ciphertextLength := aead.length_encrypt encrypted
  refine ⟨publicFits, privateFits, branchesValid, ?_, ?_⟩
  · simp [tagLength]
  · rw [List.length_append, length_bytes, tagLength, ciphertextLength]
    omega

/-- A sealed envelope opens, under its key, to the records it was sealed
from. -/
theorem open_of_seal : envelope.open aead key = some records := by
  obtain ⟨-, body, ciphertext, tag, encoded, encrypted, rfl⟩ := seal_eq_some made
  have tagged : ¬(ciphertext ++ tag.bytes).length < tagLength := by
    simp [tagLength]
  have split : (ciphertext ++ tag.bytes).length - tagLength = ciphertext.length := by
    simp [tagLength]
  rw [«open», if_neg tagged]
  simp only [split, List.drop_left, List.take_left, ofBytes?_bytes]
  change (aead.decrypt key nonce _ ciphertext tag).bind Records.decode = _
  rw [aead.decrypt_encrypt encrypted]
  exact Records.decode_iff.mpr encoded

end Sealed

theorem Limited.wellFormed (limited : envelope.Limited) :
    WellFormed { envelope with ciphertext := List.replicate 16 0 } :=
  ⟨limited.1, limited.2.1, limited.2.2, by simp [tagLength],
    by simp [maxRevoked, maxDelivered, maxImported, tagLength]⟩

/-- Headers within the limits, followed by one tag, decode to what they were made from. -/
theorem eq_of_header {left right : Envelope} (leftLimited : left.Limited)
    (rightLimited : right.Limited) (same : left.header = right.header) :
    left = { right with ciphertext := left.ciphertext } := by
  have encoded : ({ left with ciphertext := List.replicate 16 0 } : Envelope).encode =
      ({ right with ciphertext := List.replicate 16 0 } : Envelope).encode :=
    congrArg (· ++ _) same
  have decoded := congrArg decode encoded
  rw [leftLimited.wellFormed.decode_encode, rightLimited.wellFormed.decode_encode] at decoded
  simp only [Option.some.injEq, mk.injEq, and_true] at decoded
  obtain ⟨counters, publics, privates, branches, nonces⟩ := decoded
  cases left
  simp_all

/-- What `open` asks of the cipher. -/
theorem open_eq_some (opened : envelope.open aead key = some records) :
    ∃ ciphertext tag body, envelope.ciphertext = ciphertext ++ bytes tag ∧
      aead.decrypt key envelope.nonce envelope.header ciphertext tag = some body := by
  obtain ⟨-, opened⟩ := Option.ite_none_left_eq_some.mp opened
  obtain ⟨tag, tagged, opened⟩ := Option.bind_eq_some_iff.mp opened
  obtain ⟨body, decrypted, -⟩ := Option.bind_eq_some_iff.mp opened
  refine ⟨_, tag, body, ?_, decrypted⟩
  simp only [ofBytes?, Option.dite_none_right_eq_some, Option.some.injEq] at tagged
  obtain ⟨-, rfl⟩ := tagged
  exact (List.take_append_drop _ _).symm

/-- The envelope was sealed or decoded. -/
def Made (aead : Aead) (envelope : Envelope) : Prop :=
  (∃ key counter sealedPublic sealedPrivate branches nonce records,
    «seal» aead key counter sealedPublic sealedPrivate branches nonce records = some envelope) ∨
  ∃ bytes, decode bytes = some envelope

theorem Made.limited (made : envelope.Made aead) : envelope.Limited := by
  rcases made with ⟨key, counter, sealedPublic, sealedPrivate, branches, nonce, records, made⟩ |
    ⟨bytes, decoded⟩
  · obtain ⟨limits, body, ciphertext, tag, -, -, rfl⟩ := seal_eq_some made
    exact limits
  · exact (encode_of_decode decoded).2

theorem seal_of_fits {aead : Aead} (accepts : aead.Accepts) (key : Fixed 32) (counter : UInt64)
    (nonce : Fixed 12) (publicFits : sealedPublic.length ≤ maxSealed)
    (privateFits : sealedPrivate.length ≤ maxSealed)
    (branchesValid : validBranches branches.length) (fits : records.fits) :
    ∃ envelope, «seal» aead key counter sealedPublic sealedPrivate branches nonce records =
      some envelope := by
  have encoded : records.encode = some records.bytes := if_pos fits
  have limited : Limited ⟨counter, sealedPublic, sealedPrivate, branches, nonce, []⟩ :=
    ⟨publicFits, privateFits, branchesValid⟩
  have headerFits := limited.wellFormed.length_encode
  rw [encode, List.length_append] at headerFits
  obtain ⟨⟨ciphertext, tag⟩, encrypted⟩ := accepts key nonce
    (header ⟨counter, sealedPublic, sealedPrivate, branches, nonce, []⟩) records.bytes
    (Nat.le_of_add_right_le headerFits) ((Records.length_of_encode encoded).trans (by decide))
  refine ⟨⟨counter, sealedPublic, sealedPrivate, branches, nonce, ciphertext ++ tag.bytes⟩, ?_⟩
  rw [«seal», if_neg (by simp [publicFits, privateFits, branchesValid])]
  simp [encoded, encrypted]

/-- Whatever is sealed within the limits fits an envelope and comes back; what is decoded is the
encoding of what it decodes to; a header determines everything in front of the ciphertext; and
under a cipher that opens only what was sealed with its key, nonce and header, what opens is one of
the sealed envelopes, byte for byte. -/
theorem envelope_faithful
    (aead : Aead) :
    (aead.Accepts → ∀ key counter sealedPublic sealedPrivate branches nonce records,
      sealedPublic.length ≤ maxSealed → sealedPrivate.length ≤ maxSealed →
      (branches.length = 0 ∨ 2 ≤ branches.length ∧ branches.length ≤ maxBranches) →
      records.fits →
      ∃ envelope, «seal» aead key counter sealedPublic sealedPrivate branches nonce records =
          some envelope ∧ envelope.encode.length ≤ maxEnvelope ∧
        ((decode envelope.encode).bind fun decoded => decoded.open aead key) = some records) ∧
    (∀ bytes envelope, decode bytes = some envelope → envelope.encode = bytes) ∧
    (∀ bytes records, Records.decode bytes = some records → records.encode = some bytes) ∧
    (∀ left right : Envelope, left.Made aead → right.Made aead → left.header = right.header →
      left.counter = right.counter ∧ left.sealedPublic = right.sealedPublic ∧
        left.sealedPrivate = right.sealedPrivate ∧ left.branches = right.branches ∧
        left.nonce = right.nonce) ∧
    (∀ key, ∀ sealed : Envelope → Prop, (∀ envelope, sealed envelope → envelope.Made aead) →
      (∀ nonce header ciphertext tag body,
        aead.decrypt key nonce header ciphertext tag = some body →
        ∃ envelope, sealed envelope ∧ envelope.nonce = nonce ∧ envelope.header = header ∧
          envelope.ciphertext = ciphertext ++ tag.bytes) →
      ∀ bytes envelope, decode bytes = some envelope →
        (∀ original, sealed original → bytes ≠ original.encode) →
        envelope.open aead key = none) := by
  refine ⟨?_, ?_, fun _ _ => Records.decode_iff.mp, ?_, ?_⟩
  · intro accepts key counter sealedPublic sealedPrivate branches nonce records publicFits
      privateFits branchesValid fits
    have valid : validBranches branches.length := by
      simpa [validBranches] using branchesValid
    obtain ⟨envelope, made⟩ :=
      seal_of_fits accepts key counter nonce publicFits privateFits valid fits
    have wellFormed := wellFormed_of_seal made
    refine ⟨envelope, made, wellFormed.length_encode, ?_⟩
    rw [wellFormed.decode_encode]
    exact open_of_seal made
  · intro bytes envelope decoded
    exact (encode_of_decode decoded).1.symm
  · intro left right leftMade rightMade same
    have equal := eq_of_header leftMade.limited rightMade.limited same
    rw [equal]
    exact ⟨rfl, rfl, rfl, rfl, rfl⟩
  · intro key sealed allMade authentic bytes envelope decoded changed
    by_contra opens
    obtain ⟨records, opened⟩ := Option.ne_none_iff_exists'.mp opens
    obtain ⟨ciphertext, tag, body, split, decrypted⟩ := open_eq_some opened
    obtain ⟨original, present, -, same, text⟩ := authentic _ _ _ _ _ decrypted
    obtain ⟨rfl, limited⟩ := encode_of_decode decoded
    have equal := eq_of_header limited (allMade _ present).limited same.symm
    rw [split, ← text] at equal
    exact changed original present (by rw [equal])

/-- Records with a revocation and a delivery, sealed under two branches. -/
theorem envelope_faithful_sample :
    ∃ envelope, «seal» sampleAead (.replicate 32 1) 3 [1] [2]
        [.replicate 32 4, .replicate 32 5] (.replicate 12 6)
          ⟨[7], [⟨.replicate 16 8, 1, 900⟩], []⟩ =
          some envelope ∧
      envelope.encode.length ≤ maxEnvelope ∧
      ((decode envelope.encode).bind fun decoded => decoded.open sampleAead (.replicate 32 1)) =
        some ⟨[7], [⟨.replicate 16 8, 1, 900⟩], []⟩ :=
  (envelope_faithful sampleAead).1 (fun _ _ _ _ _ _ => ⟨_, rfl⟩) _ _ _ _ _ _ _
    (by decide) (by decide) (by decide) (by decide)

end Envelope

/-! ## Freshness -/

/-- How an envelope's counter relates to the TPM's. -/
inductive Freshness where
  /-- The latest committed state. -/
  | current
  /-- Written, but the TPM counter was not incremented after it. -/
  | uncommitted
  /-- Older than the TPM counter. -/
  | rolledBack
  /-- Newer than any write the kernel can have made. -/
  | invalid
  deriving DecidableEq, Repr

/-- Addition that fails on overflow. -/
def checkedAdd (left right : UInt64) : Option UInt64 :=
  if left.toNat + right.toNat < 2 ^ 64 then some (left + right) else none

theorem checkedAdd_one_eq_some_iff :
    checkedAdd value 1 = some next ↔ next.toNat = value.toNat + 1 := by
  have bound := next.toNat_lt
  unfold checkedAdd
  split
  · rename_i fits
    simp only [UInt64.toNat_one] at fits
    rw [Option.some.injEq, ← UInt64.toNat_inj, UInt64.toNat_add]
    simp only [UInt64.toNat_one]
    omega
  · rename_i overflow
    simp only [UInt64.toNat_one] at overflow
    simp only [reduceCtorEq, false_iff]
    omega

/-- Compare with the TPM counter. -/
def freshness (counter tpm : UInt64) : Freshness :=
  if counter = tpm then .current
  else if some counter = checkedAdd tpm 1 then .uncommitted
  else if counter < tpm then .rolledBack
  else .invalid

theorem freshness_eq_current_iff : freshness counter tpm = .current ↔ counter = tpm := by
  unfold freshness
  split <;> [simp_all; skip]
  split <;> [simp_all; skip]
  split <;> simp_all

theorem freshness_eq_uncommitted_iff : freshness counter tpm = .uncommitted ↔
    counter.toNat = tpm.toNat + 1 := by
  rw [← checkedAdd_one_eq_some_iff]
  unfold freshness
  split
  · rename_i equal
    simp only [reduceCtorEq, false_iff, equal, checkedAdd_one_eq_some_iff]
    omega
  · split
    · rename_i next
      simp [next]
    · rename_i other
      refine iff_of_false (by split <;> simp) fun next => other next.symm

end Cdk.Link

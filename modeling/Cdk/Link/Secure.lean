import Cdk.Library.ByteFormat

/-!
# Identities, hybrid signatures and names

An identity is an Ed25519 and an ML-DSA-65 public key, a signature is one under each, and
`verifyWith` accepts only if both verify.  The cryptographic functions are a parameter.  A name is
a byte string with the proof of its check.
-/

namespace Cdk.Link

open ByteFormat Reader

/-- The external cryptography: SHA-256, strict Ed25519 verification and
ML-DSA-65 verification under a FIPS 204 context.  A key or signature that does
not decode is one that does not verify. -/
structure Crypto where
  sha256 : Bytes → Fixed 32
  /-- Strict Ed25519 verification of a digest. -/
  edVerify : Fixed 32 → Fixed 32 → Fixed 64 → Bool
  /-- ML-DSA-65 verification of a digest under a context. -/
  mlVerify : Fixed 1952 → Fixed 32 → Bytes → Fixed 3309 → Bool

/-- A hybrid public key. -/
structure Identity where
  ed : Fixed 32
  ml : Fixed 1952
  deriving DecidableEq

/-- A hybrid signature. -/
structure Signature where
  ed : Fixed 64
  ml : Fixed 3309
  deriving DecidableEq

namespace Identity

/-- The serialized public keys. -/
def bytes (identity : Identity) : Bytes := identity.ed.bytes ++ identity.ml.bytes

@[simp] theorem length_bytes (identity : Identity) : identity.bytes.length = 1984 := by
  simp [bytes]

def reader : Reader Identity := do
  let ed ← fixed 32
  let ml ← fixed 1952
  pure ⟨ed, ml⟩

@[simp] theorem run_reader : reader.run input = some (identity, rest) ↔
    input = identity.bytes ++ rest := by
  cases identity
  simp [reader, bytes, Option.bind_eq_some_iff]

/-- The short id of an identity. -/
def id (crypto : Crypto) (identity : Identity) : Fixed 16 :=
  let digest := crypto.sha256 (ascii "CDK-ISSUER-v1" ++ identity.ed.bytes ++ identity.ml.bytes)
  ⟨digest.bytes.take 16, by simp⟩

end Identity

namespace Signature

def bytes (signature : Signature) : Bytes := signature.ed.bytes ++ signature.ml.bytes

@[simp] theorem length_bytes (signature : Signature) : signature.bytes.length = 3373 := by
  simp [bytes]

def reader : Reader Signature := do
  let ed ← fixed 64
  let ml ← fixed 3309
  pure ⟨ed, ml⟩

@[simp] theorem run_reader : reader.run input = some (signature, rest) ↔
    input = signature.bytes ++ rest := by
  cases signature
  simp [reader, bytes, Option.bind_eq_some_iff]

def fromSlice (bytes : Bytes) : Option Signature :=
  (do let signature ← reader; finish; pure signature : Reader Signature).parse bytes

end Signature

/-- Both signatures are valid. -/
def verifyWith (crypto : Crypto) (identity : Identity) (digest : Fixed 32) (signature : Signature)
    (context : Bytes) : Bool :=
  crypto.edVerify identity.ed digest signature.ed &&
    crypto.mlVerify identity.ml digest context signature.ml

/-! ## Names -/

/-- `a-z`. -/
def isAsciiLowercase (byte : UInt8) : Bool := 97 ≤ byte && byte ≤ 122

/-- `0-9`. -/
def isAsciiDigit (byte : UInt8) : Bool := 48 ≤ byte && byte ≤ 57

/-- `a-z A-Z 0-9`. -/
def isAsciiAlphanumeric (byte : UInt8) : Bool :=
  isAsciiLowercase byte || (65 ≤ byte && byte ≤ 90) || isAsciiDigit byte

/-- The common shape of the name checks: between one byte and a limit, all of
them accepted. -/
def validName (limit : Nat) (accepts : UInt8 → Bool) (text : Bytes) : Bool :=
  !text.isEmpty && text.length ≤ limit && text.all accepts

/-- Node names: 1 to 16 of `a-z 0-9 - _`. -/
def validNodeName : Bytes → Bool :=
  validName 16 fun byte =>
    isAsciiLowercase byte || isAsciiDigit byte || (ascii "-_").contains byte

/-- Object names in portable capabilities: 1 to 10 of `a-z A-Z 0-9 - _ .`. -/
def validObjectName : Bytes → Bool :=
  validName 10 fun byte =>
    isAsciiAlphanumeric byte || (ascii "-_.").contains byte

/-- Sender labels: 1 to 24 of `a-z A-Z 0-9 - _ : .`. -/
def validSender : Bytes → Bool :=
  validName 24 fun byte =>
    isAsciiAlphanumeric byte || (ascii "-_:.").contains byte

/-- File names in the gateway's directories: 1 to 32 of `a-z A-Z 0-9 - _`. -/
def validFileName : Bytes → Bool :=
  validName 32 fun byte =>
    isAsciiAlphanumeric byte || (ascii "-_").contains byte

theorem length_le_of_validName (valid : validName limit accepts text) : text.length ≤ limit := by
  simp only [validName, Bool.and_eq_true, decide_eq_true_eq] at valid
  exact valid.1.2

/-- A byte string that passes a name check. -/
structure Name (valid : Bytes → Bool) where
  text : Bytes
  accepted : valid text
  deriving DecidableEq

abbrev NodeName := Name validNodeName

abbrev ObjectName := Name validObjectName

abbrev SenderName := Name validSender

abbrev FileName := Name validFileName

theorem length_nodeName (name : NodeName) : name.text.length ≤ 16 :=
  length_le_of_validName name.accepted

theorem length_objectName (name : ObjectName) : name.text.length ≤ 10 :=
  length_le_of_validName name.accepted

theorem length_senderName (name : SenderName) : name.text.length ≤ 24 :=
  length_le_of_validName name.accepted

theorem length_fileName (name : FileName) : name.text.length ≤ 32 :=
  length_le_of_validName name.accepted

namespace Name

variable {valid : Bytes → Bool}

def bytes (name : Name valid) : Bytes := UInt8.ofNat name.text.length :: name.text

@[simp] theorem length_bytes (name : Name valid) : name.bytes.length = 1 + name.text.length := by
  simp [bytes, Nat.add_comm]

def ofBytes? (valid : Bytes → Bool) (text : Bytes) : Option (Name valid) :=
  if accepted : valid text = true then some ⟨text, accepted⟩ else none

@[simp] theorem ofBytes?_text (name : Name valid) : ofBytes? valid name.text = some name := by
  simp [ofBytes?, name.accepted]

/-- Read a length-prefixed name that passes the check. -/
def reader (valid : Bytes → Bool) : Reader (Name valid) := do
  let count ← u8
  let text ← take count.toNat
  (ofBytes? valid text : Option (Name valid))

theorem ofBytes?_eq_some {text : Bytes} : ofBytes? valid text = some name ↔ text = name.text := by
  constructor
  · intro checked
    obtain ⟨accepted, same⟩ := Option.dite_none_right_eq_some.mp checked
    cases same
    rfl
  · rintro rfl
    exact ofBytes?_text name

/-- A name is read from its bytes alone, if its length fits into one of them. -/
theorem run_reader (short : ∀ name : Name valid, name.text.length ≤ 255) :
    (reader valid).run input = some (name, rest) ↔ input = name.bytes ++ rest := by
  have small := Nat.lt_succ_of_le (short name)
  simp [reader, bytes, Option.bind_eq_some_iff, ofBytes?_eq_some, eq_toNat8, small]

end Name

/-! ## Concrete primitives for runs -/

/-- A checksum in the place of a hash or a tag. -/
def checksum (length : Nat) (bytes : Bytes) : Fixed length :=
  ⟨leBytes length (leValue bytes % (256 ^ length - 159)), length_leBytes _ _⟩

/-- Checksums in the place of hashes, and signatures taken as given. -/
def sampleCrypto : Crypto where
  sha256 := checksum 32
  edVerify _ _ _ := true
  mlVerify _ _ _ _ := true

end Cdk.Link

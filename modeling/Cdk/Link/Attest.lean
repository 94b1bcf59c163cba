import Cdk.Library.HexText
import Cdk.Link.Blob
import Cdk.Link.Session

/-!
# Attestation messages

Inside a sealed session the gateway asks the kernel to attest its boot, with a
fresh nonce, and the kernel answers with the nonce, the outcome of its verified
boot and its measurement registers.
-/

namespace Cdk.Link

open ByteFormat Reader

def hex (bytes : Bytes) : Text := bytes.flatMap fun byte => HexText.hexDigits 2 byte.toNat

/-- The measurement registers: kernel, ramdisk and verdict. -/
abbrev Registers := Vector (Fixed 32) 3

def attestRequestTag : UInt8 := 0x30

def attestTag : UInt8 := 0x31

/-- Boot verification outcome. -/
inductive Verdict
  | unverified
  | verified
  | failed
  deriving DecidableEq

namespace Verdict

def byte : Verdict → UInt8
  | unverified => 0
  | verified => 1
  | failed => 2

def fromU8 (byte : UInt8) : Option Verdict :=
  if byte = 0 then some unverified
  else if byte = 1 then some verified
  else if byte = 2 then some failed
  else none

/-- Read an outcome. -/
def reader : Reader Verdict := do
  let byte ← u8
  (fromU8 byte : Option Verdict)

@[simp] theorem run_reader : reader.run input = some (verdict, rest) ↔
    input = verdict.byte :: rest := by
  have decodes : ∀ byte, fromU8 byte = some verdict ↔ byte = verdict.byte := by
    intro byte
    unfold fromU8
    split_ifs <;> cases verdict <;> simp_all [Verdict.byte]
  simp [reader, Option.bind_eq_some_iff, decodes]

end Verdict

/-- The kernel's answer. -/
structure Attestation where
  nonce : Fixed 32
  verdict : Verdict
  releaseId : Fixed 16
  registers : Registers
  log : Text

def attestHeader : Nat := 1 + 32 + 1 + 16 + 32 * 3 + 2

def maxLog : Nat := maxPlaintext - attestHeader

def encodeRequest (nonce : Fixed 32) (flags : UInt8) : Bytes :=
  attestRequestTag :: nonce.bytes ++ if flags ≠ 0 then [flags] else []

/-- Encode, with the log cut. -/
def encodeAttestation (attestation : Attestation) : Bytes :=
  let log := utf8 (cutAt maxLog attestation.log)
  attestTag :: (attestation.nonce.bytes ++ ([attestation.verdict.byte] ++
    (attestation.releaseId.bytes ++ (attestation.registers.toList.flatMap Fixed.bytes ++
        (le16 (UInt16.ofNat log.length) ++ log)))))

/-- A message of the attestation exchange. -/
inductive AttestMessage
  | request (nonce : Fixed 32) (flags : UInt8)
  | attestation (attestation : Attestation)

def isAttest (message : Bytes) : Bool :=
  message.head? = some attestRequestTag || message.head? = some attestTag

/-- Read what follows the tag of an attestation. -/
def Attestation.reader : Reader Attestation := do
  let nonce ← fixed 32
  let verdict ← Verdict.reader
  let releaseId ← fixed 16
  let registers ← vector (fixed 32) 3
  let length ← u16
  let log ← take length.toNat
  require (length.toNat ≤ maxLog)
  let text ← (fromUtf8 log : Option Text)
  pure ⟨nonce, verdict, releaseId, registers, text⟩

/-- Decode a message. -/
def decodeAttest (bytes : Bytes) : Option AttestMessage :=
  match bytes with
  | [] => none
  | tag :: rest =>
    if tag = attestRequestTag then
      if rest.length = 32 ∨ rest.length = 33 then
        (Fixed.ofBytes? 32 (rest.take 32)).map fun nonce =>
          .request nonce (rest[32]?.getD 0)
      else none
    else if tag = attestTag then
      ((do let message ← Attestation.reader; finish; pure message :
        Reader Attestation).parse rest).map .attestation
    else none

theorem length_utf8_cutAt_le (limit : Nat) (text : Text) :
    (utf8 (cutAt limit text)).length ≤ limit := by
  induction text generalizing limit with
  | nil => simp [cutAt, utf8]
  | cons character rest ih =>
    rw [cutAt]
    split
    · rename_i fits
      have tail := ih (limit - character.utf8Size)
      simp only [utf8, List.flatMap_cons, List.length_append,
        String.length_utf8EncodeChar] at tail ⊢
      omega
    · simp [utf8]

theorem decodeAttest_encodeAttestation (attestation : Attestation) :
    decodeAttest (encodeAttestation attestation) =
      some (.attestation { attestation with log := cutAt maxLog attestation.log }) := by
  have short := length_utf8_cutAt_le maxLog attestation.log
  have small := short.trans_lt (by decide : maxLog < 65536)
  simp [decodeAttest, encodeAttestation, Attestation.reader, attestTag, attestRequestTag,
    Option.bind_eq_some_iff, run_vector run_fixed, fromUtf8_eq_some, eq_toNat16,
    small, Nat.mod_eq_of_lt small, short]

end Cdk.Link

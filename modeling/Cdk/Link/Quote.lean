import Cdk.Link.Attest

/-!
# TPM quotes and endorsement

The messages in which the kernel forwards what its TPM signed: a quote of
thirteen PCRs over the gateway's nonce, and, where the gateway asks for it, the
endorsement key with its certificate, the credential challenge and the proof.
-/

namespace Cdk.Link

open ByteFormat Reader

def quoteTag : UInt8 := 0x32

def ekChunkTag : UInt8 := 0x33

def challengeTag : UInt8 := 0x34

def proofTag : UInt8 := 0x35

/-- The flag of an attestation request that asks for the endorsement. -/
def proveEndorsement : UInt8 := 0x01

/-- The flag of an attestation request that announces a node certificate. -/
def certifyFlag : UInt8 := 0x02

def maxEkBlob : Nat := 4096

def ekChunkData : Nat := 512

/-- The values of PCRs 0 to 12. -/
abbrev Pcrs := Vector (Fixed 32) 13

/-- The bitmap that selects PCRs 0 to 12. -/
def pcrSelect : Bytes := [0xFF, 0x1F, 0x00]

def tpmGeneratedValue : UInt32 := 0xff544347

def tpmStAttestQuote : UInt16 := 0x8018

def tpmAlgSha256 : UInt16 := 0x000B

/-! ## Quotes -/

/-- A quote as the kernel forwards it. -/
structure Quote where
  nonce : Fixed 32
  akX : Fixed 32
  akY : Fixed 32
  pcrs : Pcrs
  /-- The structure that the TPM generated and signed. -/
  attest : Bytes
  sigR : Bytes
  sigS : Bytes

def isQuote (message : Bytes) : Bool := message.head? = some quoteTag

/-- Read what follows the tag of a quote. -/
def Quote.reader : Reader Quote := do
  let nonce ← fixed 32
  let akX ← fixed 32
  let akY ← fixed 32
  let pcrs ← vector (fixed 32) 13
  let attestLength ← u16
  let attest ← take attestLength.toNat
  let rLength ← u8
  let sigR ← take rLength.toNat
  let sLength ← u8
  let sigS ← take sLength.toNat
  require (attestLength.toNat ≤ 512 && rLength.toNat ≤ 66 && sLength.toNat ≤ 66)
  pure ⟨nonce, akX, akY, pcrs, attest, sigR, sigS⟩

/-- Decode a quote. -/
def decodeQuote (bytes : Bytes) : Option Quote :=
  match bytes with
  | [] => none
  | tag :: rest =>
    if tag = quoteTag then
      (do let quote ← Quote.reader; finish; pure quote : Reader Quote).parse rest
    else none

/-- The layout of a quote. -/
def Quote.bytes (quote : Quote) : Bytes :=
  quoteTag :: (quote.nonce.bytes ++ (quote.akX.bytes ++ (quote.akY.bytes ++
    (quote.pcrs.toList.flatMap Fixed.bytes ++
      (le16 (UInt16.ofNat quote.attest.length) ++ (quote.attest ++
        ([UInt8.ofNat quote.sigR.length] ++ (quote.sigR ++
          ([UInt8.ofNat quote.sigS.length] ++ quote.sigS)))))))))

/-- Encode a quote within the limits. -/
def encodeQuote (quote : Quote) : Option Bytes :=
  if 512 < quote.attest.length ∨ 66 < quote.sigR.length ∨ 66 < quote.sigS.length then none
  else if quote.bytes.length ≤ maxPlaintext then some quote.bytes
  else none

/-- Exactly the layout is accepted, with lengths within the limits. -/
theorem decodeQuote_iff : decodeQuote input = some quote ↔ input = quote.bytes ∧
    quote.attest.length ≤ 512 ∧ quote.sigR.length ≤ 66 ∧ quote.sigS.length ≤ 66 := by
  cases input with
  | nil => simp [decodeQuote, Quote.bytes]
  | cons tag body =>
    simp only [decodeQuote, Quote.bytes, Quote.reader, Option.ite_none_right_eq_some,
      parse_eq_some, StateT.run_bind, Option.bind_eq_bind, Option.bind_eq_some_iff, Prod.exists,
      run_fixed, run_vector run_fixed, run_u16, run_u8, run_take, run_require, run_finish,
      List.cons.injEq, and_assoc]
    apply and_congr_right
    rintro rfl
    constructor
    · rintro ⟨_, _, _, ⟨nonce, _, rfl, akX, _, rfl, akY, _, rfl, pcrs, _, rfl, aLength, _, rfl,
        attest, _, rfl, aFits, rLength, _, rfl, sigR, _, rfl, rFits, sLength, _, rfl, sigS, _, rfl,
        sFits, _, _, limits, rfl, built⟩, _, _, rfl, rfl, returned⟩
      cases built
      cases returned
      rw [← aFits, ← rFits, ← sFits] at limits
      obtain ⟨-, rfl⟩ := eq_toNat16.mp aFits
      obtain ⟨-, rfl⟩ := eq_toNat8.mp rFits
      obtain ⟨-, rfl⟩ := eq_toNat8.mp sFits
      simpa [and_assoc] using limits
    · rintro ⟨rfl, attestFits, rFits, sFits⟩
      have aLength := (eq_toNat16).mpr ⟨attestFits.trans_lt (by decide), rfl⟩
      have rLength := (eq_toNat8).mpr ⟨rFits.trans_lt (by decide), rfl⟩
      have sLength := (eq_toNat8).mpr ⟨sFits.trans_lt (by decide), rfl⟩
      refine ⟨[], quote, [], ⟨quote.nonce, _, rfl, quote.akX, _, rfl, quote.akY, _, rfl, quote.pcrs,
        _, rfl, _, _, rfl, quote.attest, _, rfl, aLength, _, _, rfl, quote.sigR, _, rfl, rLength,
        _, _, rfl, quote.sigS, [], (List.append_nil _).symm, sLength, (), [], ?_, rfl, rfl⟩,
        (), [], rfl, rfl, rfl⟩
      simp [← aLength, ← rLength, ← sLength, attestFits, rFits, sFits]

/-! ## What the TPM signed -/

/-- What a quote structure reports. -/
structure QuoteInfo where
  extraData : Bytes
  /-- The hash algorithm and the bitmap of each selection. -/
  selection : List (UInt16 × Bytes)
  pcrDigest : Bytes

def sized (bytes : Bytes) : Bytes := be16 (UInt16.ofNat bytes.length) ++ bytes

def sizedReader : Reader Bytes := do
  let length ← u16be
  take length.toNat

/-- Read one selection of PCRs. -/
def selectionReader : Reader (UInt16 × Bytes) := do
  let algorithm ← u16be
  let size ← u8
  let bitmap ← take size.toNat
  pure (algorithm, bitmap)

/-- Read a structure of type quote. -/
def QuoteInfo.reader : Reader QuoteInfo := do
  let magic ← u32be
  require (magic == tpmGeneratedValue)
  let kind ← u16be
  require (kind == tpmStAttestQuote)
  let _signer ← sizedReader
  let extraData ← sizedReader
  let _clockInfo ← take (8 + 4 + 4 + 1)
  let _firmwareVersion ← take 8
  let count ← u32be
  require (count.toNat ≤ 4)
  let selection ← many selectionReader count.toNat
  let pcrDigest ← sizedReader
  pure ⟨extraData, selection, pcrDigest⟩

def parseAttest (bytes : Bytes) : Option QuoteInfo :=
  (do let info ← QuoteInfo.reader; finish; pure info : Reader QuoteInfo).parse bytes

/-- The digest that a quote of the given PCRs carries. -/
def pcrDigest (crypto : Crypto) (pcrs : Pcrs) : Fixed 32 :=
  crypto.sha256 (pcrs.toList.flatMap Fixed.bytes)

/-- Everything about a quote but its signature. -/
def checkQuoteContents (crypto : Crypto) (quote : Quote) : Except String Unit :=
  match parseAttest quote.attest with
  | none => .error "not a TPM-generated quote structure"
  | some info =>
    if info.extraData ≠ quote.nonce.bytes then .error "quote is not for this nonce"
    else if info.selection ≠ [(tpmAlgSha256, pcrSelect)] then
      .error "quote covers other PCRs (expected 0-12)"
    else if info.pcrDigest ≠ (pcrDigest crypto quote.pcrs).bytes then
      .error "reported PCR values do not match the quoted digest"
    else .ok ()

def selectionBytes (selection : UInt16 × Bytes) : Bytes :=
  be16 selection.1 ++ ([UInt8.ofNat selection.2.length] ++ selection.2)

/-- The structure that a TPM signs. -/
def quoteAttest (signer : Bytes) (clockInfo : Fixed 17) (firmwareVersion : Fixed 8)
    (info : QuoteInfo) : Bytes :=
  be32 tpmGeneratedValue ++ (be16 tpmStAttestQuote ++ (sized signer ++
    (sized info.extraData ++ (clockInfo.bytes ++ (firmwareVersion.bytes ++
      (be32 (UInt32.ofNat info.selection.length) ++
        (info.selection.flatMap selectionBytes ++ sized info.pcrDigest)))))))

/-- The lengths of a report can be written down. -/
structure QuoteInfo.Fits (info : QuoteInfo) : Prop where
  extraData : info.extraData.length < 65536
  selections : info.selection.length ≤ 4
  bitmaps : ∀ selection ∈ info.selection, selection.2.length < 256
  pcrDigest : info.pcrDigest.length < 65536

section Reading

theorem run_sized : sizedReader.run input = some (bytes, rest) ↔
    input = sized bytes ++ rest ∧ bytes.length < 65536 := by
  simp [sizedReader, sized, Option.bind_eq_some_iff, eq_toNat16]

theorem run_selection : selectionReader.run input = some (selection, rest) ↔
    input = selectionBytes selection ++ rest ∧ selection.2.length < 256 := by
  obtain ⟨algorithm, bitmap⟩ := selection
  simp [selectionReader, selectionBytes, Option.bind_eq_some_iff, eq_toNat8]

/-- Exactly what a TPM can have generated for a report is read as that report. -/
theorem parseAttest_iff : parseAttest input = some info ↔ ∃ signer clockInfo firmwareVersion,
    signer.length < 65536 ∧ info.Fits ∧
      input = quoteAttest signer clockInfo firmwareVersion info := by
  obtain ⟨extraData, selection, digest⟩ := info
  simp [parseAttest, QuoteInfo.reader, Option.bind_eq_some_iff, run_sized,
    run_many_valid run_selection, eq_toNat32]
  constructor
  · rintro ⟨signer, clockInfo, firmwareVersion, rfl, signerFits, extraFits, clock, firmware, few,
      ⟨count, bitmaps⟩, digestFits⟩
    rw [Nat.mod_eq_of_lt count] at few
    exact ⟨signer, signerFits,
      ⟨extraFits, few, fun selection => bitmaps selection.1 selection.2, digestFits⟩,
      ⟨clockInfo, clock⟩, ⟨firmwareVersion, firmware⟩, rfl⟩
  · rintro ⟨signer, signerFits, ⟨extraFits, few, bitmaps, digestFits⟩, clockInfo, firmwareVersion,
      rfl⟩
    have count := few.trans_lt (by decide : 4 < 4294967296)
    refine ⟨signer, clockInfo.bytes, firmwareVersion.bytes, rfl, signerFits, extraFits,
      clockInfo.length_bytes, firmwareVersion.length_bytes, ?_, ⟨count, ?_⟩, digestFits⟩
    · rwa [Nat.mod_eq_of_lt count]
    · exact fun algorithm bitmap => bitmaps (algorithm, bitmap)

end Reading

/-- What a quote of PCRs 0 to 12 reports. -/
def Quote.info (crypto : Crypto) (quote : Quote) : QuoteInfo :=
  ⟨quote.nonce.bytes, [(tpmAlgSha256, pcrSelect)], (pcrDigest crypto quote.pcrs).bytes⟩

theorem checkQuoteContents_iff : checkQuoteContents crypto quote = .ok () ↔
    parseAttest quote.attest = some (quote.info crypto) := by
  unfold checkQuoteContents
  split
  · rename_i unread
    simp [unread]
  rename_i info read
  rw [read, Option.some.injEq]
  constructor
  · intro passed
    split_ifs at passed with nonce selection digest
    obtain ⟨extraData, selected, pcrs⟩ := info
    simp_all [Quote.info]
  · rintro rfl
    simp [Quote.info]

/-- A quote passes exactly if its structure is one that a TPM generated for the nonce and the
reported PCRs, whoever signed it and whatever its clock and firmware; and exactly the messages of
the quote's layout are decoded. -/
theorem quote_means_what_it_claims
    (crypto : Crypto) :
    (∀ quote, checkQuoteContents crypto quote = .ok () ↔ ∃ signer clockInfo firmwareVersion,
      signer.length < 65536 ∧
        quote.attest = quoteAttest signer clockInfo firmwareVersion (quote.info crypto)) ∧
    (∀ input quote, decodeQuote input = some quote ↔ input = quote.bytes ∧
      quote.attest.length ≤ 512 ∧ quote.sigR.length ≤ 66 ∧ quote.sigS.length ≤ 66) ∧
    ∀ quote message, encodeQuote quote = some message → decodeQuote message = some quote := by
  refine ⟨fun quote => ?_, fun input quote => decodeQuote_iff, fun quote message encoded => ?_⟩
  · have fits : (quote.info crypto).Fits := by
      constructor <;> simp [Quote.info, pcrSelect]
    simp only [checkQuoteContents_iff, parseAttest_iff, fits, true_and]
  · simp only [encodeQuote, Option.ite_none_left_eq_some, Option.ite_none_right_eq_some,
      Option.some.injEq, not_or, not_lt] at encoded
    obtain ⟨⟨attestFits, rFits, sFits⟩, -, rfl⟩ := encoded
    exact decodeQuote_iff.mpr ⟨rfl, attestFits, rFits, sFits⟩

/-- A quote of the generated structure for its own nonce and PCRs. -/
def plainQuote : Quote :=
  let unsigned : Quote :=
    ⟨.replicate 32 1, .replicate 32 2, .replicate 32 3, .replicate _ (.replicate 32 4), [],
      [5], [6]⟩
  { unsigned with
    attest := quoteAttest [7] (.replicate 17 8) (.replicate 8 9) (unsigned.info sampleCrypto) }

/-- The quote is sent, is decoded, and passes. -/
theorem quote_means_what_it_claims_sample :
    encodeQuote plainQuote = some plainQuote.bytes ∧
      decodeQuote plainQuote.bytes = some plainQuote ∧
      checkQuoteContents sampleCrypto plainQuote = .ok () := by
  obtain ⟨passes, _, returns⟩ := quote_means_what_it_claims sampleCrypto
  have sent : encodeQuote plainQuote = some plainQuote.bytes := by decide +kernel
  exact ⟨sent, returns _ _ sent, (passes _).mpr ⟨[7], _, _, by decide, rfl⟩⟩

/-! ## Names -/

def tpmAlgEcc : UInt16 := 0x0023

def tpmAlgEcdsa : UInt16 := 0x0018

def tpmAlgNull : UInt16 := 0x0010

def tpmEccNistP256 : UInt16 := 0x0003

/-- The attributes of an attestation key: fixedTPM, fixedParent,
sensitiveDataOrigin, userWithAuth, noDA, restricted and sign. -/
def akAttributes : UInt32 :=
  0x00000002 ||| 0x00000010 ||| 0x00000020 ||| 0x00000040 ||| 0x00000400 |||
    0x00010000 ||| 0x00040000

/-- The public area of an attestation key, or the template of one. -/
def akPublic (unique : Option (Fixed 32 × Fixed 32)) : Bytes :=
  be16 tpmAlgEcc ++ be16 tpmAlgSha256 ++ be32 akAttributes ++ sized [] ++
    be16 tpmAlgNull ++ be16 tpmAlgEcdsa ++ be16 tpmAlgSha256 ++ be16 tpmEccNistP256 ++
    be16 tpmAlgNull ++
    match unique with
    | some (x, y) => sized x.bytes ++ sized y.bytes
    | none => sized [] ++ sized []

def tpmName (crypto : Crypto) (publicArea : Bytes) : Fixed 34 :=
  ⟨be16 tpmAlgSha256 ++ (crypto.sha256 publicArea).bytes, by simp⟩

/-! ## The endorsement key -/

def ekChunk (total offset : Nat) (bytes : Bytes) : Bytes :=
  ekChunkTag :: (le16 (UInt16.ofNat total) ++ (le16 (UInt16.ofNat offset) ++ bytes))

/-- Split the key and its certificate into chunk messages. -/
def encodeEkChunks (x y : Fixed 32) (cert : Bytes) : Option (List Bytes) :=
  let blob := x.bytes ++ y.bytes ++ cert
  if blob.length > maxEkBlob then none
  else
    some ((chunks ekChunkData blob).mapIdx fun index bytes =>
      ekChunk blob.length (index * ekChunkData) bytes)

/-- Collects the chunks of an endorsement key and its certificate. -/
structure EkAssembler where
  blob : Bytes := []
  total : Nat := 0
  deriving DecidableEq

/-- A complete endorsement key. -/
structure EkBlob where
  x : Fixed 32
  y : Fixed 32
  cert : Bytes

namespace EkAssembler

/-- Add one chunk.  A chunk at offset zero begins anew, also if it is then
refused. -/
def push (assembler : EkAssembler) (message : Bytes) : EkAssembler × Except String Unit :=
  if message.head? ≠ some ekChunkTag then (assembler, .error "not an EK chunk")
  else if message.length < 5 then (assembler, .error "short EK chunk")
  else
    let total := leValue ((message.drop 1).take 2)
    let offset := leValue ((message.drop 3).take 2)
    let data := message.drop 5
    if total < 64 ∨ maxEkBlob < total ∨ data = [] ∨ ekChunkData < data.length then
      (assembler, .error "EK chunk with a bad size")
    else
      let begun : EkAssembler := if offset = 0 then ⟨[], total⟩ else assembler
      if total ≠ begun.total ∨ offset ≠ begun.blob.length ∨
          total < offset + data.length then
        (begun, .error "EK chunk out of order")
      else ({ begun with blob := begun.blob ++ data }, .ok ())

/-- The key and its certificate, once all chunks are in. -/
def complete (assembler : EkAssembler) : Option EkBlob :=
  if assembler.total = 0 ∨ assembler.blob.length ≠ assembler.total then none
  else do
    let x ← Fixed.ofBytes? 32 (assembler.blob.take 32)
    let y ← Fixed.ofBytes? 32 ((assembler.blob.drop 32).take 32)
    pure ⟨x, y, assembler.blob.drop 64⟩

end EkAssembler

/-! ## The credential challenge -/

/-- Encode a challenge. -/
def encodeChallenge (idObject secret : Bytes) : Option Bytes :=
  if 256 < idObject.length ∨ 256 < secret.length then none
  else
    some (challengeTag :: le16 (UInt16.ofNat idObject.length) ++ idObject ++
      le16 (UInt16.ofNat secret.length) ++ secret)

/-- Decode a proof. -/
def decodeProof (bytes : Bytes) : Option Bytes :=
  match bytes with
  | tag :: length :: rest =>
    if tag = proofTag ∧ rest.length = length.toNat ∧ length.toNat ≤ 64 then some rest
    else none
  | _ => none

def isEndorsement (message : Bytes) : Bool :=
  message.head? = some ekChunkTag || message.head? = some challengeTag ||
    message.head? = some proofTag

end Cdk.Link

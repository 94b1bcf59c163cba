import Cdk.Link.Quote

/-!
# The gateway's attestor

After each handshake the gateway asks the kernel to attest its boot.  Quotes, endorsement messages
and the attestation arrive in any order; the attestor collects them in optional fields and decides
once.  The configuration is kept apart from the state, which holds the enrollment file as well.
-/

namespace Cdk.Gateway

open ByteFormat Link Fixed

/-! ## Primitives and configuration -/

/-- The public key of a certificate. -/
inductive PublicKey
  | p256 (point : Bytes)
  | p384 (point : Bytes)
  | rsa (der : Bytes)
  | other
  deriving DecidableEq

/-- An X.509 certificate. -/
structure Certificate where
  der : Bytes
  /-- Where the signed part begins and ends. -/
  tbs : Nat × Nat
  sigAlg : Bytes
  signature : Bytes
  issuer : Bytes
  subject : Bytes
  key : PublicKey
  isCa : Bool
  /-- Has the extended key usage of an endorsement key certificate. -/
  ekUsage : Bool

/-- The check of a certificate against trusted certificates: the path to a
root, or why there is none. -/
abbrev TrustStore := Certificate → Except String (List String)

/-- The primitives of the attestation. -/
structure TpmCrypto where
  crypto : Crypto
  /-- ECDSA P-256 with SHA-256: the key's point, the two scalars of the
  signature, and the message. -/
  ecdsaVerify : (x y r s : Fixed 32) → Bytes → Bool
  parseCertificate : Bytes → Option Certificate
  /-- Encrypt a secret to an endorsement key, bound to the name of an object,
  with an ephemeral key. -/
  makeCredential : (x y : Fixed 32) → (name : Fixed 34) →
    (secret ephemeral : Fixed 32) → Option (Bytes × Bytes)

/-- What the operator asked for. -/
structure Config where
  /-- The registers of `--expect`. -/
  expect : Option Registers
  /-- The values of PCRs 11 and 12 from the same file. -/
  expectLoader : Option (Vector (Fixed 32) 2)
  /-- Whether there is an enrollment file (`--tpm`). -/
  tpmFile : Bool
  /-- The manufacturers of `--tpm-ca`. -/
  trust : Option TrustStore
  certify : Bool

def Config.tpmRequired (config : Config) : Bool := config.tpmFile || config.trust.isSome

/-! ## State -/

/-- How a session stands. -/
inductive Status
  | pending
  | trusted
  | rejected
  deriving DecidableEq

/-- An enrolled machine: its attestation key and its firmware PCRs. -/
structure Enrollment where
  ak : Fixed 64
  firmware : Vector (Fixed 32) 8
  deriving DecidableEq

/-- The enrollment file. -/
def Enrollment.render (enrollment : Enrollment) : Text :=
  ("# CDK TPM enrollment (cdk-gateway --tpm): " ++
      "attestation key and firmware PCRs 0-7\n").toList ++
    "ak ".toList ++ hex enrollment.ak.bytes ++ ['\n'] ++
    (enrollment.firmware.toList.mapIdx fun index pcr =>
      "pcr ".toList ++ (toString index).toList ++ [' '] ++ hex pcr.bytes ++ ['\n']).flatten

/-- A verified quote. -/
structure Quoted where
  ak : Fixed 64
  pcrs : Pcrs

namespace Quoted

/-- What is kept of a quote: its attestation key and its PCRs. -/
def ofQuote (quote : Link.Quote) : Quoted where
  ak := ⟨quote.akX.bytes ++ quote.akY.bytes, by simp⟩
  pcrs := quote.pcrs

/-- The PCRs that the kernel extends. -/
def cdkPcrs (quoted : Quoted) : Registers := #v[quoted.pcrs[8], quoted.pcrs[9], quoted.pcrs[10]]

/-- The PCRs that the measuring loader extends. -/
def loaderPcrs (quoted : Quoted) : Vector (Fixed 32) 2 := #v[quoted.pcrs[11], quoted.pcrs[12]]

def seen (quoted : Quoted) : Enrollment :=
  ⟨quoted.ak, Vector.ofFn fun index : Fin 8 => quoted.pcrs[index.val]⟩

def akName (crypto : Crypto) (quoted : Quoted) : Fixed 34 := tpmName crypto (akPublic (some
    (⟨quoted.ak.bytes.take 32, by simp⟩, ⟨quoted.ak.bytes.drop 32, by simp⟩)))

end Quoted

/-- What the messages of a session have shown. -/
structure Evidence where
  nonce : Fixed 32
  quote : Option (Except String Quoted)
  ekChunks : EkAssembler
  /-- The certified endorsement key, or why it is not. -/
  ek : Option (Except String (Fixed 32 × Fixed 32))
  /-- The secret of the challenge sent this session. -/
  credential : Option (Fixed 32)
  ekProven : Option (Except String Unit)
  /-- Outcome of everything but the endorsement proof. -/
  attestOk : Option Bool
  registers : Option Registers

/-- The evidence, the decision and the enrollment, with its file. -/
structure Attestor extends Evidence where
  enrolled : Option Enrollment
  /-- A first enrollment waiting for the endorsement proof. -/
  pendingEnrollment : Option Enrollment
  status : Status
  /-- The contents of the enrollment file. -/
  file : Option Text

/-- How a write of the enrollment file ends. -/
inductive WriteOutcome
  | written
  /-- An error, and what is in the file afterwards. -/
  | failed (contents : Option Text)

namespace Attestor

/-- Before the first request. -/
def new (enrolled : Option Enrollment) (file : Option Text) : Attestor where
  enrolled := enrolled
  nonce := replicate 32 0
  quote := none
  ekChunks := {}
  ek := none
  credential := none
  ekProven := none
  attestOk := none
  pendingEnrollment := none
  registers := none
  status := .pending
  file := file

variable (primitives : TpmCrypto) (config : Config) (attestor : Attestor)

/-- Begin a session with a nonce. -/
def request (nonce : Fixed 32) : Attestor :=
  { attestor with
    nonce := nonce
    status := .pending
    quote := none
    ekChunks := {}
    ek := none
    credential := none
    ekProven := none
    attestOk := none
    pendingEnrollment := none
    registers := none }

/-- The request for an attestation. -/
def requestMessage : Bytes :=
  let flags := if config.trust.isSome then proveEndorsement else 0
  encodeRequest attestor.nonce (if config.certify then flags ||| certifyFlag else flags)

/-- Whether tool, model and approval traffic may be served. -/
def serving : Bool :=
  if config.expect.isSome || config.tpmRequired then attestor.status = .trusted
  else attestor.status ≠ .rejected

/-- What this session attested, for a node certificate. -/
def attestedDigest (crypto : Crypto) (attestor : Attestor) : Fixed 32 :=
  crypto.sha256 (ascii "CDK-ATTESTED-v1" ++
    (match attestor.registers with
      | some registers => registers.toList.flatMap bytes
      | none => []) ++
    (match attestor.quote with
      | some (.ok quoted) => quoted.pcrs.toList.flatMap bytes
      | _ => []))

/-! ## Enrollment and the decision -/

/-- Write the enrollment file. -/
def enroll (seen : Enrollment) : WriteOutcome → Attestor × Bool
  | .written => ({ attestor with enrolled := some seen, file := some seen.render }, true)
  | .failed contents => ({ attestor with file := contents }, false)

/-- Whether the endorsement allows what the attestation allows; nothing while
the proof is awaited. -/
def endorsed (ok : Bool) : Option Bool :=
  if config.trust.isSome && ok then
    match attestor.ekProven with
    | some (.ok _) => some true
    | some (.error _) => some false
    | none => if attestor.credential.isSome then none else some false
  else some ok

/-- Carry out an enrollment that was put off, if everything else allows it. -/
def settle (ok : Bool) (outcome : WriteOutcome) : Attestor × Bool :=
  match attestor.pendingEnrollment with
  | none => (attestor, ok)
  | some seen =>
    let taken := { attestor with pendingEnrollment := none }
    if ok then taken.enroll seen outcome else (taken, false)

/-- Decide once the attestation and, where it is asked for, the endorsement
proof are in. -/
def finish (outcome : WriteOutcome) : Attestor :=
  if attestor.status ≠ .pending then attestor
  else
    match attestor.attestOk with
    | none => attestor
    | some ok =>
      match attestor.endorsed config ok with
      | none => attestor
      | some ok =>
        let settled := attestor.settle ok outcome
        { settled.1 with status := if settled.2 then .trusted else .rejected }

/-! ## Endorsement messages -/

/-- Check the endorsement key. -/
def checkEk (assembler : EkAssembler) : Except String (Fixed 32 × Fixed 32) :=
  match assembler.complete with
  | none => .error "incomplete"
  | some blob =>
    match config.trust with
    | none => .error "no trust store"
    | some trust =>
      match primitives.parseCertificate blob.cert with
      | none => .error "EK certificate is not valid X.509 DER"
      | some cert =>
        if cert.key ≠ .p256 ([4] ++ blob.x.bytes ++ blob.y.bytes) then
          .error "the EK certificate does not certify the TPM's endorsement key"
        else if cert.isCa || !cert.ekUsage then
          .error ("not an EK certificate (needs the TCG EK extended key usage " ++
            "2.23.133.8.1, and must not be a CA)")
        else
          match trust cert with
          | .error error => .error error
          | .ok _ => .ok (blob.x, blob.y)

/-- What is known of the endorsement key after a chunk was pushed. -/
def ekAfter : EkAssembler × Except String Unit → Option (Except String (Fixed 32 × Fixed 32))
  | (_, .error error) => some (.error error)
  | (chunks, .ok _) =>
    if chunks.complete.isSome then some (checkEk primitives config chunks) else none

/-- A chunk of the endorsement key. -/
def onEkChunk (message : Bytes) : Attestor :=
  if attestor.ek.isSome then attestor
  else
    let pushed := attestor.ekChunks.push message
    { attestor with ekChunks := pushed.1, ek := ekAfter primitives config pushed }

/-- Constant-time equality of two byte strings. -/
def ctEq (left right : Bytes) : Bool :=
  left.length = right.length &&
    (left.zip right).foldl (fun found pair => found ||| (pair.1 ^^^ pair.2)) 0 = 0

/-- Compare the answer with the secret. -/
def checkProof (message : Bytes) : Except String Unit :=
  match decodeProof message, attestor.credential with
  | some got, some want =>
    if ctEq got want.bytes then .ok ()
    else .error "the TPM did not recover the challenge secret"
  | _, _ => .error "unexpected or malformed endorsement proof"

/-- The answer to the challenge. -/
def onProof (message : Bytes) (outcome : WriteOutcome) : Attestor :=
  if attestor.ekProven.isSome then attestor
  else
    finish config { attestor with ekProven := some (attestor.checkProof message) } outcome

/-- An endorsement message. -/
def onEndorsement (message : Bytes) (outcome : WriteOutcome) : Attestor :=
  if config.trust.isNone then attestor
  else if message.head? = some ekChunkTag then attestor.onEkChunk primitives config message
  else if message.head? = some proofTag then attestor.onProof config message outcome
  else attestor

/-! ## Quotes -/

/-- A scalar of at most 32 bytes, with zeros in front. -/
def pad (bytes : Bytes) : Option (Fixed 32) :=
  if fits : bytes.length ≤ 32 then
    some ⟨List.replicate (32 - bytes.length) 0 ++ bytes, by simp; omega⟩
  else none

/-- Check a quote's signature. -/
def verifyQuoteSignature (quote : Link.Quote) : Bool :=
  match pad quote.sigR, pad quote.sigS with
  | some r, some s => primitives.ecdsaVerify quote.akX quote.akY r s quote.attest
  | _, _ => false

/-- Check a quote for the nonce. -/
def checkQuote (nonce : Fixed 32) (message : Bytes) : Except String Quoted :=
  match decodeQuote message with
  | none => .error "malformed TPM quote"
  | some quote =>
    if quote.nonce ≠ nonce then .error "TPM quote for a stale or wrong nonce"
    else
      match checkQuoteContents primitives.crypto quote with
      | .error error => .error error
      | .ok _ =>
        if verifyQuoteSignature primitives quote then
          .ok (.ofQuote quote)
        else .error "TPM quote signature does not verify"

/-- The challenge for an endorsement key and the attestation key of a quote. -/
def challenge (ek : Fixed 32 × Fixed 32) (quoted : Quoted)
    (secret ephemeral : Fixed 32) : Option Bytes :=
  (primitives.makeCredential ek.1 ek.2 (quoted.akName primitives.crypto) secret
    ephemeral).bind fun made => encodeChallenge made.1 made.2

/-- Challenge the endorsement key. -/
def ask (quoted : Quoted) (secret ephemeral : Fixed 32) : Attestor × Option Bytes :=
  match attestor.ek with
  | some (.ok ek) =>
    match challenge primitives ek quoted secret ephemeral with
    | some message => ({ attestor with credential := some secret }, some message)
    | none =>
      ({ attestor with
        ekProven := some (.error "could not build the credential challenge") }, none)
  | some (.error _) => (attestor, none)
  | none =>
    ({ attestor with
      ekProven := some (.error ("CDK sent no endorsement key and certificate " ++
        "(no EK certificate in its TPM?)")) }, none)

/-- A quote; the first one counts. -/
def onQuote (message : Bytes) (secret ephemeral : Fixed 32) : Attestor × Option Bytes :=
  if attestor.quote.isSome then (attestor, none)
  else
    let result := checkQuote primitives attestor.nonce message
    let stored := { attestor with quote := some result }
    if config.trust.isNone then (stored, none)
    else
      match result with
      | .ok quoted => stored.ask primitives quoted secret ephemeral
      | .error _ => (stored, none)

/-! ## The attestation -/

/-- What the TPM's side says of an attestation. -/
inductive Finding
  | refuse
  | accept
  /-- Enroll the machine after the endorsement proof. -/
  | defer (seen : Enrollment)
  /-- Enroll the machine now. -/
  | enroll (seen : Enrollment)

/-- The loader PCRs are the expected ones. -/
def loaderMatches (quoted : Quoted) : Bool :=
  match config.expectLoader with
  | none => true
  | some expected =>
    quoted.loaderPcrs.all (fun pcr => decide (pcr ≠ replicate 32 0)) &&
      decide (quoted.loaderPcrs = expected)

variable (registers : Registers)

/-- Compare the quote with the reported registers, the expected loader and the
enrolled machine. -/
def tpmFinding : Finding :=
  if config.tpmRequired = false then .accept
  else
    match attestor.quote with
    | none | some (.error _) => .refuse
    | some (.ok quoted) =>
      if quoted.cdkPcrs ≠ registers then .refuse
      else if loaderMatches config quoted = false then .refuse
      else if config.tpmFile = false then .accept
      else
        match attestor.enrolled with
        | some enrolled => if enrolled = quoted.seen then .accept else .refuse
        | none =>
          if config.trust.isSome then .defer quoted.seen else .enroll quoted.seen

/-- Check the TPM's side, enrolling the machine if nothing stands against it. -/
def checkTpm (outcome : WriteOutcome) : Attestor × Bool :=
  match attestor.tpmFinding config registers with
  | .refuse => (attestor, false)
  | .accept => (attestor, true)
  | .defer seen => ({ attestor with pendingEnrollment := some seen }, true)
  | .enroll seen => attestor.enroll seen outcome

def registersMatch : Bool :=
  match config.expect with
  | none => true
  | some expected => decide (expected = registers)

/-- Check the reported registers.  The TPM's side is checked, and a machine may
be enrolled, also where the registers are not the expected ones. -/
def judge (outcome : WriteOutcome) : Attestor :=
  let checked := attestor.checkTpm config registers outcome
  { checked.1 with
    registers := some registers
    attestOk := some (registersMatch config registers && checked.2) }

/-- An attestation; the first one counts. -/
def onMessage (message : Bytes) (outcome : WriteOutcome) : Attestor :=
  if attestor.attestOk.isSome ∨ attestor.status ≠ .pending then attestor
  else
    match decodeAttest message with
    | some (.attestation attestation) =>
      if attestation.nonce ≠ attestor.nonce then { attestor with status := .rejected }
      else finish config (attestor.judge config attestation.registers outcome) outcome
    | _ => attestor

/-! ## Calls -/

/-- A call in a session, with the randomness it draws and the outcome of a write
of the enrollment file, should there be one. -/
inductive Call
  | endorsement (message : Bytes) (outcome : WriteOutcome)
  | quote (message : Bytes) (secret ephemeral : Fixed 32)
  | message (message : Bytes) (outcome : WriteOutcome)

/-- One call. -/
def step : Call → Attestor
  | .endorsement message outcome => attestor.onEndorsement primitives config message outcome
  | .quote message secret ephemeral =>
    (attestor.onQuote primitives config message secret ephemeral).1
  | .message message outcome => attestor.onMessage config message outcome

/-! ## What a call can do -/

/-- The effects of the calls, with what has to be the case for each. -/
inductive Effect : Call → Attestor → Prop
  | ignored (call : Call) : Effect call attestor
  | chunk {message : Bytes} (outcome : WriteOutcome)
      (asked : config.trust.isSome) (tagged : message.head? = some ekChunkTag)
      (unset : attestor.ek = none) :
      Effect (.endorsement message outcome)
        { attestor with
          ekChunks := (attestor.ekChunks.push message).1
          ek := ekAfter primitives config (attestor.ekChunks.push message) }
  | proof {message : Bytes} (outcome : WriteOutcome)
      (asked : config.trust.isSome) (tagged : message.head? = some proofTag)
      (unset : attestor.ekProven = none) :
      Effect (.endorsement message outcome)
        (finish config { attestor with ekProven := some (attestor.checkProof message) } outcome)
  | quote {message : Bytes} {secret ephemeral : Fixed 32} (unset : attestor.quote = none) :
      Effect (.quote message secret ephemeral)
        { attestor with quote := some (checkQuote primitives attestor.nonce message) }
  | challenge {message text : Bytes} {secret ephemeral : Fixed 32} {quoted : Quoted}
      {ek : Fixed 32 × Fixed 32} (unset : attestor.quote = none)
      (passed : checkQuote primitives attestor.nonce message = .ok quoted)
      (certified : attestor.ek = some (.ok ek))
      (sent : challenge primitives ek quoted secret ephemeral = some text) :
      Effect (.quote message secret ephemeral)
        { attestor with quote := some (.ok quoted), credential := some secret }
  | unendorsed {message : Bytes} {secret ephemeral : Fixed 32} {quoted : Quoted}
      (unset : attestor.quote = none)
      (passed : checkQuote primitives attestor.nonce message = .ok quoted) (error : String) :
      Effect (.quote message secret ephemeral)
        { attestor with quote := some (.ok quoted), ekProven := some (.error error) }
  | stale {message : Bytes} {attestation : Attestation} (outcome : WriteOutcome)
      (unset : attestor.attestOk = none) (undecided : attestor.status = .pending)
      (decoded : decodeAttest message = some (.attestation attestation))
      (other : attestation.nonce ≠ attestor.nonce) :
      Effect (.message message outcome) { attestor with status := .rejected }
  | judged {message : Bytes} {attestation : Attestation} (outcome : WriteOutcome)
      (unset : attestor.attestOk = none) (undecided : attestor.status = .pending)
      (decoded : decodeAttest message = some (.attestation attestation))
      (fresh : attestation.nonce = attestor.nonce) :
      Effect (.message message outcome)
        (finish config (attestor.judge config attestation.registers outcome) outcome)

theorem effect_onEndorsement (message : Bytes) (outcome : WriteOutcome) :
    Effect primitives config attestor (.endorsement message outcome)
      (attestor.onEndorsement primitives config message outcome) := by
  unfold onEndorsement
  split
  · exact .ignored _
  rename_i asked
  have asked : config.trust.isSome := by
    simpa [Option.isSome_iff_ne_none] using asked
  split
  · rename_i tagged
    unfold onEkChunk
    split
    · exact .ignored _
    · rename_i absent
      exact .chunk outcome asked tagged (by simpa using absent)
  split
  · rename_i tagged
    unfold onProof
    split
    · exact .ignored _
    · rename_i absent
      exact .proof outcome asked tagged (by simpa using absent)
  · exact .ignored _

theorem effect_onQuote (message : Bytes) (secret ephemeral : Fixed 32) :
    Effect primitives config attestor (.quote message secret ephemeral)
      (attestor.onQuote primitives config message secret ephemeral).1 := by
  unfold onQuote
  split
  · exact .ignored _
  rename_i absent
  have absent : attestor.quote = none := by simpa using absent
  dsimp only
  split
  · exact .quote absent
  split
  · rename_i quoted passed
    unfold ask
    split
    · rename_i ek certified
      split
      · rename_i text sent
        rw [passed]
        exact .challenge absent passed certified sent
      · rw [passed]
        exact .unendorsed absent passed _
    · exact .quote absent
    · rw [passed]
      exact .unendorsed absent passed _
  · exact .quote absent

theorem effect_onMessage (message : Bytes) (outcome : WriteOutcome) :
    Effect primitives config attestor (.message message outcome)
      (attestor.onMessage config message outcome) := by
  unfold onMessage
  split
  · exact .ignored _
  rename_i undecided
  obtain ⟨absent, pending⟩ : attestor.attestOk = none ∧ attestor.status = .pending := by
    simpa using undecided
  split
  · rename_i attestation decoded
    split
    · rename_i other
      exact .stale outcome absent pending decoded other
    · rename_i fresh
      exact .judged outcome absent pending decoded (not_not.mp fresh)
  · exact .ignored _

theorem effect_step (call : Call) :
    Effect primitives config attestor call (attestor.step primitives config call) := by
  cases call with
  | endorsement message outcome => apply effect_onEndorsement
  | quote message secret ephemeral => apply effect_onQuote
  | message message outcome => apply effect_onMessage

end Attestor

end Cdk.Gateway

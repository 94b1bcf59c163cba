import Mathlib.Data.List.Induction
import Cdk.Gateway.Evidence

/-!
# What a trusted session has proven

`trusted_session_proven` goes back from an accepted session to the messages that
made it so: what a field of the evidence holds at the end was put there by one
call, and the state before that call names the calls before it.
-/

namespace Cdk.Gateway
namespace Attestor

open ByteFormat Link Run Fixed

/-! ## What the messages say -/

def Call.ekChunk? : Call → Option Bytes
  | .endorsement bytes _ =>
    if bytes.head? = some ekChunkTag then some bytes else none
  | _ => none

/-- The chunks of the endorsement key that arrived. -/
def ekChunksOf (calls : List Call) : List Bytes := calls.filterMap Call.ekChunk?

def collect (assembler : EkAssembler) (message : Bytes) : Option EkAssembler :=
  match assembler.push message with
  | (pushed, .ok _) => some pushed
  | (_, .error _) => none

def assemble (chunks : List Bytes) : Option EkAssembler := chunks.foldlM collect {}

/-- The chunks begin with an endorsement key and a certificate for it that leads
to a trusted manufacturer. -/
def Certified (primitives : TpmCrypto) (trust : TrustStore) (chunks : List Bytes)
    (ek : Fixed 32 × Fixed 32) : Prop :=
  ∃ received assembler blob cert path, received <+: chunks ∧ assemble received = some assembler ∧
      assembler.complete = some blob ∧
      ek = (blob.x, blob.y) ∧
      primitives.parseCertificate blob.cert = some cert ∧
      cert.key = .p256 ([4] ++ blob.x.bytes ++ blob.y.bytes) ∧
      cert.isCa = false ∧
      cert.ekUsage ∧
      trust cert = .ok path

/-- The message is a quote for the nonce whose contents and signature are valid. -/
def Verified (primitives : TpmCrypto) (nonce : Fixed 32) (message : Bytes)
    (quoted : Quoted) : Prop :=
  ∃ quote : Link.Quote, decodeQuote message = some quote ∧ quote.nonce = nonce ∧
      checkQuoteContents primitives.crypto quote = .ok () ∧
      verifyQuoteSignature primitives quote ∧
      quoted = .ofQuote quote

section Checks

variable {primitives : TpmCrypto} {config : Config} {attestor : Attestor}

theorem verified_of_checkQuote (passed : checkQuote primitives nonce message = .ok quoted) :
    Verified primitives nonce message quoted := by
  unfold checkQuote at passed
  split at passed
  · cases passed
  rename_i quote decoded
  split at passed
  · cases passed
  rename_i fresh
  split at passed
  · cases passed
  rename_i contents
  split at passed
  · rename_i signed
    cases passed
    exact ⟨quote, decoded, not_not.mp fresh, contents, signed, rfl⟩
  · cases passed

theorem certified_of_checkEk {received chunks : List Bytes} (asked : config.trust = some trust)
    (before : received <+: chunks) (assembled : assemble received = some assembler)
    (passed : checkEk primitives config assembler = .ok ek) :
    Certified primitives trust chunks ek := by
  unfold checkEk at passed
  rw [asked] at passed
  split at passed
  · cases passed
  rename_i blob complete
  dsimp only at passed
  split at passed
  · cases passed
  rename_i cert parsed
  split at passed
  · cases passed
  rename_i key
  split at passed
  · cases passed
  rename_i usage
  obtain ⟨ordinary, endorsing⟩ : cert.isCa = false ∧ cert.ekUsage := by
    simpa using usage
  split at passed
  · cases passed
  rename_i path led
  cases passed
  exact ⟨received, assembler, blob, cert, path, before, assembled, complete, rfl, parsed,
    not_not.mp key, ordinary, endorsing, led⟩

/-- Where a quote is required and nothing is refused, there is a verified quote
of the reported registers and of the expected loader, from the enrolled machine
or from one that is to be enrolled. -/
theorem tpmFinding_allows (required : config.tpmRequired)
    (allowed : attestor.tpmFinding config registers ≠ .refuse) :
    ∃ quoted, attestor.quote = some (.ok quoted) ∧ quoted.cdkPcrs = registers ∧
        loaderMatches config quoted ∧
        (config.tpmFile → (attestor.enrolled = some quoted.seen ∧
              attestor.tpmFinding config registers = .accept) ∨
            (attestor.enrolled = none ∧ (attestor.tpmFinding config registers = .defer quoted.seen ∨
                attestor.tpmFinding config registers = .enroll quoted.seen))) := by
  revert allowed
  rw [tpmFinding, if_neg (by simp [required])]
  split
  · exact fun allowed => absurd rfl allowed
  · exact fun allowed => absurd rfl allowed
  rename_i quoted present
  split
  · exact fun allowed => absurd rfl allowed
  rename_i same
  split
  · exact fun allowed => absurd rfl allowed
  rename_i loader
  intro allowed
  refine ⟨quoted, present, not_not.mp same, Bool.eq_true_of_not_eq_false loader, ?_⟩
  intro filed
  rw [if_neg (by simp [filed])] at allowed ⊢
  cases known : attestor.enrolled with
  | none =>
    refine .inr ⟨rfl, ?_⟩
    dsimp only
    split
    · exact .inl rfl
    · exact .inr rfl
  | some enrolled =>
    rw [known] at allowed
    dsimp only at allowed ⊢
    split at allowed
    · rename_i matching
      exact .inl ⟨congrArg some matching, if_pos matching⟩
    · exact absurd rfl allowed

end Checks

/-! ## The calls behind the fields -/

section History

variable (primitives : TpmCrypto) (config : Config)

def run (attestor : Attestor) (calls : List Call) : Attestor :=
  after (step primitives config) attestor calls

variable {primitives config}
variable {attestor before : Attestor} {calls : List Call} {nonce : Fixed 32}

theorem run_concat (attestor : Attestor) (calls : List Call) (call : Call) :
    run primitives config attestor (calls ++ [call]) =
      (run primitives config attestor calls).step primitives config call :=
  after_append attestor calls [call]

theorem run_append_cons (attestor : Attestor) (early late : List Call) (call : Call) :
    run primitives config attestor (early ++ call :: late) = run primitives config
        ((run primitives config attestor early).step primitives config call) late :=
  after_append attestor early (call :: late)

theorem run_nonce (attestor : Attestor) (calls : List Call) :
    (run primitives config attestor calls).nonce = attestor.nonce :=
  @always _ _ (step primitives config) (fun state => state.nonce = attestor.nonce)
    attestor calls rfl fun state call same =>
      (effect_step primitives config state call).nonce.trans same

theorem run_coherent (before : Attestor) (nonce : Fixed 32) (calls : List Call) :
    Coherent config before (run primitives config (before.request nonce) calls) :=
  always calls (Coherent.request before nonce) fun state call coherent =>
    (effect_step primitives config state call).coherent coherent

theorem exists_filling {field : Attestor → Option Value}
    (stays : ∀ {state next : Attestor} {call : Call}, Effect primitives config state call next →
        ∀ {value : Value}, field state = some value → field next = some value)
    (unset : field attestor = none)
    (filled : field (run primitives config attestor calls) = some value) :
    ∃ early call late, calls = early ++ call :: late ∧
        field (run primitives config attestor early) = none ∧
        field ((run primitives config attestor early).step primitives config call) = some value :=
  Run.exists_filling
    (fun state call _ present => stays (effect_step primitives config state call) present)
    unset filled

theorem Effect.ekChunks_stay (effect : Effect primitives config attestor call next)
    (other : call.ekChunk? = none) :
    next.ekChunks = attestor.ekChunks := by
  cases effect with
  | chunk _ _ tagged _ => simp [Call.ekChunk?, tagged] at other
  | _ => simp

variable {message : Bytes}

theorem ekChunk?_eq_some {call : Call} (chunk : call.ekChunk? = some message) :
    message.head? = some ekChunkTag ∧ ∃ outcome, call = .endorsement message outcome := by
  cases call with
  | endorsement bytes outcome =>
    simp only [Call.ekChunk?, Option.ite_none_right_eq_some, Option.some.injEq] at chunk
    obtain ⟨tagged, rfl⟩ := chunk
    exact ⟨tagged, outcome, rfl⟩
  | quote _ _ _ | message _ _ => cases chunk

theorem step_ekChunk (asked : config.trust.isSome)
    (tagged : message.head? = some ekChunkTag) (unset : attestor.ek = none)
    (outcome : WriteOutcome) :
    attestor.step primitives config (.endorsement message outcome) =
      { attestor with
        ekChunks := (attestor.ekChunks.push message).1
        ek := ekAfter primitives config (attestor.ekChunks.push message) } := by
  simp [step, onEndorsement, Option.isNone_eq_false_iff.mpr asked, tagged, onEkChunk, unset]

theorem collect_of_push (taken : (assembler.push message).2 = .ok ()) :
    collect assembler message = some (assembler.push message).1 := by
  unfold collect
  revert taken
  generalize assembler.push message = pushed
  intro taken
  obtain ⟨chunks, result⟩ := pushed
  subst taken
  rfl

theorem taken_of_ekAfter (undecided : ekAfter primitives config pushed = none) :
    pushed.2 = .ok () := by
  obtain ⟨chunks, result⟩ := pushed
  cases result with
  | error error => cases undecided
  | ok _ => rfl

theorem ekChunksOf_append (early late : List Call) :
    ekChunksOf (early ++ late) = ekChunksOf early ++ ekChunksOf late :=
  List.filterMap_append

theorem ekChunksOf_concat (calls : List Call) (call : Call) :
    ekChunksOf (calls ++ [call]) = ekChunksOf calls ++ call.ekChunk?.toList := by
  rw [ekChunksOf_append]
  cases chunk : call.ekChunk? <;> simp [ekChunksOf, chunk]

theorem assemble_concat (chunks : List Bytes) (message : Bytes) :
    assemble (chunks ++ [message]) = (assemble chunks).bind fun assembler =>
      collect assembler message := by
  simp [assemble, List.foldlM_append]

/-- While no endorsement key is decided on, the assembler holds all chunks. -/
theorem assemble_ekChunksOf (asked : config.trust.isSome)
    (undecided : (run primitives config (before.request nonce) calls).ek = none) :
    assemble (ekChunksOf calls) =
      some (run primitives config (before.request nonce) calls).ekChunks := by
  induction calls using List.reverseRecOn with
  | nil => rfl
  | append_singleton calls call ih =>
    rw [run_concat] at undecided ⊢
    revert ih undecided
    generalize run primitives config (before.request nonce) calls = state
    intro ih undecided
    have effect := effect_step primitives config state call
    have unset : state.ek = none := eq_none_of_stays effect.ek_stays undecided
    rw [ekChunksOf_concat]
    cases chunk : call.ekChunk? with
    | none =>
      rw [effect.ekChunks_stay chunk, Option.toList_none, List.append_nil]
      exact ih unset
    | some message =>
      rw [Option.toList_some, assemble_concat, ih unset, Option.bind_some]
      obtain ⟨tagged, outcome, rfl⟩ := ekChunk?_eq_some chunk
      rw [step_ekChunk asked tagged unset] at undecided ⊢
      exact collect_of_push (taken_of_ekAfter undecided)

/-- An accepted endorsement key was certified before. -/
theorem certified_of_run {ek : Fixed 32 × Fixed 32} (asked : config.trust = some trust)
    (found : (run primitives config (before.request nonce) calls).ek = some (.ok ek)) :
    Certified primitives trust (ekChunksOf calls) ek := by
  obtain ⟨early, call, late, rfl, unset, filled⟩ :=
    exists_filling (fun effect => effect.ek_stays) rfl found
  obtain ⟨message, outcome, rfl, tagged, taken, passed⟩ :=
    (effect_step primitives config _ call).ek_filled unset filled
  have received : ekChunksOf (early ++ [.endorsement message outcome]) =
      ekChunksOf early ++ [message] := by
    simp [ekChunksOf_concat, Call.ekChunk?, tagged]
  have assembled : assemble (ekChunksOf early ++ [message]) =
      some ((run primitives config (before.request nonce) early).ekChunks.push message).1 := by
    rw [assemble_concat, assemble_ekChunksOf (by simp [asked]) unset, Option.bind_some]
    exact collect_of_push taken
  refine certified_of_checkEk asked ⟨ekChunksOf late, ?_⟩ assembled passed
  rw [← received, ← ekChunksOf_append, List.append_assoc]
  rfl

/-! ## The machine of a session -/

/-- Since the attestation it is settled which machine a session stands for. -/
structure Bound (seen : Enrollment) (attestor : Attestor) : Prop where
  determined : attestor.attestOk ≠ none
  waiting : attestor.status = .pending → attestor.pendingEnrollment = some seen ∨
      (attestor.pendingEnrollment = none ∧ attestor.enrolled = some seen)
  settled : attestor.status = .trusted → attestor.enrolled = some seen

variable {seen : Enrollment}

theorem enrolled_of_settle (place : attestor.pendingEnrollment = some seen ∨
      (attestor.pendingEnrollment = none ∧ attestor.enrolled = some seen))
    (settled : (attestor.settle ok outcome).2) :
    (attestor.settle ok outcome).1.enrolled = some seen := by
  obtain rfl := settle_allows settled
  revert settled
  rcases place with put | ⟨none, enrolled⟩
  · cases outcome with
    | written | failed contents => simp [settle, put, enroll]
  · simp [settle, none, enrolled]

theorem Bound.finish (bound : Bound seen attestor) (outcome : WriteOutcome) :
    Bound seen (finish config attestor outcome) := by
  rcases finish_cases config attestor outcome with
    same | ⟨ok, allowed, pending, determined, endorsed, decided⟩
  · rw [same]
    exact bound
  · rw [decided]
    refine ⟨by simp [determined], ?_, ?_⟩
    · intro undecided
      dsimp only at undecided
      split at undecided <;> cases undecided
    · intro trusted
      apply enrolled_of_settle (bound.waiting pending)
      by_contra refused
      simp [refused] at trusted

theorem Effect.bound (effect : Effect primitives config attestor call next)
    (bound : Bound seen attestor) :
    Bound seen next := by
  cases effect with
  | proof outcome _ _ _ =>
    apply Bound.finish
    exact ⟨bound.determined, bound.waiting, bound.settled⟩
  | stale _ unset _ _ _ | judged _ unset _ _ _ => exact absurd unset bound.determined
  | _ => exact ⟨bound.determined, bound.waiting, bound.settled⟩

theorem judge_bound {quoted : Quoted} (pending : attestor.status = .pending)
    (idle : attestor.pendingEnrollment = none) (machine : (attestor.enrolled = some quoted.seen ∧
        attestor.tpmFinding config registers = .accept) ∨
      (attestor.enrolled = none ∧ (attestor.tpmFinding config registers = .defer quoted.seen ∨
          attestor.tpmFinding config registers = .enroll quoted.seen)))
    (allowed : (attestor.checkTpm config registers outcome).2) :
    Bound quoted.seen (attestor.judge config registers outcome) where
  determined := by simp
  settled := by simp [pending]
  waiting := by
    intro _
    revert allowed
    simp only [judge, checkTpm]
    rcases machine with ⟨enrolled, accept⟩ | ⟨-, defer | enroll⟩
    · simp [accept, idle, enrolled]
    · simp [defer]
    · rw [enroll]
      cases outcome with
      | written => simp [Attestor.enroll, idle]
      | failed contents => simp [Attestor.enroll]

/-! ## Accepted sessions -/

/-- The attestation of an accepted session, and what was known when it came. -/
theorem exists_attestation
    (trusted : (run primitives config (before.request nonce) calls).status = .trusted) :
    ∃ early message outcome late attestation, calls = early ++ .message message outcome :: late ∧
        decodeAttest message = some (.attestation attestation) ∧
        attestation.nonce = nonce ∧
        registersMatch config attestation.registers ∧
        (config.tpmRequired → ∃ quoted,
            (run primitives config (before.request nonce) early).quote = some (.ok quoted) ∧
              quoted.cdkPcrs = attestation.registers ∧
              loaderMatches config quoted ∧
              (config.tpmFile →
                (run primitives config (before.request nonce) calls).enrolled = some quoted.seen ∧
                  (before.enrolled = some quoted.seen ∨ before.enrolled = none))) := by
  obtain ⟨passed, -⟩ := (run_coherent before nonce calls).accepted trusted
  obtain ⟨early, call, late, rfl, unset, filled⟩ :=
    exists_filling (fun effect => effect.attestOk_stays) rfl passed
  obtain ⟨message, outcome, attestation, rfl, pending, decoded, fresh, judged, ok⟩ :=
    (effect_step primitives config _ call).attestOk_filled unset filled
  rw [eq_comm, Bool.and_eq_true] at ok
  refine ⟨early, message, outcome, late, attestation, rfl, decoded,
    fresh.trans (run_nonce _ early), ok.1, ?_⟩
  intro required
  obtain ⟨enrolled, -, idle⟩ := (run_coherent before nonce early).untouched unset
  have allowed : (run primitives config (before.request nonce) early).tpmFinding config
      attestation.registers ≠ .refuse := by
    intro refused
    simp [checkTpm, refused] at ok
  obtain ⟨quoted, present, same, loader, machine⟩ := tpmFinding_allows required allowed
  refine ⟨quoted, present, same, loader, fun filed => ⟨?_, ?_⟩⟩
  · have bound : Bound quoted.seen (run primitives config (before.request nonce)
          (early ++ .message message outcome :: late)) := by
      rw [run_append_cons, judged]
      exact always late (Bound.finish (judge_bound pending idle (machine filed) ok.2) outcome)
        fun state call bound => (effect_step primitives config state call).bound bound
    exact bound.settled trusted
  · rcases machine filed with ⟨known, -⟩ | ⟨unknown, -⟩
    · exact .inl (enrolled.symm.trans known)
    · exact .inr (enrolled.symm.trans unknown)

theorem exists_quote {quoted : Quoted}
    (present : (run primitives config (before.request nonce) calls).quote = some (.ok quoted)) :
    ∃ first message secret ephemeral middle,
      calls = first ++ .quote message secret ephemeral :: middle ∧
        (run primitives config (before.request nonce) first).quote = none ∧
        ((run primitives config (before.request nonce) first).step primitives config
          (.quote message secret ephemeral)).quote = some (.ok quoted) ∧
        checkQuote primitives nonce message = .ok quoted := by
  obtain ⟨first, call, middle, rfl, unset, filled⟩ :=
    exists_filling (fun effect => effect.quote_stays) rfl present
  obtain ⟨message, secret, ephemeral, rfl, passed⟩ :=
    (effect_step primitives config _ call).quote_filled unset filled
  rw [run_nonce] at passed
  exact ⟨first, message, secret, ephemeral, middle, rfl, unset, filled, passed⟩

/-- Once a quote is in, the secret of the challenge stays. -/
theorem run_credential (quoted : attestor.quote.isSome) (calls : List Call) :
    (run primitives config attestor calls).credential = attestor.credential := by
  obtain ⟨found, present⟩ := Option.isSome_iff_exists.mp quoted
  have kept := @always _ _ (step primitives config)
    (fun state => state.quote = some found ∧ state.credential = attestor.credential)
    attestor calls ⟨present, rfl⟩ fun state call held =>
      have effect := effect_step primitives config state call
      ⟨effect.quote_stays held.1, (effect.credential_stays (by simp [held.1])).trans held.2⟩
  exact kept.2

/-- The endorsement of an accepted session: the key had been certified before the
quote that was taken, and the secret of the challenge came back after it. -/
theorem exists_endorsement (asked : config.trust = some trust)
    (unset : (run primitives config (before.request nonce) first).quote = none)
    (filled : ((run primitives config (before.request nonce) first).step primitives config
      (.quote message secret ephemeral)).quote = some (.ok quoted))
    (passed : checkQuote primitives nonce message = .ok quoted)
    (trusted : (run primitives config (before.request nonce)
      (first ++ .quote message secret ephemeral :: rest)).status = .trusted) :
    ∃ ek text, Certified primitives trust (ekChunksOf first) ek ∧
        challenge primitives ek quoted secret ephemeral = some text ∧
        ∃ proof outcome,
          .endorsement proof outcome ∈ rest ∧ decodeProof proof = some secret.bytes := by
  obtain ⟨-, proven⟩ := (run_coherent before nonce _).accepted trusted
  have proven := proven (by simp [asked])
  rw [run_append_cons] at proven
  have coherent : Coherent config before
      (run primitives config (before.request nonce) first) := run_coherent before nonce first
  have effect := effect_step primitives config
    (run primitives config (before.request nonce) first) (.quote message secret ephemeral)
  revert proven filled effect
  generalize (run primitives config (before.request nonce) first).step primitives config
    (.quote message secret ephemeral) = asking
  intro filled proven effect
  -- the quote itself proves nothing, so the proof came later
  have unproven : asking.ekProven ≠ some (.ok ()) := by
    intro early
    obtain ⟨_, _, _, call, _⟩ := effect.ekProven_accepted (coherent.unproven unset) early
    cases call
  obtain ⟨between, call, late, rfl, before', after'⟩ :=
    @exists_turn _ _ (step primitives config)
      (fun state => state.ekProven = some (.ok ())) asking rest unproven proven
  obtain ⟨proof, outcome, found, rfl, sent, decoded⟩ :=
    (effect_step primitives config _ call).ekProven_accepted before' after'
  have kept : asking.credential = some found :=
    (run_credential (by simp [filled]) between).symm.trans sent
  obtain ⟨rfl, quoted', ek, text, passed', certified, challenged⟩ :=
    effect.credential_filled (coherent.credential unset) kept
  rw [run_nonce] at passed'
  obtain rfl : quoted = quoted' := Except.ok.inj (passed.symm.trans passed')
  exact ⟨ek, text, certified_of_run asked certified, challenged, proof, outcome, by simp, decoded⟩

end History

/-- A session that is trusted has been proven, whatever the attestor was before
the request and whatever calls came since: the attestation, and with the options
that ask for them the quote, the machine and the endorsement. -/
theorem trusted_session_proven
    (primitives : TpmCrypto)
    (config : Config)
    (before : Attestor)
    (nonce : Fixed 32)
    (calls : List Call)
    (trusted : (run primitives config (before.request nonce) calls).status = .trusted) :
    ∃ early message outcome late attestation, calls = early ++ .message message outcome :: late ∧
        decodeAttest message = some (.attestation attestation) ∧
        attestation.nonce = nonce ∧
        (∀ expected, config.expect = some expected → attestation.registers = expected) ∧
        (config.tpmRequired → ∃ first quote secret ephemeral middle quoted,
            early = first ++ .quote quote secret ephemeral :: middle ∧
              Verified primitives nonce quote quoted ∧
              quoted.cdkPcrs = attestation.registers ∧
              (config.tpmFile →
                (run primitives config (before.request nonce) calls).enrolled = some quoted.seen ∧
                  (before.enrolled = some quoted.seen ∨ before.enrolled = none)) ∧
              (∀ trust, config.trust = some trust → ∃ ek text,
                  Certified primitives trust (ekChunksOf first) ek ∧
                    challenge primitives ek quoted secret ephemeral = some text ∧
                    ∃ proof outcome', .endorsement proof outcome' ∈
                          middle ++ .message message outcome :: late ∧
                        decodeProof proof = some secret.bytes)) := by
  obtain ⟨early, message, outcome, late, attestation, rfl, decoded, fresh, matching,
    required⟩ := exists_attestation trusted
  refine ⟨early, message, outcome, late, attestation, rfl, decoded, fresh, ?_, ?_⟩
  · intro expected set
    simpa [registersMatch, set, eq_comm] using matching
  intro asked
  obtain ⟨quoted, present, same, -, machine⟩ := required asked
  obtain ⟨first, quote, secret, ephemeral, middle, rfl, unset, filled, passed⟩ :=
    exists_quote present
  refine ⟨first, quote, secret, ephemeral, middle, quoted, rfl,
    verified_of_checkQuote passed, same, machine, ?_⟩
  intro trust set
  rw [List.append_assoc, List.cons_append] at trusted
  exact exists_endorsement set unset filled passed trusted

/-! ## A session that proves everything -/

def samplePoint : Fixed 32 := replicate 32 7

def sampleCert : Certificate where
  der := []
  tbs := (0, 0)
  sigAlg := []
  signature := []
  issuer := []
  subject := []
  key := .p256 ([4] ++ samplePoint.bytes ++ samplePoint.bytes)
  isCa := false
  ekUsage := true

/-- Signatures taken as given, and secrets sent in the clear. -/
def sampleTpm : TpmCrypto where
  crypto := sampleCrypto
  ecdsaVerify _ _ _ _ _ := true
  parseCertificate _ := some sampleCert
  makeCredential _ _ _ secret _ := some (secret.bytes, [])

def sampleNonce : Fixed 32 := replicate 32 9

def sampleValue : Fixed 32 := replicate 32 3

/-- Everything is asked for. -/
def strictConfig : Config where
  expect := some (Vector.replicate 3 sampleValue)
  expectLoader := some (Vector.replicate 2 sampleValue)
  tpmFile := true
  trust := some fun _ => .ok []
  certify := false

def sampleAttestation : Bytes := encodeAttestation
    ⟨sampleNonce, .verified, replicate 16 1, Vector.replicate 3 sampleValue, []⟩

def sampleQuote : Bytes :=
  let bare : Link.Quote :=
    ⟨sampleNonce, samplePoint, samplePoint, Vector.replicate 13 sampleValue, [], [], []⟩
  { bare with
    attest := quoteAttest [] (replicate 17 0) (replicate 8 0) (bare.info sampleCrypto) }.bytes

def strictCalls : List Call := [.endorsement
      (ekChunkTag :: (le16 64 ++ le16 0 ++ samplePoint.bytes ++ samplePoint.bytes)) .written,
    .quote sampleQuote sampleNonce sampleNonce,
    .message sampleAttestation .written,
    .endorsement (proofTag :: 32 :: sampleNonce.bytes) .written]

/-- A machine is enrolled and its session trusted, with everything asked for. -/
theorem trusted_session_proven_strict :
    (run sampleTpm strictConfig ((new none none).request sampleNonce) strictCalls).status =
        .trusted ∧
      ∃ early message outcome late attestation,
        strictCalls = early ++ .message message outcome :: late ∧
          decodeAttest message = some (.attestation attestation) ∧
          attestation.nonce = sampleNonce := by
  have trusted : (run sampleTpm strictConfig ((new none none).request sampleNonce)
      strictCalls).status = .trusted := by decide +kernel
  obtain ⟨early, message, outcome, late, attestation, split, decoded, fresh, -⟩ :=
    trusted_session_proven sampleTpm strictConfig (new none none) sampleNonce strictCalls trusted
  exact ⟨trusted, early, message, outcome, late, attestation, split, decoded, fresh⟩

end Attestor
end Cdk.Gateway

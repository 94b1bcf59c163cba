import Cdk.Gateway.Certify
import Cdk.Gateway.Finality
import Cdk.Link.Agreement
import Cdk.Link.Senders

/-!
# The gateway's main loop

One frame after the other the gateway answers handshakes, opens sealed messages
and hands them to the attestor, and certifies the kernel once its attestation
is accepted.  `attestation_final` puts together what is final about the
decision of a session and what a node certificate stands for.
-/

namespace Cdk.Gateway

open ByteFormat Link Attestor Run

/-- What the gateway is started with. -/
structure Startup where
  link : Primitives
  aead : Aead
  tpm : TpmCrypto
  config : Config
  registry : Option Registry
  me : Identity
  sign : Fixed 32 → Signature

/-- The state of the main loop. -/
structure Loop where
  reassembler : Reassembler
  /-- What is kept while the client's last handshake message is awaited. -/
  handshake : Option ServerState
  session : Option Session
  /-- The issuer that the kernel announced. -/
  announced : Option Text
  attestor : Attestor
  peerIdentity : Option Identity
  certified : Bool

/-- A frame, with what the gateway draws, reads, writes and answers on it. -/
structure Arrival where
  kind : FrameKind
  flags : UInt8
  payload : Bytes
  random : ServerRandom
  nonce : Fixed 32
  secret : Fixed 32
  ephemeral : Fixed 32
  outcome : WriteOutcome
  revoked : Option Text
  serial : UInt64
  now : UInt64
  /-- What other traffic is answered with. -/
  replies : List Bytes

/-- The loop after a frame, and what the frame has led to. -/
structure Turn where
  loop : Loop
  /-- The identity of a session that begins. -/
  established : Option Identity := none
  /-- The certificate that is sent. -/
  issued : Option NodeCert := none

/-- The client must sign correctly, and be the issuer that the kernel
announced. -/
def Startup.trust (startup : Startup) (announced : Option Text) : Trust :=
  fun identity digest signature =>
    verifyWith startup.link.crypto identity digest signature protocol &&
      match announced with
      | none => true
      | some expected =>
        decide (expected = hex ((identity.id startup.link.crypto).bytes.take 8))

namespace Loop

/-- Before the first frame. -/
def start (attestor : Attestor) : Loop where
  reassembler := .new
  handshake := none
  session := none
  announced := none
  attestor := attestor
  peerIdentity := none
  certified := false

section Turns

variable (startup : Startup)

variable (loop : Loop)

/-- Seal messages and send them.  A message that cannot be sealed ends the
program; here the loop goes on, with runs that the program does not have. -/
def send (messages : List Bytes) : Loop :=
  { loop with
    session := loop.session.map fun session =>
      messages.foldl (fun session message => (session.seal startup.aead message maxPayload).1)
        session }

variable (arrival : Arrival)

/-- The certificate to issue now. -/
def dueCertificate : Option NodeCert :=
  match startup.registry, loop.peerIdentity with
  | some registry, some client =>
    if loop.certified || loop.attestor.status ≠ .trusted then none
    else
      some (registry.certify startup.link.crypto client
        (loop.attestor.attestedDigest startup.link.crypto) arrival.serial arrival.now)
  | _, _ => none

/-- Issue a certificate if it is due. -/
def certifyNow : Turn :=
  let messages := certify startup.link.crypto startup.registry
    (loop.attestor.status = .trusted) loop.peerIdentity loop.certified arrival.revoked
    (loop.attestor.attestedDigest startup.link.crypto) arrival.serial arrival.now
  { loop := { loop.send startup messages.1 with certified := messages.2 }
    issued := loop.dueCertificate startup arrival }

/-- A handshake message. -/
def onHandshake (message : Bytes) (arrival : Arrival) : Turn :=
  let hello : Turn :=
    { loop :=
        { loop with
          session := none
          handshake :=
            match serverRespond startup.link message arrival.random startup.me startup.sign with
            | .ok (state, _) => some state
            | .error _ => none } }
  match loop.handshake with
  | none => hello
  | some state =>
    if message.length ≠ cfLen then hello
    else
      match serverFinish startup.link state message (startup.trust loop.announced) with
      | .error _ => { loop := { loop with handshake := none } }
      | .ok (session, client) =>
        let attestor := loop.attestor.request arrival.nonce
        { loop :=
            send startup
              { loop with
                handshake := none
                peerIdentity := some client
                certified := false
                session := some session
                attestor := attestor }
              [attestor.requestMessage startup.config]
          established := some client }

/-- A message by its kind. -/
def dispatch (message : Bytes) (arrival : Arrival) : Turn :=
  if isQuote message then
    let asked := loop.attestor.onQuote startup.tpm startup.config message arrival.secret
      arrival.ephemeral
    { loop := send startup { loop with attestor := asked.1 } asked.2.toList }
  else if isEndorsement message then
    certifyNow startup
      { loop with
        attestor := loop.attestor.onEndorsement startup.tpm startup.config message arrival.outcome }
      arrival
  else if isAttest message then
    certifyNow startup
      { loop with attestor := loop.attestor.onMessage startup.config message arrival.outcome }
      arrival
  else { loop := loop.send startup arrival.replies }

/-- The issuer that is announced. -/
def announcement (payload : Bytes) : Option Text :=
  match fromUtf8 payload with
  | none => none
  | some text =>
    if "cdk issuer=".toList <+: text then some (text.drop 11) else none

/-- One frame. -/
def turn : Turn :=
  match arrival.kind with
  | .hello => { loop := { loop with announced := announcement arrival.payload } }
  | .handshake =>
    match loop.reassembler.push arrival.flags arrival.payload with
    | (reassembler, .ok (some message)) =>
      onHandshake startup { loop with reassembler := reassembler } message arrival
    | (reassembler, _) => { loop := { loop with reassembler := reassembler } }
  | .sealed =>
    match loop.session with
    | none => { loop := loop }
    | some session =>
      match session.open startup.aead arrival.payload maxPayload with
      | (_, .error _) => { loop := loop }
      | (opened, .ok message) =>
        dispatch startup { loop with session := some opened } message arrival
  | _ => { loop := loop }

def step : Loop := (loop.turn startup arrival).loop

/-- What is sent for a certification is the revocations and the certificate that
is due, and it is remembered. -/
theorem certify_eq_dueCertificate :
    certify startup.link.crypto startup.registry (loop.attestor.status = .trusted)
        loop.peerIdentity loop.certified arrival.revoked
        (loop.attestor.attestedDigest startup.link.crypto) arrival.serial arrival.now =
      match loop.dueCertificate startup arrival with
      | none => ([], loop.certified)
      | some cert =>
        ((encodeBlob BlobKind.revocations.byte
            (encodeRevocations (revocations arrival.revoked))).getD [] ++
          (encodeBlob BlobKind.nodeCert.byte cert.encode).getD [], true) := by
  unfold certify dueCertificate
  cases startup.registry with
  | none => rfl
  | some registry =>
    cases loop.peerIdentity with
    | none => rfl
    | some client =>
      dsimp only
      by_cases refused : loop.certified || loop.attestor.status ≠ .trusted
      · rw [if_pos refused, if_pos (by simpa using refused)]
      · rw [if_neg refused, if_neg (by simpa using refused)]

/-- What a frame can lead to for the attestation and the certificate. -/
inductive Leads : Turn → Prop
  | unrelated {next : Loop}
      (attestor : next.attestor = loop.attestor) (peer : next.peerIdentity = loop.peerIdentity)
      (certified : next.certified = loop.certified) :
      Leads { loop := next }
  | established {next : Loop} {client : Identity}
      (attestor : next.attestor = loop.attestor.request arrival.nonce)
      (peer : next.peerIdentity = some client) (certified : next.certified = false) :
      Leads { loop := next, established := some client }
  /-- A message for the attestor, without a certificate. -/
  | call {next : Loop}
      (call : Call) (attestor : next.attestor = loop.attestor.step startup.tpm startup.config call)
      (peer : next.peerIdentity = loop.peerIdentity) (certified : next.certified = loop.certified) :
      Leads { loop := next }
  /-- A message for the attestor, and a certificate. -/
  | certificate {next : Loop} {registry : Registry} {client : Identity}
      (call : Call) (attestor : next.attestor = loop.attestor.step startup.tpm startup.config call)
      (trusted : next.attestor.status = .trusted) (peer : next.peerIdentity = loop.peerIdentity)
      (known : loop.peerIdentity = some client) (first : loop.certified = false)
      (certified : next.certified) :
      Leads
        { loop := next
          issued := some (registry.certify startup.link.crypto client
            (next.attestor.attestedDigest startup.link.crypto) arrival.serial arrival.now) }

variable {startup loop arrival}

theorem dueCertificate_eq_some (due : loop.dueCertificate startup arrival = some cert) :
    ∃ (registry : Registry) (client : Identity), loop.peerIdentity = some client ∧
        loop.certified = false ∧ loop.attestor.status = .trusted ∧
        cert = registry.certify startup.link.crypto client
          (loop.attestor.attestedDigest startup.link.crypto) arrival.serial arrival.now := by
  unfold dueCertificate at due
  split at due
  · rename_i registry client _ known
    split at due
    · cases due
    · rename_i allowed
      obtain ⟨first, trusted⟩ : loop.certified = false ∧ loop.attestor.status = .trusted := by
        simpa using allowed
      exact ⟨registry, client, known, first, trusted, (Option.some.inj due).symm⟩
  · cases due

theorem leads_certifyNow {called : Loop} (call : Call)
    (attestor : called.attestor = loop.attestor.step startup.tpm startup.config call)
    (peer : called.peerIdentity = loop.peerIdentity)
    (certified : called.certified = loop.certified) :
    Leads startup loop arrival (called.certifyNow startup arrival) := by
  unfold certifyNow
  rw [certify_eq_dueCertificate]
  cases due : called.dueCertificate startup arrival with
  | none => exact .call call attestor peer certified
  | some cert =>
    obtain ⟨registry, client, known, first, trusted, rfl⟩ := dueCertificate_eq_some due
    exact .certificate call attestor trusted peer (peer.symm.trans known)
      (certified.symm.trans first) rfl

theorem leads_dispatch {opened : Loop} (attestor : opened.attestor = loop.attestor)
    (peer : opened.peerIdentity = loop.peerIdentity) (certified : opened.certified = loop.certified)
    (message : Bytes) : Leads startup loop arrival (opened.dispatch startup message arrival) := by
  unfold dispatch
  rw [attestor]
  split
  · exact .call (.quote message arrival.secret arrival.ephemeral) rfl peer certified
  split
  · exact leads_certifyNow (.endorsement message arrival.outcome) rfl peer certified
  split
  · exact leads_certifyNow (.message message arrival.outcome) rfl peer certified
  · exact .unrelated attestor peer certified

theorem leads_onHandshake {received : Loop} (attestor : received.attestor = loop.attestor)
    (peer : received.peerIdentity = loop.peerIdentity)
    (certified : received.certified = loop.certified) (message : Bytes) :
    Leads startup loop arrival (received.onHandshake startup message arrival) := by
  unfold onHandshake
  dsimp only
  split
  · exact .unrelated attestor peer certified
  split
  · exact .unrelated attestor peer certified
  split
  · exact .unrelated attestor peer certified
  · exact .established (by rw [← attestor]; rfl) rfl rfl

theorem leads_turn (startup : Startup) (loop : Loop) (arrival : Arrival) :
    Leads startup loop arrival (loop.turn startup arrival) := by
  unfold turn
  split
  · exact .unrelated rfl rfl rfl
  · split
    · apply leads_onHandshake <;> rfl
    · exact .unrelated rfl rfl rfl
  · split
    · exact .unrelated rfl rfl rfl
    · split
      · exact .unrelated rfl rfl rfl
      · apply leads_dispatch <;> rfl
  · exact .unrelated rfl rfl rfl

end Turns

/-! ## Sessions -/

section Sessions

variable {startup : Startup}

/-- No session begins. -/
def Continues (startup : Startup) (loop : Loop) (arrival : Arrival) : Prop :=
  (loop.turn startup arrival).established = none

/-- No session begins and no certificate is issued. -/
def Uncertified (startup : Startup) (loop : Loop) (arrival : Arrival) : Prop :=
  (loop.turn startup arrival).established = none ∧ (loop.turn startup arrival).issued = none

variable {arrival : Arrival}

theorem attestor_step (continues : Continues startup loop arrival) :
    (loop.step startup arrival).attestor = loop.attestor ∨ ∃ call,
        (loop.step startup arrival).attestor =
          loop.attestor.step startup.tpm startup.config call := by
  have leads := leads_turn startup loop arrival
  unfold Continues at continues
  unfold step
  revert leads continues
  generalize loop.turn startup arrival = turn
  intro continues leads
  cases leads with
  | unrelated attestor _ _ => exact .inl attestor
  | established _ _ _ => cases continues
  | call call attestor _ _ | certificate call attestor _ _ _ _ _ => exact .inr ⟨call, attestor⟩

variable {arrivals : List Arrival}

/-- While a session lasts, a decision about it stays. -/
theorem status_stays (decided : loop.attestor.status ≠ .pending)
    (continues : Run.Along (step startup) (Continues startup) loop arrivals) :
    (after (step startup) loop arrivals).attestor.status = loop.attestor.status := by
  refine @invariant _ _ _ _
    (fun state => state.attestor.status = loop.attestor.status) _ _ rfl ?_ continues
  intro state arrival same continues
  rcases attestor_step continues with rests | ⟨call, called⟩
  · rw [rests, same]
  · have stays := (effect_step startup.tpm startup.config state.attestor call).decided_stays
      (by rw [same]; exact decided)
    rw [called, stays.1, same]

/-- The session of a client began with one frame, and no certificate was issued
since then unless one is remembered. -/
def Began (startup : Startup) (attestor : Attestor) (arrivals : List Arrival)
    (client : Identity) (certified : Bool) : Prop :=
  ∃ first began middle, arrivals = first ++ began :: middle ∧
      ((after (step startup) (start attestor) first).turn startup began).established = some client ∧
      (certified = false → Run.Along (step startup) (Uncertified startup)
          (after (step startup) (start attestor) (first ++ [began])) middle)

theorem Began.concat {attestor : Attestor} {certified : Bool}
    (session : Began startup attestor arrivals client certified)
    (uncertified : Uncertified startup (after (step startup) (start attestor) arrivals)
      arrival) : Began startup attestor (arrivals ++ [arrival]) client certified := by
  obtain ⟨first, began, middle, rfl, established, since⟩ := session
  refine ⟨first, began, middle ++ [arrival], by simp, established, fun fresh => ?_⟩
  rw [along_append]
  refine ⟨since fresh, ?_, trivial⟩
  rwa [← after_append, List.append_assoc]

theorem began_of_peerIdentity (attestor : Attestor)
    (known : (after (step startup) (start attestor) arrivals).peerIdentity = some client) :
    Began startup attestor arrivals client
      (after (step startup) (start attestor) arrivals).certified := by
  induction arrivals using List.reverseRecOn with
  | nil => cases known
  | append_singleton arrivals arrival ih =>
    have last : after (step startup) (start attestor) (arrivals ++ [arrival]) =
        ((after (step startup) (start attestor) arrivals).turn startup arrival).loop :=
      after_append _ arrivals [arrival]
    have leads := leads_turn startup (after (step startup) (start attestor) arrivals) arrival
    rw [last] at known ⊢
    generalize turned :
      (after (step startup) (start attestor) arrivals).turn startup arrival = turn
      at known leads ⊢
    cases leads with
    | established _ peer _ =>
      obtain rfl := Option.some.inj (peer.symm.trans known)
      exact ⟨arrivals, arrival, [], rfl, by rw [turned], fun _ => trivial⟩
    | unrelated _ peer certified | call _ _ peer certified =>
      rw [certified]
      exact (ih (peer.symm.trans known)).concat ⟨by rw [turned], by rw [turned]⟩
    | certificate _ _ _ peer _ _ certified =>
      obtain ⟨first, began, middle, split, established, -⟩ := ih (peer.symm.trans known)
      refine ⟨first, began, middle ++ [arrival], by simp [split], established, ?_⟩
      rw [certified]
      exact fun fresh => absurd fresh (by decide)

theorem issued_turn {loop : Loop} (issued : (loop.turn startup arrival).issued = some cert) :
    (loop.step startup arrival).attestor.status = .trusted ∧ loop.peerIdentity = some cert.issuer ∧
      loop.certified = false := by
  have leads := leads_turn startup loop arrival
  unfold step
  generalize loop.turn startup arrival = turn at issued leads ⊢
  cases leads with
  | unrelated _ _ _ | established _ _ _ | call _ _ _ _ => cases issued
  | certificate _ _ trusted _ known first _ =>
    obtain rfl := Option.some.inj issued
    exact ⟨trusted, known, first⟩

end Sessions

end Loop

/-- The decision of a session is final: once made, it stays until the next
request, in the attestor and in the loop, and only the first quote, the first
complete endorsement key and the first proof have a part in it.  A node
certificate is issued while the session is trusted, for the identity with which
its handshake ended, and at most once. -/
theorem attestation_final
    (startup : Startup) :
    (∀ (attestor : Attestor) (calls : List Call), attestor.status ≠ .pending →
          (run startup.tpm startup.config attestor calls).status = attestor.status) ∧
      (∀ (loop : Loop) (arrivals : List Arrival), loop.attestor.status ≠ .pending →
          Run.Along (Loop.step startup) (Loop.Continues startup) loop arrivals →
            (after (Loop.step startup) loop arrivals).attestor.status = loop.attestor.status) ∧
      (∀ (before : Attestor) (nonce : Fixed 32) (early : List Call)
          (call : Call) (late : List Call), Superseded early call →
          run startup.tpm startup.config (before.request nonce) (early ++ call :: late) =
            run startup.tpm startup.config (before.request nonce) (early ++ late)) ∧
      ∀ (attestor : Attestor) (arrivals : List Arrival) (arrival : Arrival) (cert : NodeCert),
        ((after (Loop.step startup) (.start attestor) arrivals).turn startup
            arrival).issued = some cert →
          ((after (Loop.step startup) (.start attestor) arrivals).step startup
              arrival).attestor.status = .trusted ∧
            ∃ first began middle, arrivals = first ++ began :: middle ∧
                ((after (Loop.step startup) (.start attestor) first).turn startup
                  began).established = some cert.issuer ∧
                Run.Along (Loop.step startup) (Loop.Uncertified startup)
                  (after (Loop.step startup) (.start attestor) (first ++ [began])) middle := by
  refine ⟨?_, ?_, ?_, ?_⟩
  · intro attestor calls decided
    exact (run_of_decided decided calls).1
  · intro loop arrivals decided continues
    exact Loop.status_stays decided continues
  · intro before nonce early call late superseded
    exact run_superseded superseded late
  intro attestor arrivals arrival cert issued
  obtain ⟨trusted, known, first⟩ := Loop.issued_turn issued
  obtain ⟨before, began, middle, split, established, since⟩ :=
    Loop.began_of_peerIdentity attestor known
  exact ⟨trusted, before, began, middle, split, established, since first⟩

/-! ## A certified session -/

def sampleStartup : Startup where
  link := toyPrimitives
  aead := sampleAead
  tpm := sampleTpm
  config :=
    { expect := none, expectLoader := none, tpmFile := false, trust := none, certify := true }
  registry := some sampleRegistry
  me := toyServer
  sign := toyParties.sign toyServer

def sampleArrival (kind : FrameKind) (flags : UInt8) (payload : Bytes) : Arrival where
  kind := kind
  flags := flags
  payload := payload
  random := toyResponse.random
  nonce := sampleNonce
  secret := sampleNonce
  ephemeral := sampleNonce
  outcome := .written
  revoked := none
  serial := 1
  now := 1000
  replies := []

def handshakeArrivals (message : Bytes) : List Arrival :=
  (forEachFragment message).map fun fragment =>
    sampleArrival .handshake fragment.1 fragment.2

def sampleArrivals : List Arrival :=
  handshakeArrivals toyResponse.ch ++ handshakeArrivals toyClientRun.cf

def sealedAttestation : Arrival := sampleArrival .sealed 0
    (match (toyClientRun.session.seal sampleAead sampleAttestation maxPayload).2 with
      | .ok bytes => bytes
      | .error _ => [])

/-- After the handshake and the attestation the client gets its certificate; and a
second quote would not matter. -/
theorem attestation_final_sample :
    ((after (Loop.step sampleStartup) (.start (.new none none)) sampleArrivals).turn
        sampleStartup sealedAttestation).issued.isSome ∧
      ((after (Loop.step sampleStartup) (.start (.new none none)) sampleArrivals).step
        sampleStartup sealedAttestation).attestor.status = .trusted ∧
      run sampleStartup.tpm sampleStartup.config
          ((new none none).request sampleNonce)
          ([.quote [] default default] ++ .quote sampleQuote default default :: []) =
        run sampleStartup.tpm sampleStartup.config
          ((new none none).request sampleNonce)
          ([.quote [] default default] ++ []) := by
  have issued : ((after (Loop.step sampleStartup) (.start (.new none none))
      sampleArrivals).turn sampleStartup sealedAttestation).issued.isSome := by
    decide +kernel
  obtain ⟨cert, certified⟩ := Option.isSome_iff_exists.mp issued
  refine ⟨issued, ((attestation_final sampleStartup).2.2.2 _ _ _ cert certified).1, ?_⟩
  apply (attestation_final sampleStartup).2.2.1
  exact ⟨_, _, _, List.mem_cons_self⟩

end Cdk.Gateway

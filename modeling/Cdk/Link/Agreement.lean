import Cdk.Link.Handshake

/-!
# What the two ends of a handshake agree on

Any number of clients and servers run the handshake and receive anything at all.  A signature
under an honest key that verifies was made by its holder before, and hash and HKDF do not
collide on the texts in question.  `handshake_agreement` says what follows: who accepts has been
answered or accepted by the peer it names, the two have mirrored keys, and sessions with
different transcripts share no key.
-/

namespace Cdk.Link

open ByteFormat Run Fixed

/-- Those who run the handshake, and what the holder of each key signs. -/
structure Parties where
  primitives : Primitives
  sign : Identity → Fixed 32 → Signature

namespace Parties

variable (parties : Parties)

def sha256 : Bytes → Fixed 32 := parties.primitives.crypto.sha256

def verifies (key : Identity) (digest : Fixed 32) (signature : Signature) : Bool :=
  verifyWith parties.primitives.crypto key digest signature protocol

def trust (trusted : Identity → Bool) : Trust := fun key digest signature =>
  parties.verifies key digest signature && trusted key

end Parties

/-- A client whose handshake is accepted. -/
structure ClientRun (parties : Parties) where
  me : Identity
  random : ClientRandom
  /-- What it received as the server's hello. -/
  sh : Bytes
  trusted : Identity → Bool
  session : Session
  cf : Bytes
  server : Identity
  accepted : clientFinish parties.primitives
    (clientHello parties.primitives random).1 sh (parties.trust trusted) me
    (parties.sign me) = .ok (session, cf, server)

/-- A server that has answered. -/
structure Response (parties : Parties) where
  me : Identity
  random : ServerRandom
  /-- What it received as the client's hello. -/
  ch : Bytes
  sh : Bytes
  state : ServerState
  answered : serverRespond parties.primitives ch random me (parties.sign me) = .ok (state, sh)

/-- A server whose handshake is accepted. -/
structure ServerRun (parties : Parties) where
  response : Response parties
  /-- What it received as the client's finish. -/
  cf : Bytes
  trusted : Identity → Bool
  session : Session
  client : Identity
  accepted : serverFinish parties.primitives response.state cf
    (parties.trust trusted) = .ok (session, client)

/-! ## One run -/

namespace ClientRun

variable {parties : Parties} (run : ClientRun parties)

def ch : Bytes := (clientHello parties.primitives run.random).2

@[simp] theorem length_ch : run.ch.length = chLen := ClientHello.length_bytes _

theorem exists_hello : ∃ hello, ServerHello.parse run.sh = some hello := by
  obtain ⟨hello, -, parsed, -⟩ := clientFinish_ok run.accepted
  exact ⟨hello, parsed⟩

def hello : ServerHello :=
  (ServerHello.parse run.sh).get (Option.isSome_iff_exists.mpr run.exists_hello)

theorem parse_sh : ServerHello.parse run.sh = some run.hello := (Option.some_get _).symm

def secrets : Fixed 32 × Fixed 32 :=
  (clientHello parties.primitives run.random).1.secrets parties.primitives run.hello.offer

def signedText : Bytes := clientText run.ch run.sh run.me.bytes

def checkedText : Bytes := serverText run.ch (run.sh.take shUnsigned)

theorem spec : run.sh.length = shLen ∧ run.server = run.hello.offer.identity ∧
      parties.verifies run.server (parties.sha256 run.checkedText) run.hello.signature ∧
      run.cf = ClientFinish.bytes ⟨run.me, parties.sign run.me (parties.sha256 run.signedText)⟩ ∧
      run.session =
        let keys := derive parties.primitives.crypto parties.primitives.hkdf run.ch run.sh
          run.cf run.secrets.1 run.secrets.2
        Session.new keys.1 keys.2 := by
  obtain ⟨hello, length, parsed, server, trusted, cf, session⟩ := clientFinish_ok run.accepted
  obtain rfl : run.hello = hello := Option.some.inj (run.parse_sh.symm.trans parsed)
  exact ⟨length, server, (Bool.and_eq_true _ _ ▸ trusted).1, cf, session⟩

end ClientRun

namespace Response

variable {parties : Parties} (response : Response parties)

def signedText : Bytes := serverText response.ch (response.sh.take shUnsigned)

theorem spec : response.ch.length = chLen ∧ response.sh.length = shLen ∧
      response.state.ch = response.ch ∧
      response.state.sh = response.sh := by
  obtain ⟨hello, ciphertext, kemShared, length, -, -, sh, state⟩ :=
    serverRespond_ok response.answered
  refine ⟨length, ?_, ?_, ?_⟩
  · rw [sh, ServerHello.length_bytes]
  · rw [state]
  · rw [state]

end Response

namespace ServerRun

variable {parties : Parties} (run : ServerRun parties)

def checkedText : Bytes := clientText run.response.ch run.response.sh (run.cf.take identityLen)

theorem spec : ∃ finish : ClientFinish, run.cf.length = cfLen ∧
        ClientFinish.parse run.cf = some finish ∧
        run.client = finish.identity ∧
        parties.verifies run.client (parties.sha256 run.checkedText) finish.signature ∧
        run.session =
          let keys := derive parties.primitives.crypto parties.primitives.hkdf
            run.response.ch run.response.sh run.cf run.response.state.xShared
            run.response.state.kemShared
          Session.new keys.2 keys.1 := by
  obtain ⟨finish, length, parsed, client, trusted, session⟩ := serverFinish_ok run.accepted
  obtain ⟨-, -, sameCh, sameSh⟩ := run.response.spec
  rw [sameCh, sameSh] at trusted session
  exact ⟨finish, length, parsed, client, (Bool.and_eq_true _ _ ▸ trusted).1, session⟩

end ServerRun

variable {parties : Parties}

theorem ClientRun.secrets_eq (run : ClientRun parties)
    (response : Response parties) (sameCh : run.ch = response.ch) (sameSh : run.sh = response.sh) :
    run.secrets = (response.state.xShared, response.state.kemShared) := by
  obtain ⟨clientHello, ciphertext, kemShared, -, parsed, encapsulated, sh, state⟩ :=
    serverRespond_ok response.answered
  -- each side reads the other's public values where they were put
  rw [← sameCh] at parsed
  have heard := parsed.symm.trans (ClientHello.parse_bytes _)
  cases heard
  have answer := run.parse_sh
  rw [sameSh, sh, ServerHello.parse_bytes] at answer
  have offered := congrArg ServerHello.offer (Option.some.inj answer)
  rw [ClientRun.secrets, ← offered, state]
  simp only [ClientState.secrets, Link.clientHello, Prod.mk.injEq]
  exact ⟨parties.primitives.exchange.diffieHellman_comm _ _,
    parties.primitives.exchange.decapsulate_encapsulate encapsulated⟩

/-- Both ends of a handshake with one transcript have mirrored keys. -/
theorem ClientRun.mirrored (client : ClientRun parties)
    (server : ServerRun parties) (sameCh : client.ch = server.response.ch)
    (sameSh : client.sh = server.response.sh) (sameCf : client.cf = server.cf) :
    server.session.tx = client.session.rx ∧ server.session.rx = client.session.tx := by
  obtain ⟨-, -, -, -, clientSession⟩ := client.spec
  obtain ⟨finish, -, -, -, -, serverSession⟩ := server.spec
  rw [clientSession, serverSession, client.secrets_eq server.response sameCh sameSh,
    sameCh, sameSh, sameCf]
  exact ⟨rfl, rfl⟩

/-- A signature that is valid for one digest only ties a client's finish to its
hello and the hello it received. -/
theorem ClientRun.same_hellos (client : ClientRun parties)
    (server : ServerRun parties) (sameCf : client.cf = server.cf)
    (correct : ∀ digest, parties.verifies client.me digest (parties.sign client.me digest))
    (binds : ∀ left right signature, parties.verifies client.me left signature →
        parties.verifies client.me right signature → left = right)
    (apart : Set.InjOn parties.sha256 {client.signedText, server.checkedText}) :
    client.ch = server.response.ch ∧ client.sh = server.response.sh := by
  obtain ⟨shLength, -, -, cf, -⟩ := client.spec
  obtain ⟨finish, -, parsed, name, verified, -⟩ := server.spec
  obtain ⟨chLength, shLength', -, -⟩ := server.response.spec
  rw [← sameCf, cf, ClientFinish.parse_bytes] at parsed
  cases parsed
  rw [name] at verified
  have sameDigest := binds _ _ _ (correct _) verified
  have sameText : client.signedText = server.checkedText := apart (.inl rfl) (.inr rfl) sameDigest
  obtain ⟨sameCh, sameSh, -⟩ := clientText_inj
    (client.length_ch.trans chLength.symm) (shLength.trans shLength'.symm) sameText
  exact ⟨sameCh, sameSh⟩

/-! ## Sessions and their transcripts -/

/-- A session with the transcript and the secrets it was derived from. -/
structure Established where
  ch : Bytes
  sh : Bytes
  cf : Bytes
  secrets : Fixed 32 × Fixed 32
  session : Session

namespace Established

def transcript (established : Established) : Bytes × Bytes × Bytes :=
  (established.ch, established.sh, established.cf)

def keys (established : Established) : List (Fixed 32) :=
  [established.session.tx, established.session.rx]

def labels : List Bytes := [ascii "CDK-LINK-v1 c2s", ascii "CDK-LINK-v1 s2c"]

def saltText (established : Established) : Bytes :=
  keysText established.ch established.sh established.cf

/-- The input of HKDF for one of the keys. -/
def expansion (crypto : Crypto) (established : Established)
    (label : Bytes) : Fixed 32 × Fixed 64 × Bytes :=
  (crypto.sha256 established.saltText,
    ⟨established.secrets.1.bytes ++ established.secrets.2.bytes, by simp⟩, label)

/-- The lengths of the messages are the protocol's, and the keys are expanded
from the transcript and the secrets. -/
structure Derived (primitives : Primitives) (established : Established) : Prop where
  ch_length : established.ch.length = chLen
  sh_length : established.sh.length = shLen
  keys : ∀ key ∈ established.keys, ∃ label ∈ labels,
    key = primitives.hkdf (established.expansion primitives.crypto label).1
      (established.expansion primitives.crypto label).2.1 label

end Established

namespace ClientRun

variable {parties : Parties}

def established (run : ClientRun parties) : Established :=
  ⟨run.ch, run.sh, run.cf, run.secrets, run.session⟩

theorem derived (run : ClientRun parties) : run.established.Derived parties.primitives := by
  obtain ⟨shLength, -, -, -, session⟩ := run.spec
  refine ⟨run.length_ch, shLength, ?_⟩
  simp only [Established.keys, established, session, List.forall_mem_cons]
  exact ⟨⟨_, .head _, rfl⟩, ⟨_, .tail _ (.head _), rfl⟩, by simp⟩

end ClientRun

namespace ServerRun

variable {parties : Parties}

def established (run : ServerRun parties) : Established :=
  ⟨run.response.ch, run.response.sh, run.cf,
    (run.response.state.xShared, run.response.state.kemShared), run.session⟩

theorem derived (run : ServerRun parties) : run.established.Derived parties.primitives := by
  obtain ⟨finish, -, -, -, -, session⟩ := run.spec
  obtain ⟨chLength, shLength, -, -⟩ := run.response.spec
  refine ⟨chLength, shLength, ?_⟩
  simp only [Established.keys, established, session, List.forall_mem_cons]
  exact ⟨⟨_, .tail _ (.head _), rfl⟩, ⟨_, .head _, rfl⟩, by simp⟩

end ServerRun

/-- Sessions with different transcripts share no key. -/
theorem Established.keys_disjoint {left right : Established} (leftDerived : left.Derived primitives)
    (rightDerived : right.Derived primitives) (hashes : Set.InjOn primitives.crypto.sha256 texts)
    (expands : Set.InjOn (fun input => primitives.hkdf input.1 input.2.1 input.2.2) inputs)
    (leftText : left.saltText ∈ texts) (rightText : right.saltText ∈ texts)
    (leftInputs : ∀ label ∈ labels, left.expansion primitives.crypto label ∈ inputs)
    (rightInputs : ∀ label ∈ labels, right.expansion primitives.crypto label ∈ inputs)
    (different : left.transcript ≠ right.transcript) :
    ∀ key ∈ left.keys, key ∉ right.keys := by
  intro key inLeft inRight
  obtain ⟨leftLabel, leftListed, leftKey⟩ := leftDerived.keys key inLeft
  obtain ⟨rightLabel, rightListed, rightKey⟩ := rightDerived.keys key inRight
  have sameInput := expands (leftInputs _ leftListed) (rightInputs _ rightListed)
    (leftKey.symm.trans rightKey)
  have sameText := hashes leftText rightText (congrArg Prod.fst sameInput)
  obtain ⟨sameCh, sameSh, sameCf⟩ := flatten_three_inj
    (leftDerived.ch_length.trans rightDerived.ch_length.symm)
    (leftDerived.sh_length.trans rightDerived.sh_length.symm) (digestInput_inj sameText)
  exact different (by rw [transcript, transcript, sameCh, sameSh, sameCf])

/-! ## Many handshakes -/

/-- Everything that has been answered and accepted. -/
structure Network (parties : Parties) where
  clients : List (ClientRun parties)
  responses : List (Response parties)
  servers : List (ServerRun parties)

namespace Network

variable {parties : Parties}

/-- What happens next.  Every message that is received is arbitrary. -/
inductive Move
  /-- A client finishes with some server hello. -/
  | clientFinish (me : Identity) (random : ClientRandom) (sh : Bytes) (trusted : Identity → Bool)
  /-- A server responds to some client hello. -/
  | serverRespond (me : Identity) (random : ServerRandom) (ch : Bytes)
  /-- A server that has responded finishes with some client finish. -/
  | serverFinish (index : Nat) (cf : Bytes) (trusted : Identity → Bool)

variable (network : Network parties)

/-- One step. -/
def step : Move → Network parties
  | .clientFinish me random sh trusted =>
    match accepted : Link.clientFinish parties.primitives
        (clientHello parties.primitives random).1 sh (parties.trust trusted) me
        (parties.sign me) with
    | .ok (session, cf, server) =>
      { network with
        clients := network.clients ++ [⟨me, random, sh, trusted, session, cf, server, accepted⟩] }
    | .error _ => network
  | .serverRespond me random ch =>
    match answered : Link.serverRespond parties.primitives ch random me (parties.sign me) with
    | .ok (state, sh) =>
      { network with
        responses := network.responses ++ [⟨me, random, ch, sh, state, answered⟩] }
    | .error _ => network
  | .serverFinish index cf trusted =>
    match network.responses[index]? with
    | none => network
    | some response =>
      match accepted : Link.serverFinish parties.primitives response.state cf
          (parties.trust trusted) with
      | .ok (session, client) =>
        { network with
          servers := network.servers ++ [⟨response, cf, trusted, session, client, accepted⟩] }
      | .error _ => network

/-- What was signed, and by whom. -/
def signings : List (Identity × Bytes) :=
  network.responses.map (fun response => (response.me, response.signedText)) ++
    network.clients.map (fun client => (client.me, client.signedText))

/-- The signature that a move checks. -/
def check : Move → Option (Identity × Fixed 32 × Signature)
  | .clientFinish _ random sh _ =>
    (ServerHello.parse sh).map fun hello =>
      (hello.offer.identity, parties.sha256 (serverText (clientHello parties.primitives random).2
          (sh.take shUnsigned)),
        hello.signature)
  | .serverRespond _ _ _ => none
  | .serverFinish index cf _ =>
    network.responses[index]?.bind fun response =>
      (ClientFinish.parse cf).map fun finish =>
        (finish.identity, parties.sha256 (clientText response.ch response.sh (cf.take identityLen)),
          finish.signature)

/-- Signatures under honest keys are not forged: what verifies now has been
signed before by the holder of the key. -/
def Genuine (honest : Identity → Prop) (network : Network parties) (move : Move) : Prop :=
  ∀ key digest signature, network.check move = some (key, digest, signature) →
    honest key → parties.verifies key digest signature →
      ∃ text, (key, text) ∈ network.signings ∧ parties.sha256 text = digest

/-- Nothing has happened. -/
def start (parties : Parties) : Network parties := ⟨[], [], []⟩

def established : List Established :=
  network.clients.map ClientRun.established ++ network.servers.map ServerRun.established

/-- The texts that are hashed. -/
def texts : Set Bytes :=
  {text | (∃ key, (key, text) ∈ network.signings) ∨
    (∃ client ∈ network.clients, text = client.checkedText) ∨
    (∃ server ∈ network.servers, text = server.checkedText) ∨
    ∃ session ∈ network.established, text = session.saltText}

/-- The inputs of the key derivation. -/
def inputs : Set (Fixed 32 × Fixed 64 × Bytes) :=
  {input | ∃ session ∈ network.established, ∃ label ∈ Established.labels,
    input = session.expansion parties.primitives.crypto label}

variable {network}

/-- Whoever accepted an honest peer checked a digest that the peer had signed. -/
structure Backed (honest : Identity → Prop) (network : Network parties) : Prop where
  clients : ∀ client ∈ network.clients, honest client.server →
    ∃ text, (client.server, text) ∈ network.signings ∧
      parties.sha256 text = parties.sha256 client.checkedText
  servers : ∀ server ∈ network.servers, honest server.client →
    ∃ text, (server.client, text) ∈ network.signings ∧
      parties.sha256 text = parties.sha256 server.checkedText

theorem step_cases (network : Network parties) (move : Move) : network.step move = network ∨
      (∃ client : ClientRun parties,
        move = .clientFinish client.me client.random client.sh client.trusted ∧ network.step move =
            { network with clients := network.clients ++ [client] }) ∨
      (∃ response : Response parties, network.step move =
          { network with responses := network.responses ++ [response] }) ∨
      ∃ server : ServerRun parties, ∃ index, network.responses[index]? = some server.response ∧
          move = .serverFinish index server.cf server.trusted ∧
          network.step move =
            { network with servers := network.servers ++ [server] } := by
  cases move with
  | clientFinish me random sh trusted =>
    unfold step
    dsimp only
    split
    · rename_i session cf server accepted
      exact .inr (.inl ⟨⟨me, random, sh, trusted, session, cf, server, accepted⟩, rfl, rfl⟩)
    · exact .inl rfl
  | serverRespond me random ch =>
    unfold step
    dsimp only
    split
    · rename_i state sh answered
      exact .inr (.inr (.inl ⟨⟨me, random, ch, sh, state, answered⟩, rfl⟩))
    · exact .inl rfl
  | serverFinish index cf trusted =>
    unfold step
    dsimp only
    split
    · exact .inl rfl
    rename_i response found
    split
    · rename_i session client accepted
      exact .inr (.inr (.inr
        ⟨⟨response, cf, trusted, session, client, accepted⟩, index, found, rfl, rfl⟩))
    · exact .inl rfl

theorem signings_step (network : Network parties) (move : Move) :
    network.signings ⊆ (network.step move).signings := by
  intro signing listed
  rcases step_cases network move with
    same | ⟨client, -, done⟩ | ⟨response, done⟩ | ⟨server, index, -, -, done⟩
  · rwa [same]
  all_goals
    rw [done]
    simp only [signings, List.map_append, List.mem_append] at listed ⊢
    tauto

variable {network : Network parties}

/-- A signature that an honest peer's run passed was made by the peer. -/
theorem Genuine.signed (genuine : Genuine honest network move)
    (checked : network.check move = some (key, parties.sha256 text, signature))
    (verified : parties.verifies key (parties.sha256 text) signature) (trusted : honest key) :
    ∃ signed, (key, signed) ∈ (network.step move).signings ∧
      parties.sha256 signed = parties.sha256 text := by
  obtain ⟨signed, listed, same⟩ := genuine _ _ _ checked trusted verified
  exact ⟨signed, signings_step network move listed, same⟩

theorem exists_signing_step (move : Move) (signed : ∃ text, (signer, text) ∈ network.signings ∧
      parties.sha256 text = parties.sha256 checked) :
    ∃ text, (signer, text) ∈ (network.step move).signings ∧
      parties.sha256 text = parties.sha256 checked := by
  obtain ⟨text, listed, same⟩ := signed
  exact ⟨text, signings_step network move listed, same⟩

theorem Backed.step {honest : Identity → Prop} {move : Move}
    (backed : Backed honest network) (genuine : Genuine honest network move) :
    Backed honest (network.step move) := by
  have clientsKept := fun client listed trusted =>
    exists_signing_step move (backed.clients client listed trusted)
  have serversKept := fun server listed trusted =>
    exists_signing_step move (backed.servers server listed trusted)
  rcases step_cases network move with
    same | ⟨client, finishes, done⟩ | ⟨response, done⟩ | ⟨server, index, found, finishes, done⟩
  · rwa [same]
  · -- a client accepts: the signature it checks is genuine
    obtain ⟨-, server, verified, -, -⟩ := client.spec
    have signed := genuine.signed (by rw [finishes, check, client.parse_sh, server]; rfl) verified
    rw [done] at clientsKept serversKept signed ⊢
    exact ⟨List.forall_mem_append.mpr ⟨clientsKept, List.forall_mem_singleton.mpr signed⟩,
      serversKept⟩
  · rw [done] at clientsKept serversKept ⊢
    exact ⟨clientsKept, serversKept⟩
  · -- a server accepts: the signature it checks is genuine
    obtain ⟨finish, -, parsed, client, verified, -⟩ := server.spec
    have signed := genuine.signed
      (by rw [finishes, check, found, Option.bind_some, parsed, client]; rfl) verified
    rw [done] at clientsKept serversKept signed ⊢
    exact ⟨clientsKept,
      List.forall_mem_append.mpr ⟨serversKept, List.forall_mem_singleton.mpr signed⟩⟩

theorem backed_after (genuine : Run.Along step (Genuine honest) (start parties) moves) :
    Backed honest (after step (start parties) moves) := by
  apply invariant _ _ genuine
  · constructor <;> simp [start]
  · intro network move backed condition
    exact backed.step condition

section Agreement

variable {network : Network parties} {honest : Identity → Prop}

section

variable (backed : Backed honest network) (hashes : Set.InjOn parties.sha256 network.texts)
include backed hashes

theorem Backed.responded (listed : client ∈ network.clients) (trusted : honest client.server) :
    ∃ response ∈ network.responses, response.me = client.server ∧ response.ch = client.ch ∧
        response.sh.take shUnsigned = client.sh.take shUnsigned := by
  obtain ⟨text, signed, same⟩ := backed.clients client listed trusted
  obtain rfl := hashes (.inl ⟨_, signed⟩) (.inr (.inl ⟨client, listed, rfl⟩)) same
  rcases List.mem_append.mp signed with byServer | byClient
  · obtain ⟨response, answered, equal⟩ := List.mem_map.mp byServer
    obtain ⟨name, texts⟩ := Prod.mk.inj equal
    obtain ⟨sameCh, sameSh⟩ := serverText_inj (response.spec.1.trans client.length_ch.symm) texts
    exact ⟨response, answered, name, sameCh, sameSh⟩
  · obtain ⟨other, -, equal⟩ := List.mem_map.mp byClient
    exact absurd (congrArg Prod.snd equal).symm serverText_ne_clientText

theorem Backed.finished {server : ServerRun parties}
    (listed : server ∈ network.servers) (trusted : honest server.client) :
    ∃ client ∈ network.clients, client.me = server.client ∧ client.ch = server.response.ch ∧
        client.sh = server.response.sh := by
  obtain ⟨text, signed, same⟩ := backed.servers server listed trusted
  obtain rfl := hashes (.inl ⟨_, signed⟩) (.inr (.inr (.inl ⟨server, listed, rfl⟩))) same
  rcases List.mem_append.mp signed with byServer | byClient
  · obtain ⟨other, -, equal⟩ := List.mem_map.mp byServer
    exact absurd (congrArg Prod.snd equal) serverText_ne_clientText
  obtain ⟨client, accepted, equal⟩ := List.mem_map.mp byClient
  obtain ⟨name, texts⟩ := Prod.mk.inj equal
  obtain ⟨chLength, shLength, -, -⟩ := server.response.spec
  obtain ⟨sameCh, sameSh, -⟩ := clientText_inj (client.length_ch.trans chLength.symm)
    (client.spec.1.trans shLength.symm) texts
  exact ⟨client, accepted, name, sameCh, sameSh⟩

end

theorem derived_of_established (listed : session ∈ network.established) :
    session.Derived parties.primitives := by
  rcases List.mem_append.mp listed with listed | listed
  · obtain ⟨client, -, rfl⟩ := List.mem_map.mp listed
    exact client.derived
  · obtain ⟨server, -, rfl⟩ := List.mem_map.mp listed
    exact server.derived

end Agreement

/-- A client that accepts an honest server was answered by it; a server that
accepts an honest client was accepted by it, for the same two hellos; where the
finish was delivered as it was sent, the two sessions have mirrored keys; and
sessions with different transcripts have no key in common. -/
theorem handshake_agreement
    (parties : Parties)
    (honest : Identity → Prop)
    (moves : List Move)
    (genuine : Run.Along step (Genuine honest) (start parties) moves)
    (hashes : Set.InjOn parties.sha256 (after step (start parties) moves).texts)
    (expands : Set.InjOn
      (fun input => parties.primitives.hkdf input.1 input.2.1 input.2.2)
      (after step (start parties) moves).inputs)
    (correct : ∀ key, honest key → ∀ digest, parties.verifies key digest (parties.sign key digest))
    (binds : ∀ key, honest key → ∀ left right signature,
      parties.verifies key left signature → parties.verifies key right signature → left = right) :
    let network := after step (start parties) moves
    (∀ client ∈ network.clients, honest client.server → ∃ response ∈ network.responses,
        response.me = client.server ∧ response.ch = client.ch ∧
          response.sh.take shUnsigned = client.sh.take shUnsigned) ∧
      (∀ server ∈ network.servers, honest server.client → ∃ client ∈ network.clients,
          client.me = server.client ∧ client.ch = server.response.ch ∧
            client.sh = server.response.sh) ∧
      (∀ client ∈ network.clients, ∀ server ∈ network.servers, client.cf = server.cf →
        (honest client.me ∨ client.ch = server.response.ch ∧ client.sh = server.response.sh) →
          server.session.tx = client.session.rx ∧ server.session.rx = client.session.tx) ∧
      (∀ left ∈ network.established, ∀ right ∈ network.established,
        left.transcript ≠ right.transcript → ∀ key ∈ left.keys, key ∉ right.keys) := by
  intro network
  have backed : Backed honest network := backed_after genuine
  refine ⟨?_, ?_, ?_, ?_⟩
  · intro client listed trusted
    exact backed.responded hashes listed trusted
  · intro server listed trusted
    exact backed.finished hashes listed trusted
  · intro client clientListed server serverListed sameCf known
    have sameHellos : client.ch = server.response.ch ∧ client.sh = server.response.sh := by
      rcases known with trusted | same
      · apply client.same_hellos server sameCf (correct _ trusted) (binds _ trusted)
        apply hashes.mono
        rintro text (rfl | rfl)
        · refine .inl ⟨client.me, List.mem_append_right _ ?_⟩
          exact List.mem_map_of_mem clientListed
        · exact .inr (.inr (.inl ⟨server, serverListed, rfl⟩))
      · exact same
    exact client.mirrored server sameHellos.1 sameHellos.2 sameCf
  · intro left leftListed right rightListed different
    have saltListed : ∀ session ∈ network.established,
        session.saltText ∈ network.texts := fun session listed =>
      .inr (.inr (.inr ⟨session, listed, rfl⟩))
    exact Established.keys_disjoint (derived_of_established leftListed)
      (derived_of_established rightListed) hashes expands
      (saltListed left leftListed) (saltListed right rightListed)
      (fun label known => ⟨left, leftListed, label, known, rfl⟩)
      (fun label known => ⟨right, rightListed, label, known, rfl⟩) different

/-! ## An undisturbed handshake -/

section Undisturbed

variable (network : Network parties)

theorem step_clientFinish (client : ClientRun parties) :
    network.step (.clientFinish client.me client.random client.sh client.trusted) =
      { network with clients := network.clients ++ [client] } := by
  obtain ⟨me, random, sh, trusted, session, cf, server, accepted⟩ := client
  unfold step
  dsimp only
  split
  all_goals
    rename_i again
    cases again.symm.trans accepted
  rfl

theorem step_serverRespond (response : Response parties) :
    network.step (.serverRespond response.me response.random response.ch) =
      { network with responses := network.responses ++ [response] } := by
  obtain ⟨me, random, ch, sh, state, answered⟩ := response
  unfold step
  dsimp only
  split
  all_goals
    rename_i again
    cases again.symm.trans answered
  rfl

theorem step_serverFinish (server : ServerRun parties)
    (found : network.responses[index]? = some server.response) :
    network.step (.serverFinish index server.cf server.trusted) =
      { network with servers := network.servers ++ [server] } := by
  obtain ⟨response, cf, trusted, session, client, accepted⟩ := server
  unfold step
  dsimp only
  rw [found]
  dsimp only
  split
  all_goals
    rename_i again
    cases again.symm.trans accepted
  rfl

variable {network} {honest : Identity → Prop}

theorem genuine_clientFinish {client : ClientRun parties}
    (signed : (client.server, client.checkedText) ∈ network.signings) :
    Genuine honest network (.clientFinish client.me client.random client.sh client.trusted) := by
  intro key digest signature checked _ _
  rw [check, client.parse_sh, Option.map_some, Option.some.injEq, Prod.mk.injEq,
    Prod.mk.injEq] at checked
  obtain ⟨rfl, rfl, -⟩ := checked
  rw [client.spec.2.1] at signed
  exact ⟨client.checkedText, signed, rfl⟩

theorem genuine_serverFinish {server : ServerRun parties}
    (found : network.responses[index]? = some server.response)
    (signed : (server.client, server.checkedText) ∈ network.signings) :
    Genuine honest network (.serverFinish index server.cf server.trusted) := by
  obtain ⟨finish, -, parsed, client, -, -⟩ := server.spec
  intro key digest signature checked _ _
  rw [check, found, Option.bind_some, parsed, Option.map_some, Option.some.injEq,
    Prod.mk.injEq, Prod.mk.injEq] at checked
  obtain ⟨rfl, rfl, -⟩ := checked
  rw [client] at signed
  exact ⟨server.checkedText, signed, rfl⟩

end Undisturbed
end Network

/-- Primitives that tell apart only what one handshake has to. -/
def toyPrimitives : Primitives where
  crypto :=
    { sha256 := fun bytes => replicate 32 (bytes.getD 12 0)
      edVerify := fun _ digest signature => signature.bytes.take 32 == digest.bytes
      mlVerify := fun _ _ _ _ => true }
  hkdf _ _ label := replicate 32 (label.getD 12 0)
  exchange :=
    { xPublic := fun secret => secret
      diffieHellman := fun _ _ => replicate 32 7
      encapsulationKey := fun _ => replicate 1184 1
      encapsulate := fun _ _ => some (replicate 1088 2, replicate 32 8)
      decapsulate := fun _ _ => replicate 32 8
      diffieHellman_comm := fun _ _ => rfl
      decapsulate_encapsulate := by
        rintro seed message ciphertext shared ⟨⟩
        rfl }

def toyParties : Parties where
  primitives := toyPrimitives
  sign _ digest := ⟨⟨digest.bytes ++ (replicate 32 0).bytes, by simp⟩, replicate 3309 0⟩

theorem toyParties_correct (key : Identity) (digest : Fixed 32) :
    toyParties.verifies key digest (toyParties.sign key digest) := by
  simp [Parties.verifies, verifyWith, toyParties, toyPrimitives,
    List.take_left' digest.length_bytes]

theorem toyParties_binds (key : Identity) (left right : Fixed 32) (signature : Signature)
    (leftValid : toyParties.verifies key left signature)
    (rightValid : toyParties.verifies key right signature) :
    left = right := by
  simp only [Parties.verifies, verifyWith, toyParties, toyPrimitives, Bool.and_true,
    beq_iff_eq] at leftValid rightValid
  exact ext (leftValid.symm.trans rightValid)

theorem toyParties_trust (key : Identity) (digest : Fixed 32) :
    toyParties.trust (fun _ => true) key digest (toyParties.sign key digest) := by
  rw [Parties.trust, toyParties_correct]
  rfl

def toyServer : Identity := ⟨replicate 32 3, replicate 1952 3⟩

def toyClient : Identity := ⟨replicate 32 4, replicate 1952 4⟩

def toyResponse : Response toyParties where
  me := toyServer
  random := ⟨replicate 32 5, replicate 32 5, replicate 32 5⟩
  ch := ClientHello.bytes ⟨replicate 32 6, replicate 32 6, replicate 1184 1⟩
  sh := _
  state := _
  answered := serverRespond_bytes rfl

def toyClientRun : ClientRun toyParties where
  me := toyClient
  random := ⟨replicate 32 6, replicate 64 6, replicate 32 6⟩
  sh := toyResponse.sh
  trusted _ := true
  session := _
  cf := _
  server := _
  accepted := clientFinish_bytes (toyParties_trust _ _)

def toyServerRun : ServerRun toyParties where
  response := toyResponse
  cf := toyClientRun.cf
  trusted _ := true
  session := _
  client := _
  accepted := serverFinish_bytes (toyParties_trust _ _)

namespace Network

/-- Everything is delivered as it was sent. -/
def toyMoves : List Move := [.serverRespond toyResponse.me toyResponse.random toyResponse.ch,
    .clientFinish toyClientRun.me toyClientRun.random toyClientRun.sh toyClientRun.trusted,
    .serverFinish 0 toyServerRun.cf toyServerRun.trusted]

theorem after_toyMoves : after step (start toyParties) toyMoves =
      ⟨[toyClientRun], [toyResponse], [toyServerRun]⟩ := by
  rw [toyMoves, after_cons, step_serverRespond, after_cons, step_clientFinish,
    after_cons, step_serverFinish _ _ rfl, after_nil]
  rfl

theorem toyServerRun_checkedText : toyServerRun.checkedText = toyClientRun.signedText :=
  congrArg (clientText toyResponse.ch toyResponse.sh) (ClientFinish.take_bytes _)

theorem toyClientRun_ch : toyClientRun.ch = toyResponse.ch := rfl

/-- Both ends have one transcript. -/
theorem toyServerRun_saltText :
    toyServerRun.established.saltText = toyClientRun.established.saltText := by
  change keysText toyResponse.ch toyResponse.sh toyClientRun.cf =
    keysText toyClientRun.ch toyResponse.sh toyClientRun.cf
  rw [toyClientRun_ch]

theorem toyServerRun_expansion (label : Bytes) :
    toyServerRun.established.expansion toyParties.primitives.crypto label =
      toyClientRun.established.expansion toyParties.primitives.crypto label := by
  have secrets : toyServerRun.established.secrets = toyClientRun.established.secrets :=
    (toyClientRun.secrets_eq toyResponse toyClientRun_ch rfl).symm
  simp only [Established.expansion, toyServerRun_saltText, secrets]

/-- What is checked is what was signed. -/
theorem toyMoves_genuine : Run.Along step (Genuine fun _ => True) (start toyParties) toyMoves := by
  refine ⟨?_, ?_, ?_, trivial⟩
  · exact nofun
  · rw [step_serverRespond]
    apply genuine_clientFinish
    exact .head _
  · rw [step_serverRespond, step_clientFinish]
    apply genuine_serverFinish rfl
    rw [toyServerRun_checkedText]
    exact .tail _ (.head _)

/-- Three texts are hashed, with three labels. -/
theorem toyMoves_texts : (after step (start toyParties) toyMoves).texts ⊆
      {toyResponse.signedText, toyClientRun.signedText,
        toyClientRun.established.saltText} := by
  rw [after_toyMoves]
  rintro text (⟨key, signed⟩ | ⟨client, listed, rfl⟩ | ⟨server, listed, rfl⟩ |
    ⟨session, listed, rfl⟩)
  · obtain _ | ⟨_, _ | ⟨_, ⟨⟩⟩⟩ := signed
    · exact .inl rfl
    · exact .inr (.inl rfl)
  · obtain rfl := List.mem_singleton.mp listed
    exact .inl rfl
  · obtain rfl := List.mem_singleton.mp listed
    exact .inr (.inl toyServerRun_checkedText)
  · obtain _ | ⟨_, _ | ⟨_, ⟨⟩⟩⟩ := listed
    · exact .inr (.inr rfl)
    · exact .inr (.inr toyServerRun_saltText)

theorem toyMoves_hashes : Set.InjOn toyParties.sha256
      (after step (start toyParties) toyMoves).texts := by
  have server : toyParties.sha256 toyResponse.signedText = replicate 32 115 := rfl
  have client : toyParties.sha256 toyClientRun.signedText = replicate 32 99 := rfl
  have salt : toyParties.sha256 toyClientRun.established.saltText = replicate 32 107 := rfl
  apply Set.InjOn.mono toyMoves_texts
  rintro left (rfl | rfl | rfl) right (rfl | rfl | rfl) same
  all_goals first
    | simp only [server, client, salt] at same
      exact absurd same (by decide)
    | rfl

/-- Two keys are expanded, for two labels. -/
theorem toyMoves_expands :
    Set.InjOn (fun input => toyParties.primitives.hkdf input.1 input.2.1 input.2.2)
      (after step (start toyParties) toyMoves).inputs := by
  have only : ∀ session ∈ (after step (start toyParties) toyMoves).established,
      ∀ label, session.expansion toyParties.primitives.crypto label =
        toyClientRun.established.expansion toyParties.primitives.crypto label := by
    rw [after_toyMoves]
    intro session listed label
    obtain _ | ⟨_, _ | ⟨_, ⟨⟩⟩⟩ := listed
    · rfl
    · exact toyServerRun_expansion label
  rintro left ⟨leftSession, leftListed, leftLabel, leftKnown, rfl⟩
    right ⟨rightSession, rightListed, rightLabel, rightKnown, rfl⟩ same
  rw [only _ leftListed, only _ rightListed]
  have letters : some (leftLabel.getD 12 0) = some (rightLabel.getD 12 0) :=
    congrArg (fun key : Fixed 32 => key.bytes.head?) same
  have labels : leftLabel = rightLabel := by
    clear same
    revert leftLabel rightLabel
    decide +kernel
  rw [labels]

/-- An undisturbed handshake: both accept, and their keys are mirrored. -/
theorem handshake_agreement_undisturbed : after step (start toyParties) toyMoves =
        ⟨[toyClientRun], [toyResponse], [toyServerRun]⟩ ∧
      toyServerRun.session.tx = toyClientRun.session.rx ∧
      toyServerRun.session.rx = toyClientRun.session.tx := by
  refine ⟨after_toyMoves, ?_⟩
  have agreement := handshake_agreement toyParties (fun _ => True) toyMoves
    toyMoves_genuine toyMoves_hashes toyMoves_expands
    (fun key _ => toyParties_correct key) (fun key _ => toyParties_binds key)
  rw [after_toyMoves] at agreement
  exact agreement.2.2.1 toyClientRun (.head _) toyServerRun (.head _) rfl (.inl trivial)

end Network
end Cdk.Link

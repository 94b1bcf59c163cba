import Cdk.Link.Session

/-!
# The handshake

The client sends a hello, the server answers with its hello and a signature over both, and the
client finishes with a signature over everything before it.  Randomness, the check of the other's
signature and the signing function are arguments, as in the code.
-/

namespace Cdk.Link

open ByteFormat Reader

/-- X25519 and ML-KEM-768, and that both sides of an exchange agree. -/
structure Exchange where
  /-- The X25519 public key of a secret. -/
  xPublic : Fixed 32 → Fixed 32
  /-- The X25519 shared secret of a secret and a public key. -/
  diffieHellman : Fixed 32 → Fixed 32 → Fixed 32
  /-- The encapsulation key of a seed. -/
  encapsulationKey : Fixed 64 → Fixed 1184
  /-- A ciphertext and its shared secret, unless the key is malformed. -/
  encapsulate : Fixed 1184 → Fixed 32 → Option (Fixed 1088 × Fixed 32)
  /-- The shared secret of a ciphertext. -/
  decapsulate : Fixed 64 → Fixed 1088 → Fixed 32
  diffieHellman_comm : ∀ left right,
    diffieHellman left (xPublic right) = diffieHellman right (xPublic left)
  decapsulate_encapsulate : ∀ {seed message ciphertext shared},
    encapsulate (encapsulationKey seed) message = some (ciphertext, shared) →
      decapsulate seed ciphertext = shared

/-- The primitives of the handshake. -/
structure Primitives where
  crypto : Crypto
  hkdf : Hkdf
  exchange : Exchange

/-- The check of a signature over a digest, and whether its key is trusted. -/
abbrev Trust := Identity → Fixed 32 → Signature → Bool

/-- Why a handshake fails. -/
inductive HsError
  | badLength
  | badVersion
  | badKey
  | serverAuth
  | clientAuth
  deriving DecidableEq

/-! ## Messages -/

def version : UInt8 := 1

def identityLen : Nat := 32 + 1952

def sigLen : Nat := 64 + 3309

def chLen : Nat := 1 + 32 + 32 + 1184

/-- The part of the server's hello that its signature covers. -/
def shUnsigned : Nat := 32 + 32 + 1088 + identityLen

def shLen : Nat := shUnsigned + sigLen

def cfLen : Nat := identityLen + sigLen

/-- What the client begins with, after the version. -/
structure ClientHello where
  nonce : Fixed 32
  xPublic : Fixed 32
  kemPublic : Fixed 1184

/-- What the server offers. -/
structure ServerOffer where
  nonce : Fixed 32
  xPublic : Fixed 32
  ciphertext : Fixed 1088
  identity : Identity

/-- What the server answers: an offer, and its signature over both hellos. -/
structure ServerHello where
  offer : ServerOffer
  signature : Signature

/-- What the client finishes with. -/
structure ClientFinish where
  identity : Identity
  signature : Signature

namespace ClientHello

def bytes (hello : ClientHello) : Bytes :=
  [version] ++ (hello.nonce.bytes ++ (hello.xPublic.bytes ++ hello.kemPublic.bytes))

@[simp] theorem length_bytes (hello : ClientHello) : hello.bytes.length = chLen := by
  simp [bytes, chLen]

/-- Read what follows the version. -/
def reader : Reader ClientHello := do
  let nonce ← fixed 32
  let xPublic ← fixed 32
  let kemPublic ← fixed 1184
  pure ⟨nonce, xPublic, kemPublic⟩

def parse (bytes : Bytes) : Option ClientHello :=
  (do let hello ← reader; finish; pure hello : Reader ClientHello).parse bytes

@[simp] theorem parse_bytes (hello : ClientHello) : parse (hello.bytes.drop 1) = some hello := by
  cases hello
  simp [parse, reader, bytes, Option.bind_eq_some_iff]

end ClientHello

namespace ServerOffer

def bytes (offer : ServerOffer) : Bytes := offer.nonce.bytes ++ (offer.xPublic.bytes ++
    (offer.ciphertext.bytes ++ offer.identity.bytes))

@[simp] theorem length_bytes (offer : ServerOffer) : offer.bytes.length = shUnsigned := by
  simp [bytes, shUnsigned, identityLen]

def reader : Reader ServerOffer := do
  let nonce ← fixed 32
  let xPublic ← fixed 32
  let ciphertext ← fixed 1088
  let identity ← Identity.reader
  pure ⟨nonce, xPublic, ciphertext, identity⟩

@[simp] theorem run_reader :
    reader.run input = some (offer, rest) ↔ input = offer.bytes ++ rest := by
  cases offer
  simp [reader, bytes, Option.bind_eq_some_iff]

end ServerOffer

namespace ServerHello

def bytes (hello : ServerHello) : Bytes := hello.offer.bytes ++ hello.signature.bytes

@[simp] theorem length_bytes (hello : ServerHello) : hello.bytes.length = shLen := by
  simp [bytes, shLen, shUnsigned, sigLen]

@[simp] theorem take_bytes (hello : ServerHello) :
    hello.bytes.take shUnsigned = hello.offer.bytes :=
  List.take_left' hello.offer.length_bytes

def reader : Reader ServerHello := do
  let offer ← ServerOffer.reader
  let signature ← Signature.reader
  pure ⟨offer, signature⟩

def parse (bytes : Bytes) : Option ServerHello :=
  (do let hello ← reader; finish; pure hello : Reader ServerHello).parse bytes

@[simp] theorem parse_bytes (hello : ServerHello) : parse hello.bytes = some hello := by
  cases hello
  simp [parse, reader, bytes, Option.bind_eq_some_iff]

end ServerHello

namespace ClientFinish

def bytes (finish : ClientFinish) : Bytes := finish.identity.bytes ++ finish.signature.bytes

@[simp] theorem length_bytes (finish : ClientFinish) : finish.bytes.length = cfLen := by
  simp [bytes, cfLen, identityLen, sigLen]

@[simp] theorem take_bytes (finish : ClientFinish) :
    finish.bytes.take identityLen = finish.identity.bytes :=
  List.take_left' finish.identity.length_bytes

def reader : Reader ClientFinish := do
  let identity ← Identity.reader
  let signature ← Signature.reader
  pure ⟨identity, signature⟩

def parse (bytes : Bytes) : Option ClientFinish :=
  (do let finish ← reader; Reader.finish; pure finish : Reader ClientFinish).parse bytes

@[simp] theorem parse_bytes (finish : ClientFinish) : parse finish.bytes = some finish := by
  cases finish
  simp [parse, reader, bytes, Option.bind_eq_some_iff]

end ClientFinish

/-! ## The four functions -/

/-- Randomness of the client. -/
structure ClientRandom where
  x25519 : Fixed 32
  kemSeed : Fixed 64
  nonce : Fixed 32

/-- Randomness of the server. -/
structure ServerRandom where
  x25519 : Fixed 32
  kemM : Fixed 32
  nonce : Fixed 32

/-- What the client keeps after its hello. -/
structure ClientState where
  xSecret : Fixed 32
  dk : Fixed 64
  ch : Bytes

/-- What the server keeps after its hello. -/
structure ServerState where
  ch : Bytes
  sh : Bytes
  xShared : Fixed 32
  kemShared : Fixed 32

section Functions

variable (primitives : Primitives)

/-- Start the handshake. -/
def clientHello (random : ClientRandom) : ClientState × Bytes :=
  let hello : ClientHello :=
    ⟨random.nonce, primitives.exchange.xPublic random.x25519,
      primitives.exchange.encapsulationKey random.kemSeed⟩
  (⟨random.x25519, random.kemSeed, hello.bytes⟩, hello.bytes)

def serverText (ch unsigned : Bytes) : Bytes :=
  digestInput (ascii "server") [ch, unsigned]

def clientText (ch sh identity : Bytes) : Bytes :=
  digestInput (ascii "client") [ch, sh, identity]

def keysText (ch sh cf : Bytes) : Bytes :=
  digestInput (ascii "keys") [ch, sh, cf]

/-- Both shared secrets. -/
def ClientState.secrets (state : ClientState) (offer : ServerOffer) : Fixed 32 × Fixed 32 :=
  (primitives.exchange.diffieHellman state.xSecret offer.xPublic,
    primitives.exchange.decapsulate state.dk offer.ciphertext)

/-- Finish as the client.  What has the right length parses, so that the second
failure never happens. -/
def clientFinish (state : ClientState) (sh : Bytes) (trust : Trust) (me : Identity)
    (sign : Fixed 32 → Signature) : Except HsError (Session × Bytes × Identity) :=
  if sh.length ≠ shLen then .error .badLength
  else
    match ServerHello.parse sh with
    | none => .error .badLength
    | some hello =>
      let signed := primitives.crypto.sha256 (serverText state.ch (sh.take shUnsigned))
      if trust hello.offer.identity signed hello.signature = false then
        .error .serverAuth
      else
        let toSign := primitives.crypto.sha256 (clientText state.ch sh me.bytes)
        let cf := ClientFinish.bytes ⟨me, sign toSign⟩
        let secrets := state.secrets primitives hello.offer
        let keys := derive primitives.crypto primitives.hkdf state.ch sh cf secrets.1 secrets.2
        .ok (Session.new keys.1 keys.2, cf, hello.offer.identity)

/-- Answer a client hello. -/
def serverRespond (ch : Bytes) (random : ServerRandom) (me : Identity)
    (sign : Fixed 32 → Signature) : Except HsError (ServerState × Bytes) :=
  if ch.length ≠ chLen then .error .badLength
  else if ch.head? ≠ some version then .error .badVersion
  else
    match ClientHello.parse (ch.drop 1) with
    | none => .error .badKey
    | some hello =>
      match primitives.exchange.encapsulate hello.kemPublic random.kemM with
      | none => .error .badKey
      | some (ciphertext, kemShared) =>
        let offer : ServerOffer :=
          ⟨random.nonce, primitives.exchange.xPublic random.x25519, ciphertext, me⟩
        let toSign := primitives.crypto.sha256 (serverText ch offer.bytes)
        let sh := ServerHello.bytes ⟨offer, sign toSign⟩
        .ok (⟨ch, sh, primitives.exchange.diffieHellman random.x25519 hello.xPublic, kemShared⟩, sh)

/-- Check the client and begin a session. -/
def serverFinish (state : ServerState) (cf : Bytes)
    (trust : Trust) : Except HsError (Session × Identity) :=
  if cf.length ≠ cfLen then .error .badLength
  else
    match ClientFinish.parse cf with
    | none => .error .badLength
    | some finish =>
      let signed := primitives.crypto.sha256 (clientText state.ch state.sh (cf.take identityLen))
      if trust finish.identity signed finish.signature = false then
        .error .clientAuth
      else
        let keys := derive primitives.crypto primitives.hkdf state.ch state.sh cf
          state.xShared state.kemShared
        -- the server sends on the second key and receives on the first
        .ok (Session.new keys.2 keys.1, finish.identity)

end Functions

/-! ## What has happened when a function returns -/

section Outcomes

variable {primitives : Primitives} {trust : Trust} {me : Identity}
variable {sign : Fixed 32 → Signature}

theorem clientFinish_ok
    (accepted : clientFinish primitives state sh trust me sign = .ok (session, cf, server)) :
    ∃ hello : ServerHello, sh.length = shLen ∧ ServerHello.parse sh = some hello ∧
        server = hello.offer.identity ∧
        trust server (primitives.crypto.sha256 (serverText state.ch (sh.take shUnsigned)))
          hello.signature ∧
        cf = ClientFinish.bytes
          ⟨me, sign (primitives.crypto.sha256 (clientText state.ch sh me.bytes))⟩ ∧
        session =
          let secrets := state.secrets primitives hello.offer
          let keys := derive primitives.crypto primitives.hkdf state.ch sh cf secrets.1 secrets.2
          Session.new keys.1 keys.2 := by
  unfold clientFinish at accepted
  split at accepted
  · cases accepted
  rename_i length
  split at accepted
  · cases accepted
  rename_i hello parsed
  dsimp only at accepted
  split at accepted
  · cases accepted
  rename_i trusted
  cases accepted
  exact ⟨hello, not_not.mp length, parsed, rfl, Bool.eq_true_of_not_eq_false trusted, rfl, rfl⟩

variable {state : ServerState}

theorem serverRespond_ok (answered : serverRespond primitives ch random me sign = .ok (state, sh)) :
    ∃ hello ciphertext kemShared,
      let offer : ServerOffer :=
        ⟨random.nonce, primitives.exchange.xPublic random.x25519, ciphertext, me⟩
      ch.length = chLen ∧ ClientHello.parse (ch.drop 1) = some hello ∧
        primitives.exchange.encapsulate hello.kemPublic random.kemM = some (ciphertext, kemShared) ∧
        sh = ServerHello.bytes
          ⟨offer, sign (primitives.crypto.sha256 (serverText ch offer.bytes))⟩ ∧
        state = ⟨ch, sh,
          primitives.exchange.diffieHellman random.x25519 hello.xPublic, kemShared⟩ := by
  unfold serverRespond at answered
  split at answered
  · cases answered
  rename_i length
  split at answered
  · cases answered
  split at answered
  · cases answered
  rename_i hello parsed
  split at answered
  · cases answered
  rename_i ciphertext kemShared encapsulated
  cases answered
  exact ⟨hello, ciphertext, kemShared, not_not.mp length, parsed, encapsulated, rfl, rfl⟩

theorem serverFinish_ok
    (accepted : serverFinish primitives state cf trust = .ok (session, client)) :
    ∃ finish : ClientFinish, cf.length = cfLen ∧ ClientFinish.parse cf = some finish ∧
        client = finish.identity ∧
        trust client (primitives.crypto.sha256
          (clientText state.ch state.sh (cf.take identityLen))) finish.signature ∧
        session =
          let keys := derive primitives.crypto primitives.hkdf state.ch state.sh cf
            state.xShared state.kemShared
          Session.new keys.2 keys.1 := by
  unfold serverFinish at accepted
  split at accepted
  · cases accepted
  rename_i length
  split at accepted
  · cases accepted
  rename_i finish parsed
  dsimp only at accepted
  split at accepted
  · cases accepted
  rename_i trusted
  cases accepted
  exact ⟨finish, not_not.mp length, parsed, rfl, Bool.eq_true_of_not_eq_false trusted, rfl⟩

theorem clientFinish_bytes {state : ClientState} {hello : ServerHello}
    (trusted : trust hello.offer.identity
      (primitives.crypto.sha256 (serverText state.ch hello.offer.bytes))
      hello.signature) :
    clientFinish primitives state hello.bytes trust me sign =
      let cf := ClientFinish.bytes ⟨me, sign (primitives.crypto.sha256
        (clientText state.ch hello.bytes me.bytes))⟩
      let secrets := state.secrets primitives hello.offer
      let keys := derive primitives.crypto primitives.hkdf state.ch hello.bytes cf
        secrets.1 secrets.2
      .ok (Session.new keys.1 keys.2, cf, hello.offer.identity) := by
  rw [clientFinish, if_neg (not_not.mpr hello.length_bytes), hello.parse_bytes, hello.take_bytes]
  dsimp only
  rw [if_neg (by rw [trusted]; decide)]

/-- A hello that was delivered is answered if its key is well formed. -/
theorem serverRespond_bytes {hello : ClientHello}
    (encapsulated : primitives.exchange.encapsulate hello.kemPublic random.kemM =
      some (ciphertext, kemShared)) :
    serverRespond primitives hello.bytes random me sign =
      let offer : ServerOffer :=
        ⟨random.nonce, primitives.exchange.xPublic random.x25519, ciphertext, me⟩
      let sh := ServerHello.bytes
        ⟨offer, sign (primitives.crypto.sha256 (serverText hello.bytes offer.bytes))⟩
      .ok (⟨hello.bytes, sh,
        primitives.exchange.diffieHellman random.x25519 hello.xPublic, kemShared⟩, sh) := by
  have first : hello.bytes.head? = some version := rfl
  rw [serverRespond, if_neg (not_not.mpr hello.length_bytes),
    if_neg (not_not.mpr first), hello.parse_bytes]
  dsimp only
  rw [encapsulated]

/-- A finish that was delivered is accepted if its sender is trusted. -/
theorem serverFinish_bytes {finish : ClientFinish}
    (trusted : trust finish.identity (primitives.crypto.sha256
      (clientText state.ch state.sh finish.identity.bytes)) finish.signature) :
    serverFinish primitives state finish.bytes trust =
      let keys := derive primitives.crypto primitives.hkdf state.ch state.sh finish.bytes
        state.xShared state.kemShared
      .ok (Session.new keys.2 keys.1, finish.identity) := by
  rw [serverFinish, if_neg (not_not.mpr finish.length_bytes), finish.parse_bytes, finish.take_bytes]
  dsimp only
  rw [if_neg (by rw [trusted]; decide)]

end Outcomes

/-! ## The signed texts

The parts of a text have no separators; fixed lengths keep them apart. -/

section Texts

variable {ch ch' sh sh' last last' : Bytes}

theorem digestInput_inj (equal : digestInput label parts = digestInput label parts') :
    parts.flatten = parts'.flatten :=
  List.append_cancel_left equal

theorem serverText_inj (length : ch.length = ch'.length)
    (equal : serverText ch last = serverText ch' last') : ch = ch' ∧ last = last' := by
  have parts := digestInput_inj equal
  simp only [List.flatten_cons, List.flatten_nil, List.append_nil] at parts
  exact List.append_inj parts length

theorem flatten_three_inj (chLength : ch.length = ch'.length) (shLength : sh.length = sh'.length)
    (equal : [ch, sh, last].flatten = [ch', sh', last'].flatten) :
    ch = ch' ∧ sh = sh' ∧ last = last' := by
  simp only [List.flatten_cons, List.flatten_nil, List.append_nil] at equal
  obtain ⟨sameCh, rest⟩ := List.append_inj equal chLength
  exact ⟨sameCh, List.append_inj rest shLength⟩

theorem clientText_inj (chLength : ch.length = ch'.length) (shLength : sh.length = sh'.length)
    (equal : clientText ch sh last = clientText ch' sh' last') :
    ch = ch' ∧ sh = sh' ∧ last = last' :=
  flatten_three_inj chLength shLength (digestInput_inj equal)

/-- The labels keep the two roles apart. -/
theorem serverText_ne_clientText : serverText ch last ≠ clientText ch' sh' last' := by
  intro equal
  have front := congrArg (List.take 18) equal
  simp [serverText, clientText, digestInput, protocol, ascii] at front

end Texts
end Cdk.Link

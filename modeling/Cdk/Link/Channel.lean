import Mathlib.Data.List.Nodup
import Cdk.Link.Session

/-!
# Two sessions and what is between them

Two parties seal and open messages in any order, and what a party is given to open is anything
at all.  The cipher opens nothing that was not encrypted under the same key and nonce.
`sealed_channel_integrity`: what one side opens is a beginning of what the other side has
sealed, and no nonce is used twice.
-/

namespace Cdk.Link

open ByteFormat Function

/-- The two ends of a channel. -/
inductive Side
  | client
  | server
  deriving DecidableEq

/-- The other end. -/
def Side.peer : Side → Side
  | client => server
  | server => client

@[simp] theorem Side.peer_peer (side : Side) : side.peer.peer = side := by
  cases side <;> rfl

@[simp] theorem Side.peer_ne (side : Side) : side.peer ≠ side := by
  cases side <;> decide

theorem Side.eq_or_eq_peer (side other : Side) : other = side ∨ other = side.peer := by
  cases side <;> cases other <;> decide

/-- One use of the cipher to encrypt. -/
structure Encryption where
  key : Fixed 32
  nonce : Fixed 12
  aad : Bytes
  plaintext : Bytes
  ciphertext : Bytes
  tag : Fixed 16
  deriving DecidableEq

/-- The encryption that sealing makes. -/
def Session.encryption (aead : Aead) (session : Session) (plaintext : Bytes) : Option Encryption :=
  let nonce := Session.nonce session.txSeq
  let aad := Session.aad session.txSeq
  (aead.encrypt session.tx nonce aad plaintext).map fun made =>
    ⟨session.tx, nonce, aad, plaintext, made.1, made.2⟩

/-- The two sessions and what has happened. -/
structure Channel where
  session : Side → Session
  /-- The messages each side has sealed. -/
  sealings : Side → List Encryption
  /-- The texts each side has opened. -/
  opened : Side → List Bytes

namespace Channel

/-- What somebody does next. -/
inductive Move
  | «seal» (side : Side) (plaintext : Bytes) (room : Nat)
  | «open» (side : Side) (sealed : Bytes) (room : Nat)

/-- One step. -/
def step (aead : Aead) (channel : Channel) : Move → Channel
  | .seal side plaintext room =>
    let session := channel.session side
    let result := session.seal aead plaintext room
    { channel with
      session := update channel.session side result.1
      sealings :=
        match result.2 with
        | .ok _ =>
          update channel.sealings side
            (channel.sealings side ++ (session.encryption aead plaintext).toList)
        | .error _ => channel.sealings }
  | .open side sealed room =>
    let result := (channel.session side).open aead sealed room
    { channel with
      session := update channel.session side result.1
      opened :=
        match result.2 with
        | .ok plaintext =>
          update channel.opened side (channel.opened side ++ [plaintext])
        | .error _ => channel.opened }

def sent (channel : Channel) (side : Side) : List Bytes :=
  (channel.sealings side).map Encryption.plaintext

/-- What is about to be decrypted has been encrypted before, under the same key
and with the same nonce. -/
def Genuine (aead : Aead) (channel : Channel) : Move → Prop
  | .seal _ _ _ => True
  | .open side sealed _ =>
    let session := channel.session side
    (session.decrypts aead sealed).isSome →
      ∃ made ∈ channel.sealings .client ++ channel.sealings .server, made.key = session.rx ∧
          made.nonce = Session.nonce (Session.seqOf sealed) ∧
          made.aad = Session.aad (Session.seqOf sealed) ∧
          made.ciphertext = Session.bodyOf sealed ∧
          some made.tag = Session.tagOf sealed

instance (aead : Aead) (channel : Channel) (move : Move) :
    Decidable (Genuine aead channel move) := by
  unfold Genuine
  cases move <;> infer_instance

def start (keys : Fixed 32 × Fixed 32) : Channel where
  session
    | .client => .new keys.1 keys.2
    | .server => .new keys.2 keys.1
  sealings _ := []
  opened _ := []

/-! ## One direction -/

/-- What one side sends and the other receives. -/
structure Direction where
  txKey : Fixed 32
  rxKey : Fixed 32
  txSeq : UInt64
  rxSeq : UInt64
  sealings : List Encryption
  opened : List Bytes

/-- One direction of the channel. -/
def direction (channel : Channel) (side : Side) : Direction where
  txKey := (channel.session side).tx
  rxKey := (channel.session side.peer).rx
  txSeq := (channel.session side).txSeq
  rxSeq := (channel.session side.peer).rxSeq
  sealings := channel.sealings side
  opened := channel.opened side.peer

/-- What is sealed is numbered from zero, and what is opened is the first of it,
up to the receiver's counter. -/
structure Direction.Ordered (aead : Aead) (direction : Direction) : Prop where
  mirrored : direction.txKey = direction.rxKey
  counted : direction.txSeq.toNat = direction.sealings.length
  made : ∀ entry ∈ direction.sealings, entry.key = direction.txKey ∧
      aead.encrypt entry.key entry.nonce entry.aad entry.plaintext =
        some (entry.ciphertext, entry.tag)
  numbered : direction.sealings.map Encryption.nonce = (List.range direction.sealings.length).map
      fun index => Session.nonce (UInt64.ofNat index)
  received : direction.rxSeq.toNat ≤ direction.sealings.length
  opened : direction.opened =
    (direction.sealings.map Encryption.plaintext).take direction.rxSeq.toNat

open Session

namespace Direction.Ordered

variable {aead : Aead} {direction : Direction}

variable (ordered : direction.Ordered aead)
include ordered

/-- The number of a message says where it is among the sealed ones. -/
theorem nonce_eq (within : index < direction.sealings.length) :
    direction.sealings[index].nonce = nonce (UInt64.ofNat index) := by
  have listed := congrArg (·[index]?) ordered.numbered
  simpa [within] using listed

theorem length_lt : direction.sealings.length < 2 ^ 64 := by
  rw [← ordered.counted]
  exact direction.txSeq.toNat_lt

theorem nodup_nonces : (direction.sealings.map Encryption.nonce).Nodup := by
  rw [ordered.numbered]
  refine List.Nodup.map_on ?_ List.nodup_range
  intro left leftListed right rightListed equal
  have few := ordered.length_lt
  have leftSmall := List.mem_range.mp leftListed
  have rightSmall := List.mem_range.mp rightListed
  have same := congrArg UInt64.toNat (nonce_injective equal)
  rwa [UInt64.toNat_ofNat', UInt64.toNat_ofNat', Nat.mod_eq_of_lt (by omega),
    Nat.mod_eq_of_lt (by omega)] at same

theorem «seal» (left : direction.txSeq ≠ 0xFFFFFFFFFFFFFFFF)
    (encrypted :
      aead.encrypt direction.txKey (nonce direction.txSeq) (aad direction.txSeq) plaintext =
        some (body, tag)) :
    Ordered aead
      { direction with
        txSeq := direction.txSeq + 1
        sealings := direction.sealings ++
          [⟨direction.txKey, nonce direction.txSeq,
            aad direction.txSeq, plaintext, body, tag⟩] } where
  mirrored := ordered.mirrored
  counted := by
    have := ordered.counted
    simp only [List.length_append, List.length_singleton]
    have top : direction.txSeq.toNat ≠ 0xFFFFFFFFFFFFFFFF := by
      intro equal
      exact left (UInt64.toNat.inj equal)
    have := direction.txSeq.toNat_lt
    rw [UInt64.toNat_add, UInt64.toNat_one]
    omega
  made := by
    exact List.forall_mem_append.mpr ⟨ordered.made, List.forall_mem_singleton.mpr ⟨rfl, encrypted⟩⟩
  numbered := by
    simp only [List.map_append, List.length_append, List.length_singleton,
      List.range_succ, List.map_cons, List.map_nil, ordered.numbered]
    rw [← ordered.counted, UInt64.ofNat_toNat]
  received := by
    simpa using ordered.received.trans (Nat.le_succ _)
  opened := by
    simp only [List.map_append]
    rw [List.take_append_of_le_length (by simpa using ordered.received)]
    exact ordered.opened

/-- The message with the receiver's number is opened. -/
theorem «open» (listed : entry ∈ direction.sealings) (next : entry.nonce = nonce direction.rxSeq) :
    Ordered aead
      { direction with
        rxSeq := direction.rxSeq + 1
        opened := direction.opened ++ [entry.plaintext] } := by
  obtain ⟨index, within, rfl⟩ := List.mem_iff_getElem.mp listed
  have few := ordered.length_lt
  -- the entry is the one at the receiver's counter
  have number : UInt64.ofNat index = direction.rxSeq :=
    nonce_injective ((ordered.nonce_eq within).symm.trans next)
  have counter : direction.rxSeq.toNat = index := by
    rw [← number, UInt64.toNat_ofNat', Nat.mod_eq_of_lt (by omega)]
  have onward : (direction.rxSeq + 1).toNat = index + 1 := by
    rw [UInt64.toNat_add, UInt64.toNat_one, counter]
    omega
  refine ⟨ordered.mirrored, ordered.counted, ordered.made, ordered.numbered, ?_, ?_⟩
  · simp only [onward]
    omega
  · simp only [onward, ordered.opened, counter]
    rw [List.take_add_one, List.getElem?_map, List.getElem?_eq_getElem within]
    rfl

end Direction.Ordered

/-! ## Both directions -/

/-- After sealing. -/
def sealed (channel : Channel) (side : Side) (entry : Encryption) : Channel :=
  let session := channel.session side
  { channel with
    session := update channel.session side
      { session with txSeq := session.txSeq + 1 }
    sealings := update channel.sealings side (channel.sealings side ++ [entry]) }

/-- After opening. -/
def delivered (channel : Channel) (side : Side) (plaintext : Bytes) : Channel :=
  let session := channel.session side
  { channel with
    session := update channel.session side
      { session with rxSeq := session.rxSeq + 1 }
    opened := update channel.opened side (channel.opened side ++ [plaintext]) }

section Directions

variable (channel : Channel) (side : Side)

@[simp] theorem direction_sealed_self (entry : Encryption) :
    (channel.sealed side entry).direction side =
      { channel.direction side with
        txSeq := (channel.session side).txSeq + 1
        sealings := channel.sealings side ++ [entry] } := by
  simp [direction, sealed]

@[simp] theorem direction_sealed_peer (entry : Encryption) :
    (channel.sealed side entry).direction side.peer = channel.direction side.peer := by
  simp [direction, sealed]

@[simp] theorem direction_delivered_self (plaintext : Bytes) :
    (channel.delivered side plaintext).direction side = channel.direction side := by
  simp [direction, delivered]

@[simp] theorem direction_delivered_peer (plaintext : Bytes) :
    (channel.delivered side plaintext).direction side.peer =
      { channel.direction side.peer with
        rxSeq := (channel.session side).rxSeq + 1
        opened := channel.opened side ++ [plaintext] } := by
  simp [direction, delivered]

end Directions

theorem step_cases (aead : Aead) (channel : Channel) (move : Move) :
    step aead channel move = channel ∨ (∃ side plaintext room body tag,
        let session := channel.session side
        let entry : Encryption :=
          ⟨session.tx, nonce session.txSeq, aad session.txSeq, plaintext, body, tag⟩
        move = .seal side plaintext room ∧ session.txSeq ≠ 0xFFFFFFFFFFFFFFFF ∧
          aead.encrypt entry.key entry.nonce entry.aad plaintext = some (body, tag) ∧
          step aead channel move = channel.sealed side entry) ∨
      ∃ side bytes room plaintext,
        let session := channel.session side
        move = .open side bytes room ∧ seqOf bytes = session.rxSeq ∧
          session.decrypts aead bytes = some plaintext ∧
          step aead channel move = channel.delivered side plaintext := by
  cases move with
  | «seal» side plaintext room =>
    rcases seal_cases aead (channel.session side) plaintext room with
      ⟨error, failed⟩ | ⟨body, tag, left, -, encrypted, done⟩
    · exact .inl (by simp [step, failed])
    · refine .inr (.inl ⟨side, plaintext, room, body, tag, rfl, left, encrypted, ?_⟩)
      simp [step, done, sealed, Session.encryption, encrypted]
  | «open» side bytes room =>
    rcases open_cases aead (channel.session side) bytes room with
      ⟨error, failed⟩ | ⟨plaintext, next, decrypted, done⟩
    · exact .inl (by simp [step, failed])
    · refine .inr (.inr ⟨side, bytes, room, plaintext, rfl, next, decrypted, ?_⟩)
      simp [step, done, delivered]

/-- The two directions have keys of their own, and both are in order. -/
structure Intact (aead : Aead) (channel : Channel) : Prop where
  distinct : ∀ side, (channel.direction side).txKey ≠ (channel.direction side.peer).txKey
  ordered : ∀ side, (channel.direction side).Ordered aead

theorem start_intact (aead : Aead) (distinct : keys.1 ≠ keys.2) : Intact aead (start keys) where
  distinct side := by
    cases side with
    | client => exact distinct
    | server => exact distinct.symm
  ordered side := by
    cases side <;>
      exact ⟨rfl, rfl, by simp [direction, start], rfl, Nat.zero_le _, rfl⟩

namespace Intact

variable {aead : Aead} {channel : Channel}

variable (intact : Intact aead channel)
include intact

theorem «seal» (left : (channel.session side).txSeq ≠ 0xFFFFFFFFFFFFFFFF)
    (encrypted :
      aead.encrypt (channel.session side).tx (nonce (channel.session side).txSeq)
        (aad (channel.session side).txSeq) plaintext = some (body, tag)) :
    Intact aead (channel.sealed side
        ⟨(channel.session side).tx, nonce (channel.session side).txSeq,
          aad (channel.session side).txSeq, plaintext, body, tag⟩) := by
  constructor
  · intro other
    rcases side.eq_or_eq_peer other with rfl | rfl
    · simpa using intact.distinct other
    · simpa using intact.distinct side.peer
  · intro other
    rcases side.eq_or_eq_peer other with rfl | rfl
    · rw [direction_sealed_self]
      exact (intact.ordered other).seal left encrypted
    · rw [direction_sealed_peer]
      exact intact.ordered side.peer

/-- What decrypts is the plaintext of a message that the peer has sealed under
the number in question. -/
theorem sealed_by_peer (genuine : Genuine aead channel (.open side bytes room))
    (decrypted : (channel.session side).decrypts aead bytes = some plaintext) :
    ∃ entry ∈ channel.sealings side.peer, entry.nonce = nonce (seqOf bytes) ∧
        entry.plaintext = plaintext := by
  obtain ⟨entry, listed, key, nonce, aad, body, tag⟩ := genuine (by simp [decrypted])
  have somebody : ∃ sender, entry ∈ channel.sealings sender := by
    rcases List.mem_append.mp listed with listed | listed
    · exact ⟨.client, listed⟩
    · exact ⟨.server, listed⟩
  obtain ⟨sender, sent⟩ := somebody
  obtain ⟨senderKey, encrypted⟩ := (intact.ordered sender).made entry sent
  -- a message of this side's own is under the other key
  have sender_eq : sender = side.peer := by
    rcases side.eq_or_eq_peer sender with rfl | same
    · have mirrored := (intact.ordered sender.peer).mirrored
      simp only [direction, Side.peer_peer] at mirrored
      refine absurd ?_ (intact.distinct sender)
      exact senderKey.symm.trans (key.trans mirrored.symm)
    · exact same
  subst sender_eq
  refine ⟨entry, sent, nonce, ?_⟩
  have opens := aead.decrypt_encrypt encrypted
  rw [key, nonce, aad, body] at opens
  unfold decrypts at decrypted
  rw [← tag, Option.bind_some, opens] at decrypted
  exact Option.some.inj decrypted

theorem «open» (genuine : Genuine aead channel (.open side bytes room))
    (next : seqOf bytes = (channel.session side).rxSeq)
    (decrypted : (channel.session side).decrypts aead bytes = some plaintext) :
    Intact aead (channel.delivered side plaintext) := by
  obtain ⟨entry, sent, nonce, rfl⟩ := intact.sealed_by_peer genuine decrypted
  rw [next] at nonce
  constructor
  · intro other
    rcases side.eq_or_eq_peer other with rfl | rfl
    · simpa using intact.distinct other
    · simpa using intact.distinct side.peer
  · intro other
    rcases side.eq_or_eq_peer other with rfl | rfl
    · rw [direction_delivered_self]
      exact intact.ordered other
    · have ordered := (intact.ordered side.peer).open sent (by simpa [direction] using nonce)
      rw [direction_delivered_peer]
      simpa [direction] using ordered

theorem step {move : Move} (genuine : Genuine aead channel move) :
    Intact aead (Channel.step aead channel move) := by
  rcases step_cases aead channel move with
    same | ⟨side, plaintext, room, body, tag, rfl, left, encrypted, done⟩ |
      ⟨side, bytes, room, plaintext, rfl, next, decrypted, done⟩
  · rwa [same]
  · rw [done]
    exact intact.seal left encrypted
  · rw [done]
    exact intact.open genuine next decrypted

end Intact

theorem Intact.opened_prefix_sent (intact : Intact aead channel) (side : Side) :
    channel.opened side <+: channel.sent side.peer := by
  have opened := (intact.ordered side.peer).opened
  simp only [direction, Side.peer_peer] at opened
  rw [opened]
  exact List.take_prefix _ _

/-- Whatever is done to the messages between two sessions with mirrored keys,
each side opens a beginning of what the other has sealed, no session uses a
nonce twice, and a failed seal or open leaves its session as it is.  The keys of
the two directions are different, as HKDF makes them for its two labels. -/
theorem sealed_channel_integrity
    (aead : Aead)
    (keys : Fixed 32 × Fixed 32)
    (distinct : keys.1 ≠ keys.2)
    (moves : List Move)
    (genuine : Run.Along (step aead) (Genuine aead) (start keys) moves) :
    let channel := Run.after (step aead) (start keys) moves
    (∀ side, channel.opened side <+: channel.sent side.peer) ∧
      (∀ side, ((channel.sealings side).map Encryption.nonce).Nodup) ∧
      (∀ side text room error, ((channel.session side).seal aead text room).2 = .error error →
          ((channel.session side).seal aead text room).1 = channel.session side) ∧
      (∀ side bytes room error, ((channel.session side).open aead bytes room).2 = .error error →
          ((channel.session side).open aead bytes room).1 = channel.session side) := by
  have intact : Intact aead (Run.after (step aead) (start keys) moves) :=
    Run.invariant (start_intact aead distinct)
      (fun _ _ holds condition => holds.step condition) genuine
  refine ⟨intact.opened_prefix_sent, fun side => (intact.ordered side).nodup_nonces, ?_, ?_⟩
  · intro side text room error failed
    exact Session.seal_error failed
  · intro side bytes room error failed
    exact Session.open_error failed

def sampleKeys : Fixed 32 × Fixed 32 := (Fixed.replicate 32 1, Fixed.replicate 32 2)

/-- The client's message with the given number. -/
def sampleSealed (seq : UInt64) (plaintext : Bytes) : Bytes :=
  match (Session.seal sampleAead ⟨sampleKeys.1, sampleKeys.2, seq, 0⟩ plaintext 64).2 with
  | .ok bytes => bytes
  | .error _ => []

/-- The client seals two messages.  The server is given the second, the first
twice, and the first with a changed byte. -/
def sampleMoves : List Move := [.seal .client [1] 64, .seal .client [2] 64,
    .open .server (sampleSealed 1 [2]) 64, .open .server (sampleSealed 0 [1]) 64,
    .open .server (sampleSealed 0 [1]) 64,
    .open .server ((sampleSealed 1 [2]).set 8 3) 64]

theorem sealed_channel_integrity_sample :
    let channel := Run.after (step sampleAead) (start sampleKeys) sampleMoves
    channel.opened .server = [[1]] ∧ channel.sent .client = [[1], [2]] ∧
      (∀ side, channel.opened side <+: channel.sent side.peer) := by
  refine ⟨by decide +kernel, by decide +kernel, ?_⟩
  have genuine : Run.Along (step sampleAead) (Genuine sampleAead) (start sampleKeys)
      sampleMoves := by
    decide +kernel
  exact (sealed_channel_integrity sampleAead sampleKeys (by decide) sampleMoves genuine).1

end Channel
end Cdk.Link

import Cdk.Library.Run
import Cdk.Link.Fragments
import Cdk.Link.Store

/-!
# Sealed sessions

An established session has one key and one counter for each direction.  A
sealed message is its number, the encrypted text and a tag; the number is also
the nonce.  A session opens only the message whose number comes next.
-/

namespace Cdk.Link

open ByteFormat

def protocol : Bytes := ascii "CDK-LINK-v1"

/-! ## Session keys -/

/-- HKDF-SHA256: a salt and key material, expanded for a label. -/
abbrev Hkdf := Fixed 32 → Fixed 64 → Bytes → Fixed 32

def digestInput (label : Bytes) (parts : List Bytes) : Bytes :=
  protocol ++ ascii " " ++ label ++ parts.flatten

/-- A hash for one purpose. -/
def digest (crypto : Crypto) (label : Bytes) (parts : List Bytes) : Fixed 32 :=
  crypto.sha256 (digestInput label parts)

/-- The keys from the client to the server and back. -/
def derive (crypto : Crypto) (hkdf : Hkdf) (ch sh cf : Bytes)
    (xShared kemShared : Fixed 32) : Fixed 32 × Fixed 32 :=
  let salt := digest crypto (ascii "keys") [ch, sh, cf]
  let material : Fixed 64 := ⟨xShared.bytes ++ kemShared.bytes, by simp⟩
  (hkdf salt material (ascii "CDK-LINK-v1 c2s"), hkdf salt material (ascii "CDK-LINK-v1 s2c"))

/-! ## Sessions -/

/-- Why a message is not sealed or not opened. -/
inductive SealError
  | tooLarge
  | bufferTooSmall
  | sequence
  | auth
  | exhausted
  deriving DecidableEq

/-- The number and the tag of a sealed message. -/
def sealOverhead : Nat := 8 + 16

/-- The longest text of a sealed message. -/
def maxPlaintext : Nat := maxPayload - sealOverhead

/-- An established session. -/
structure Session where
  tx : Fixed 32
  rx : Fixed 32
  /-- The number of the next message to seal. -/
  txSeq : UInt64
  /-- The number of the next message to open. -/
  rxSeq : UInt64
  deriving DecidableEq

namespace Session

/-- A session in which nothing has been sent. -/
def new (txKey rxKey : Fixed 32) : Session := ⟨txKey, rxKey, 0, 0⟩

def nonce (seq : UInt64) : Fixed 12 := ⟨[0, 0, 0, 0] ++ le64 seq, by simp⟩

/-- What is authenticated beside the text. -/
def aad (seq : UInt64) : Bytes := protocol ++ le64 seq

/-- Number and encrypt a message. -/
def «seal» (aead : Aead) (session : Session) (plaintext : Bytes) (room : Nat) :
    Session × Except SealError Bytes :=
  if maxPlaintext < plaintext.length then (session, .error .tooLarge)
  else if room < 8 + plaintext.length + 16 then (session, .error .bufferTooSmall)
  else if session.txSeq = 0xFFFFFFFFFFFFFFFF then (session, .error .exhausted)
  else
    let seq := session.txSeq
    match aead.encrypt session.tx (nonce seq) (aad seq) plaintext with
    | none => (session, .error .auth)
    | some (body, tag) =>
      ({ session with txSeq := session.txSeq + 1 }, .ok (le64 seq ++ body ++ tag.bytes))

def seqOf (sealed : Bytes) : UInt64 := UInt64.ofNat (leValue (sealed.take 8))

/-- The encrypted text of a sealed message. -/
def bodyOf (sealed : Bytes) : Bytes := (sealed.drop 8).take (sealed.length - sealOverhead)

def tagOf (sealed : Bytes) : Option (Fixed 16) :=
  Fixed.ofBytes? 16 (sealed.drop (8 + (sealed.length - sealOverhead)))

/-- Decrypt under its own number. -/
def decrypts (aead : Aead) (session : Session) (sealed : Bytes) : Option Bytes :=
  (tagOf sealed).bind (aead.decrypt session.rx (nonce (seqOf sealed)) (aad (seqOf sealed))
      (bodyOf sealed))

/-- Open a sealed message into a buffer of the given room.  It must have exactly
the next number. -/
def «open» (aead : Aead) (session : Session) (sealed : Bytes) (room : Nat) :
    Session × Except SealError Bytes :=
  if sealed.length < sealOverhead then (session, .error .auth)
  else if room < sealed.length - sealOverhead then (session, .error .bufferTooSmall)
  else if seqOf sealed ≠ session.rxSeq then (session, .error .sequence)
  else
    match session.decrypts aead sealed with
    | none => (session, .error .auth)
    | some plaintext =>
      ({ session with rxSeq := session.rxSeq + 1 }, .ok plaintext)

section Outcomes

variable {aead : Aead} {session : Session} {text : Bytes} {room : Nat}

theorem seal_cases (aead : Aead) (session : Session) (text : Bytes) (room : Nat) :
    (∃ error, session.seal aead text room = (session, .error error)) ∨ ∃ body tag,
        session.txSeq ≠ 0xFFFFFFFFFFFFFFFF ∧ text.length ≤ maxPlaintext ∧
          aead.encrypt session.tx (nonce session.txSeq) (aad session.txSeq) text =
            some (body, tag) ∧
          session.seal aead text room = ({ session with txSeq := session.txSeq + 1 },
              .ok (le64 session.txSeq ++ body ++ tag.bytes)) := by
  unfold «seal»
  split
  · exact .inl ⟨_, rfl⟩
  rename_i short
  split
  · exact .inl ⟨_, rfl⟩
  split
  · exact .inl ⟨_, rfl⟩
  rename_i left
  simp only
  split
  · exact .inl ⟨_, rfl⟩
  · rename_i body tag encrypted
    exact .inr ⟨body, tag, left, not_lt.mp short, encrypted, rfl⟩

/-- A message is opened under the next number, or nothing happens. -/
theorem open_cases (aead : Aead) (session : Session) (sealed : Bytes) (room : Nat) :
    (∃ error, session.open aead sealed room = (session, .error error)) ∨ ∃ plaintext,
        seqOf sealed = session.rxSeq ∧ session.decrypts aead sealed = some plaintext ∧
          session.open aead sealed room =
            ({ session with rxSeq := session.rxSeq + 1 }, .ok plaintext) := by
  unfold «open»
  split
  · exact .inl ⟨_, rfl⟩
  split
  · exact .inl ⟨_, rfl⟩
  split
  · exact .inl ⟨_, rfl⟩
  rename_i next
  split
  · exact .inl ⟨_, rfl⟩
  · rename_i plaintext decrypted
    exact .inr ⟨plaintext, not_not.mp next, decrypted, rfl⟩

theorem seal_error (failed : (session.seal aead text room).2 = .error error) :
    (session.seal aead text room).1 = session := by
  rcases seal_cases aead session text room with ⟨_, same⟩ | ⟨_, _, -, -, -, done⟩
  · rw [same]
  · rw [done] at failed
    cases failed

theorem open_error (failed : (session.open aead text room).2 = .error error) :
    (session.open aead text room).1 = session := by
  rcases open_cases aead session text room with ⟨_, same⟩ | ⟨_, -, -, done⟩
  · rw [same]
  · rw [done] at failed
    cases failed

end Outcomes

/-! ## Round trip -/

section Sealed

variable {seq : UInt64} {body : Bytes} {tag : Fixed 16}

@[simp] theorem length_sealed :
    (le64 seq ++ body ++ tag.bytes).length = body.length + sealOverhead := by
  simp [sealOverhead]
  omega

@[simp] theorem seqOf_sealed : seqOf (le64 seq ++ body ++ tag.bytes) = seq := by
  have front : (le64 seq ++ body ++ tag.bytes).take 8 = le64 seq := by
    rw [List.append_assoc]
    exact List.take_left' (length_le64 seq)
  rw [seqOf, front, ofNat_leValue_le64]

@[simp] theorem bodyOf_sealed : bodyOf (le64 seq ++ body ++ tag.bytes) = body := by
  rw [bodyOf, length_sealed, Nat.add_sub_cancel, List.append_assoc,
    List.drop_left' (length_le64 seq), List.take_left]

@[simp] theorem tagOf_sealed : tagOf (le64 seq ++ body ++ tag.bytes) = some tag := by
  have front : (le64 seq ++ body).length = 8 + body.length := by simp
  rw [tagOf, length_sealed, Nat.add_sub_cancel, List.drop_left' front, Fixed.ofBytes?_bytes]

theorem open_sealed {session : Session} (short : plaintext.length ≤ maxPlaintext)
    (encrypted : aead.encrypt session.rx (nonce seq) (aad seq) plaintext = some (body, tag)) :
    session.open aead (le64 seq ++ body ++ tag.bytes) maxPayload = if seq = session.rxSeq then
        ({ session with rxSeq := session.rxSeq + 1 }, .ok plaintext)
      else (session, .error .sequence) := by
  have length := aead.length_encrypt encrypted
  have room : ¬maxPayload < body.length := by
    rw [length]
    have : maxPlaintext ≤ maxPayload := Nat.sub_le _ _
    omega
  have long : ¬body.length + sealOverhead < sealOverhead := by omega
  have decrypted : session.decrypts aead (le64 seq ++ body ++ tag.bytes) = some plaintext := by
    rw [decrypts, tagOf_sealed, seqOf_sealed, bodyOf_sealed, Option.bind_some,
      aead.decrypt_encrypt encrypted]
  unfold «open»
  rw [length_sealed, if_neg long, Nat.add_sub_cancel, if_neg room, seqOf_sealed, decrypted]
  by_cases next : seq = session.rxSeq
  · rw [if_neg (not_not.mpr next), if_pos next]
  · rw [if_pos next, if_neg next]

end Sealed

theorem nonce_injective : Function.Injective nonce := by
  intro left right equal
  exact le64_injective (List.append_cancel_left (congrArg Fixed.bytes equal))

end Session
end Cdk.Link

import Cdk.Library.Bounded
import Cdk.Link.Blob
import Cdk.Link.Store

/-!
# The kernel's revocation and replay lists

A node refuses what it revoked, delivered and imported by three lists of fixed capacity, into
which the gateway's list and the sealed store are merged as long as there is room.
`restore_survives_iff` says when a load keeps everything the store held.
-/

namespace Cdk.Peer

open ByteFormat Link BoundedVec

/-- Why an import or a peer message was refused. -/
inductive Reject where
  | noRegistry
  | badSignature
  | notForUs
  | replayed
  | notTrusted
  | malformed
  | expired
  | noSend
  | revoked
  | noObject
  | store
  deriving DecidableEq, Repr

/-- A refusal: the audited reason and the message. -/
structure Refusal where
  reason : Reject
  text : String
  deriving DecidableEq, Repr

/-- The lists of one boot. -/
structure Lists where
  /-- Serials of delegations this node revoked. -/
  revoked : BoundedVec UInt64 maxRevoked
  /-- Peer messages delivered. -/
  seen : BoundedVec Seen maxDelivered
  imported : BoundedVec Seen maxImported
  deriving DecidableEq

/-- The lists before anything happened. -/
def Lists.empty : Lists := ⟨.empty, .empty, .empty⟩

/-- The records the sealed store keeps. -/
def snapshot (lists : Lists) : Records where
  revoked := lists.revoked.items
  delivered := lists.seen.items
  imported := lists.imported.items

/-- Add the entries that the list lacks, while it has room. -/
def merge (list : BoundedVec Seen capacity) (stored : List Seen) : BoundedVec Seen capacity :=
  list.absorbUntilFull Seen.key stored

/-- Merge the records of the sealed store into the lists of this boot. -/
def restore (lists : Lists) (records : Records) : Lists where
  revoked := lists.revoked.absorb id records.revoked
  seen := merge lists.seen records.delivered
  imported := merge lists.imported records.imported

/-- Apply a revocation list from the gateway. -/
def onRevocations (revoked : BoundedVec UInt64 maxRevoked)
    (bytes : Bytes) : BoundedVec UInt64 maxRevoked :=
  match decodeRevocations bytes with
  | none => revoked
  | some serials => revoked.absorbUntilFull id serials

/-- The permission bit of `send`. -/
def sendBit : UInt64 := (1 : UInt64) <<< 4

/-- This node's own checks on a verified message. -/
def messagePolicy (message : PeerMessage) (revoked : List UInt64) : Except Refusal Unit :=
  if message.grant.perms &&& sendBit == 0 then
    .error ⟨.noSend, "the delegation does not allow send"⟩
  else if revoked.contains message.grant.serial then
    .error ⟨.revoked, "the delegation was revoked"⟩
  else .ok ()

/-- Why an import fails the replay check. -/
inductive ReplayError where
  | alreadyImported
  | listFull
  deriving DecidableEq, Repr

/-- The message of a replay error. -/
def ReplayError.text : ReplayError → String
  | alreadyImported => "already imported"
  | listFull => "replay list full: no more imports until some expire"

/-- Refuse a capability imported before, and everything once the list is
full. -/
def replayCheck (seen : List Seen) (issuer : Fixed 16) (serial : UInt64) :
    Except ReplayError Unit :=
  if seen.any fun entry => entry.id == issuer && entry.n == serial then
    .error .alreadyImported
  else if seen.length ≥ maxImported then .error .listFull
  else .ok ()

theorem replayCheck_eq_alreadyImported_iff :
    replayCheck seen issuer serial = .error .alreadyImported ↔
      (issuer, serial) ∈ seen.map Seen.key := by
  have keys : (seen.any fun entry => entry.id == issuer && entry.n == serial) =
      true ↔ (issuer, serial) ∈ seen.map Seen.key := by
    simp [Seen.key]
  unfold replayCheck
  split
  · rename_i present
    exact iff_of_true rfl (keys.mp present)
  · rename_i absent
    refine iff_of_false (by split <;> simp) fun present =>
      absent (keys.mpr present)

/-! ## What survives a load -/

/-- Everything the stored records hold is in the lists, and what they refuse is refused. -/
structure Survives (records : Records) (lists : Lists) : Prop where
  revoked : ∀ serial ∈ records.revoked, serial ∈ lists.revoked.items
  delivered : ∀ entry ∈ records.delivered, entry ∈ lists.seen.items
  imported : ∀ entry ∈ records.imported, entry ∈ lists.imported.items
  /-- Messages that the stored revocations refuse are refused. -/
  messages : ∀ message refusal, messagePolicy message records.revoked = .error refusal →
      messagePolicy message lists.revoked.items = .error refusal
  /-- Imports that the stored list refuses as replays are refused. -/
  imports : ∀ issuer serial, replayCheck records.imported issuer serial = .error .alreadyImported →
      replayCheck lists.imported.items issuer serial = .error .alreadyImported

theorem messagePolicy_mono (included : ∀ serial ∈ fewer, serial ∈ more)
    (refused : messagePolicy message fewer = .error refusal) :
    messagePolicy message more = .error refusal := by
  unfold messagePolicy at refused ⊢
  split
  · rename_i noSend
    rwa [if_pos noSend] at refused
  rename_i send
  rw [if_neg send] at refused
  split at refused
  · rename_i listed
    have alsoListed : more.contains message.grant.serial := by
      simp only [List.contains_iff_mem] at listed ⊢
      exact included _ listed
    rwa [if_pos alsoListed]
  · contradiction

/-- A list refuses the messages under some serials exactly if it holds the
serials. -/
theorem refuses_iff_listed (serials revoked : List UInt64) :
    (∀ message : PeerMessage, message.grant.serial ∈ serials →
        ∃ refusal, messagePolicy message revoked = .error refusal) ↔
      ∀ serial ∈ serials, serial ∈ revoked := by
  constructor
  · intro refused serial recorded
    obtain ⟨message, perms, rfl⟩ := PeerMessage.exists_grant sendBit serial
    obtain ⟨refusal, policy⟩ := refused message recorded
    by_contra missing
    have send : ¬(message.grant.perms &&& sendBit == 0) := by
      rw [perms]
      decide
    rw [messagePolicy, if_neg send, if_neg (by simpa using missing)] at policy
    cases policy
  · intro listed message recorded
    unfold messagePolicy
    split
    · exact ⟨_, rfl⟩
    · rw [if_pos (by simpa using listed _ recorded)]
      exact ⟨_, rfl⟩

/-- The promises about refusals follow from those about entries. -/
theorem Survives.of_entries
    (revoked : ∀ serial ∈ records.revoked, serial ∈ lists.revoked.items)
    (delivered : ∀ entry ∈ records.delivered, entry ∈ lists.seen.items)
    (imported : ∀ entry ∈ records.imported, entry ∈ lists.imported.items) :
    Survives records lists where
  revoked := revoked
  delivered := delivered
  imported := imported
  messages _ _ := messagePolicy_mono revoked
  imports issuer serial refused := by
    rw [replayCheck_eq_alreadyImported_iff] at refused ⊢
    obtain ⟨entry, stored, key⟩ := List.mem_map.mp refused
    rw [← key]
    exact List.mem_map_of_mem (imported entry stored)

/-- A load keeps everything the store held exactly if each list has room for
the distinct entries it lacks, and has no other entry with the id and number of one. -/
theorem restore_survives_iff
    (lists : Lists)
    (records : Records) :
    Survives records (restore lists records) ↔
      lists.revoked.items.length + lists.revoked.lacking id records.revoked ≤ maxRevoked ∧
      (lists.seen.items.length + lists.seen.lacking Seen.key records.delivered ≤ maxDelivered ∧
        Settles Seen.key lists.seen records.delivered) ∧
      lists.imported.items.length + lists.imported.lacking Seen.key records.imported ≤ maxImported ∧
        Settles Seen.key lists.imported records.imported := by
  rw [← absorb_covers_iff, ← absorb_holds_iff, ← absorb_holds_iff]
  simp only [id_eq, List.map_id]
  have seenEq : (restore lists records).seen = lists.seen.absorb Seen.key records.delivered :=
    absorbUntilFull_eq_absorb _ _
  have importedEq : (restore lists records).imported =
      lists.imported.absorb Seen.key records.imported :=
    absorbUntilFull_eq_absorb _ _
  rw [← seenEq, ← importedEq]
  constructor
  · intro survives
    exact ⟨survives.revoked, survives.delivered, survives.imported⟩
  · rintro ⟨revoked, delivered, imported⟩
    exact Survives.of_entries revoked delivered imported

/-- As many serials as the list of revocations holds. -/
def fillingSerials : List UInt64 := (List.range 128).map fun index => UInt64.ofNat (index + 1)

/-- The lists after the gateway sent them. -/
def filledLists : Lists :=
  { Lists.empty with
    revoked := onRevocations .empty (encodeRevocations fillingSerials) }

theorem filledLists_revoked : filledLists.revoked.items = fillingSerials := by
  have decoded : decodeRevocations (encodeRevocations fillingSerials) = some fillingSerials :=
    decodeRevocations_encodeRevocations (by simp [fillingSerials])
  simp only [filledLists, onRevocations, decoded]
  decide +kernel

theorem restore_drops_revocation : ¬Survives ⟨[0], [], []⟩ (restore filledLists ⟨[0], [], []⟩) := by
  intro survives
  have kept := survives.revoked 0 List.mem_cons_self
  have full : ¬filledLists.revoked.items.length < maxRevoked := by
    rw [filledLists_revoked]
    simp [fillingSerials, maxRevoked]
  simp only [restore, absorb_of_full full, filledLists_revoked] at kept
  revert kept
  decide +kernel

end Cdk.Peer

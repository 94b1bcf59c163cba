import Cdk.Library.HexText
import Cdk.Peer.Answers

/-!
# Certification and the gateway's revocations

Once a kernel's attestation is accepted, the gateway sends the recorded revocations ahead of the
node certificate: a count-prefixed encoding, blob chunks and a bounded merge.
`certify_refuses_iff` says when every one of them is refused afterwards.
-/

namespace Cdk.Gateway

open ByteFormat Link Peer BoundedVec BlobKind

/-- The gateway's certifying key and what it may certify. -/
structure Registry where
  sign : Fixed 32 → Bytes → Signature
  authority : NodeAuthority
  node : NodeName
  /-- Certificate lifetime in seconds. -/
  validity : UInt64

/-- Certify the key a kernel proved in the handshake. -/
def Registry.certify (crypto : Crypto) (registry : Registry) (issuer : Identity)
    (attested : Fixed 32) (serial now : UInt64) : NodeCert :=
  let cert : NodeCert :=
    { name := registry.node
      issuer := issuer
      registry := registry.authority.root
      serial := serial
      attested := attested
      notAfter := min (now + registry.validity) registry.authority.notAfter
      authority := registry.authority
      signature := default }
  { cert with signature := registry.sign (cert.digest crypto) NodeCert.context }

/-! ## The revocation file -/

/-- The recorded serials; an absent file is an empty one. -/
def revocations (file : Option Text) : List UInt64 :=
  (HexText.numbers (2 ^ 64) (file.getD [])).map UInt64.ofNat

def addRevocation (file : Option Text) (serial : UInt64) : Option Text :=
  if (revocations file).contains serial then file
  else some (file.getD [] ++ HexText.line 16 serial.toNat)

theorem revocations_flatMap (serials : List UInt64) :
    revocations (some ((serials.map UInt64.toNat).flatMap (HexText.line 16))) = serials := by
  have small : ∀ value ∈ serials.map UInt64.toNat, value < 2 ^ 64 := by
    intro value present
    obtain ⟨serial, -, rfl⟩ := List.mem_map.mp present
    exact serial.toNat_lt
  rw [revocations, Option.getD_some, HexText.numbers_flatMap_line (by decide) (by decide) _ small]
  simp [Function.comp_def]

/-- After recording, the file lists exactly the recorded serials, each once. -/
theorem exists_revocations (serials : List UInt64) : ∃ listed : List UInt64,
    revocations (serials.foldl addRevocation none) = listed ∧
      listed.Nodup ∧ listed.toFinset = serials.toFinset := by
  suffices strong : ∃ listed : List UInt64, (serials.foldl addRevocation none).getD [] =
          (listed.map UInt64.toNat).flatMap (HexText.line 16) ∧
        listed.Nodup ∧ listed.toFinset = serials.toFinset by
    obtain ⟨listed, contents, nodup, same⟩ := strong
    refine ⟨listed, ?_, nodup, same⟩
    rw [← revocations_flatMap listed, ← contents]
    rfl
  induction serials using List.reverseRecOn with
  | nil => exact ⟨[], rfl, List.nodup_nil, rfl⟩
  | append_singleton serials serial ih =>
    obtain ⟨listed, contents, nodup, same⟩ := ih
    have read : revocations (serials.foldl addRevocation none) = listed := by
      rw [← revocations_flatMap listed, ← contents]
      rfl
    rw [List.foldl_append, List.foldl_cons, List.foldl_nil, addRevocation, read]
    by_cases recorded : serial ∈ listed
    · rw [if_pos (by simpa using recorded)]
      refine ⟨listed, contents, nodup, ?_⟩
      rw [List.toFinset_append, ← same]
      simp [recorded]
    · rw [if_neg (by simpa using recorded)]
      refine ⟨listed ++ [serial], ?_, ?_, ?_⟩
      · simp [contents]
      · rw [← List.concat_eq_append]
        exact nodup.concat recorded
      · simp [List.toFinset_append, same]

/-! ## Certification -/

/-- Once the attestation is accepted: the revocations, then the certificate.
The second result says whether the kernel has been certified. -/
def certify (crypto : Crypto) (registry : Option Registry) (trusted : Bool)
    (client : Option Identity) (certified : Bool) (file : Option Text) (attested : Fixed 32)
    (serial now : UInt64) : List Bytes × Bool :=
  match registry, client with
  | some registry, some client =>
    if certified || !trusted then ([], certified)
    else
      let cert := registry.certify crypto client attested serial now
      let revoked := revocations file
      ((encodeBlob BlobKind.revocations.byte (encodeRevocations revoked)).getD [] ++
        (encodeBlob nodeCert.byte cert.encode).getD [], true)
  | _, _ => ([], certified)

theorem encodeBlob_nodeCert (cert : NodeCert) : ∃ messages,
    encodeBlob nodeCert.byte cert.encode = some messages := by
  apply encodeBlob_of_fits
  · simp only [NodeCert.encode, List.length_append, Signature.length_bytes]
    omega
  · have := cert.length_encode
    simp only [maxBlob]
    omega

section Kernel

variable {listed : List UInt64} {cert : NodeCert} {messages : List Bytes}

theorem revoked_of_nodeCert
    (encoded : encodeBlob nodeCert.byte cert.encode = some messages) (waiting : Waiting) :
    (messages.foldl (receive nodeCert.byte) waiting).revoked = waiting.revoked := by
  rw [foldl_receive_encodeBlob _ _ encoded]
  rfl

variable (encoded : encodeBlob BlobKind.revocations.byte (encodeRevocations listed) = some messages)
include encoded

theorem foldl_receive_revocations (waiting : Waiting) :
    messages.foldl (receive nodeCert.byte) waiting = { waiting with
        assembler := ⟨BlobKind.revocations.byte, 0, []⟩
        revoked := onRevocations waiting.revoked (encodeRevocations listed) } := by
  rw [foldl_receive_encodeBlob _ _ encoded]
  rfl

theorem out_of_revocations (waiting : Waiting) (before : early <+: messages) :
    (early.foldl (receive nodeCert.byte) waiting).out = waiting.out := by
  by_cases whole : early = messages
  · rw [whole, foldl_receive_revocations encoded]
  · exact out_of_incomplete _ waiting encoded before whole

end Kernel

section

variable (revoked : BoundedVec UInt64 maxRevoked)

theorem waitAnswer_certify {cert : NodeCert}
    (delivered : batches.flatten = (encodeBlob BlobKind.revocations.byte
          (encodeRevocations listed)).getD [] ++
        (encodeBlob nodeCert.byte cert.encode).getD []) :
    (waitAnswer nodeCert.byte (.start revoked) batches).revoked =
      if 2 + 8 * listed.length ≤ maxBlob then revoked.absorb id listed else revoked := by
  obtain ⟨certMessages, certEncoded⟩ := encodeBlob_nodeCert cert
  rw [certEncoded, Option.getD_some] at delivered
  split
  · rename_i fits
    have short : listed.length < 65536 := by
      simp only [maxBlob] at fits
      omega
    obtain ⟨listMessages, listEncoded⟩ : ∃ messages,
        encodeBlob BlobKind.revocations.byte (encodeRevocations listed) = some messages :=
      encodeBlob_of_fits _ (by rw [length_encodeRevocations]; omega)
        (by rw [length_encodeRevocations]; exact fits)
    rw [listEncoded, Option.getD_some] at delivered
    rw [waitAnswer_eq_foldl, delivered, List.foldl_append,
      revoked_of_nodeCert certEncoded, foldl_receive_revocations listEncoded,
      ← absorbUntilFull_eq_absorb]
    · simp only [onRevocations, decodeRevocations_encodeRevocations short]
      rfl
    rw [delivered]
    refine quiet_append (fun early before => out_of_revocations listEncoded _ before) ?_
    intro early before proper
    rw [out_of_incomplete _ _ certEncoded before proper, foldl_receive_revocations listEncoded]
    rfl
  · rename_i long
    rw [encodeBlob_of_long _ (by rw [length_encodeRevocations]; omega),
      Option.getD_none, List.nil_append] at delivered
    rw [waitAnswer_eq_foldl, delivered, revoked_of_nodeCert certEncoded]
    · rfl
    · rw [delivered]
      exact fun early before proper => out_of_incomplete _ _ certEncoded before proper

/-- A list too long for one blob has more serials than the kernel's list can
hold. -/
theorem lacking_of_long (nodup : listed.Nodup)
    (long : ¬2 + 8 * listed.length ≤ maxBlob) : maxRevoked < revoked.lacking id listed := by
  have count : listed.toFinset.card = listed.length := List.toFinset_card_of_nodup nodup
  have held : revoked.items.toFinset.card ≤ maxRevoked :=
    (List.toFinset_card_le _).trans revoked.fits
  have removed : listed.toFinset.card - revoked.items.toFinset.card ≤
      (listed.toFinset \ revoked.items.toFinset).card :=
    Finset.le_card_sdiff _ _
  simp only [lacking, List.map_id]
  simp only [maxBlob] at long
  simp only [maxRevoked] at held ⊢
  omega

/-- The recorded serials are all in the kernel's list after a certification
exactly if there is room for those it lacks. -/
theorem certify_lists_iff
    (delivered : batches.flatten = (certify crypto (some registry) true (some client) false
        (serials.foldl addRevocation none) attested serial now).1) :
    (∀ recorded ∈ serials, recorded ∈ (waitAnswer nodeCert.byte (.start revoked)
          batches).revoked.items) ↔
      revoked.items.length + revoked.lacking id serials ≤ maxRevoked := by
  obtain ⟨listed, read, nodup, same⟩ := exists_revocations serials
  have members : ∀ recorded, recorded ∈ serials ↔ recorded ∈ listed := by
    intro recorded
    rw [← List.mem_toFinset, ← same, List.mem_toFinset]
  simp only [certify, Bool.not_true, Bool.or_self, Bool.false_eq_true, if_false, read] at delivered
  have sameLacking : revoked.lacking id listed = revoked.lacking id serials := by
    simp only [lacking, List.map_id, same]
  rw [waitAnswer_certify revoked delivered, ← sameLacking]
  simp only [members]
  have covers := @absorb_covers_iff _ _ _ _ id revoked listed
  simp only [id_eq, List.map_id] at covers
  split
  · exact covers
  rename_i long
  have lacking := lacking_of_long revoked nodup long
  refine iff_of_false (fun all => ?_) (by omega)
  have none : revoked.lacking id listed = 0 := by
    simp only [BoundedVec.lacking, List.map_id, Finset.card_eq_zero,
      Finset.sdiff_eq_empty_iff_subset]
    intro recorded present
    exact List.mem_toFinset.mpr (all recorded (List.mem_toFinset.mp present))
  omega

end

/-- Once the messages of a certification have been processed, every recorded
revocation is refused exactly if the kernel's list had room for the serials it
lacked. -/
theorem certify_refuses_iff
    (crypto : Crypto)
    (registry : Registry)
    (client : Identity)
    (attested : Fixed 32)
    (serial now : UInt64)
    (serials : List UInt64)
    (revoked : BoundedVec UInt64 maxRevoked)
    (batches : List (List Bytes))
    (delivered : batches.flatten = (certify crypto (some registry) true (some client) false
        (serials.foldl addRevocation none) attested serial now).1) :
    (∀ message : PeerMessage, message.grant.serial ∈ serials → ∃ refusal, messagePolicy message
          (waitAnswer nodeCert.byte (.start revoked) batches).revoked.items = .error refusal) ↔
      revoked.items.length + revoked.lacking id serials ≤ maxRevoked := by
  rw [← certify_lists_iff revoked delivered]
  exact refuses_iff_listed serials _

def sampleRegistry : Registry := ⟨fun _ _ => default, default, default, 3600⟩

/-- What the gateway sends at a certification with some serials recorded. -/
def sampleCertify (serials : List UInt64) : List Bytes :=
  (certify sampleCrypto (some sampleRegistry) true (some default) false
    (serials.foldl addRevocation none) default 1 1000).1

theorem certify_refuses_recorded :
    (empty : BoundedVec UInt64 maxRevoked).lacking id [7, 9, 7] = 2 ∧
      ∀ message : PeerMessage, message.grant.serial ∈ [7, 9, 7] → ∃ refusal, messagePolicy message
          (waitAnswer nodeCert.byte (.start .empty)
            [sampleCertify [7, 9, 7]]).revoked.items = .error refusal :=
  ⟨by decide, (certify_refuses_iff sampleCrypto sampleRegistry default default 1 1000
      [7, 9, 7] .empty [sampleCertify [7, 9, 7]] List.flatten_singleton).mpr
      (by decide)⟩

/-- With one serial more than the kernel's list can hold, one is let through. -/
theorem certify_skips_revocation : ¬∀ message : PeerMessage,
    message.grant.serial ∈ 0 :: fillingSerials → ∃ refusal, messagePolicy message
        (waitAnswer nodeCert.byte (.start .empty)
          [sampleCertify (0 :: fillingSerials)]).revoked.items = .error refusal := by
  have delivered : [sampleCertify (0 :: fillingSerials)].flatten = sampleCertify _ :=
    List.flatten_singleton
  rw [refuses_iff_listed, certify_lists_iff .empty delivered]
  decide +kernel

end Cdk.Gateway

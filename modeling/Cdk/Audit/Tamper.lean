import Cdk.Audit.Log

/-!
# Tampering with the audit log

Somebody replaces the records, the head, the anchor and the counters of a log and can only not
make new checkpoints.  A checkpoint whose record is not there is compared with nothing, so the
end of the log can be cut off; and the numbers may wrap around within the records, so that one of
them follows a checkpoint under a number below it.  `tampering_noticed_iff` says that this is all.
-/

namespace Cdk.Audit
namespace AuditLog

open ByteFormat BoundedText Link Agent History HashChain

variable {capacity : Nat}

/-- A record with its place and the hash before it. -/
abbrev RecordLink := Nat × Fixed 32 × Record

/-- The bytes that are hashed for a record of a chain. -/
def linkInput (link : RecordLink) : Bytes :=
  recordInput link.2.1 link.2.2.seq link.2.2.event

/-- Everything that was appended, as a chain. -/
def History.links (history : History capacity) : List RecordLink :=
  HashChain.links Record.hash history.log.genesis 0 history.appended

/-- The records of a log, as a chain. -/
def links (log : AuditLog capacity) : List RecordLink :=
  HashChain.links Record.hash log.anchor log.evicted.toNat log.records.items

/-- All that was hashed for the history of an issuer and for a log. -/
def hashedInputs
    (issuerId : Fixed 16)
    (history : History capacity)
    (log : AuditLog capacity) : Set Bytes :=
  {input | input = genesisInput issuerId ∨
    ∃ link ∈ history.links ++ log.links, input = linkInput link}

section Chains

variable {crypto : Crypto}

/-- In two chains, equal hashes at one place come from equal records. -/
theorem binding_of_injOn
    (hashes : Set.InjOn crypto.sha256 texts)
    (leftFits : ∀ link ∈ left, link.2.2.Fits crypto link.1 link.2.1)
    (rightFits : ∀ link ∈ right, link.2.2.Fits crypto link.1 link.2.1)
    (leftHashed : ∀ link ∈ left, linkInput link ∈ texts)
    (rightHashed : ∀ link ∈ right, linkInput link ∈ texts) :
    HashChain.Binding Record.hash left right := by
  rintro ⟨place, prev, record⟩ inLeft ⟨place', prev', record'⟩ inRight samePlace sameHash
  obtain ⟨number, hash⟩ := leftFits _ inLeft
  obtain ⟨number', hash'⟩ := rightFits _ inRight
  dsimp only at samePlace number hash number' hash' sameHash
  subst samePlace
  have sameNumber : record.seq = record'.seq := number.trans number'.symm
  have sameInput := hashes (leftHashed _ inLeft) (rightHashed _ inRight)
    (hash.trans (sameHash.trans hash'.symm))
  rw [linkInput, linkInput, sameNumber] at sameInput
  obtain ⟨rfl, sameEvent⟩ := recordInput_inj sameInput
  have sameRecord : record = record' := by
    cases record
    cases record'
    simp only [Record.mk.injEq]
    exact ⟨sameNumber, sameEvent, sameHash⟩
  rw [sameRecord]

/-- The links of the first records are among the links. -/
theorem links_take_subset (prev : Fixed 32) (place count : Nat) (records : List Record) :
    HashChain.links Record.hash prev place (records.take count) ⊆
      HashChain.links Record.hash prev place records := by
  intro link listed
  rw [← List.take_append_drop count records, links_append]
  exact List.mem_append_left _ listed

/-- The hash after the records up to one of them is its hash. -/
theorem headAfter_take {records : List Record} {record : Record}
    (there : records[index]? = some record) :
    headAfter prev (records.take (index + 1)) = record.hash := by
  rw [List.take_add_one, there, headAfter, tip_append]
  rfl

/-- What was hashed for a record that was appended. -/
theorem mem_hashedInputs_of_appended
    {history : History capacity}
    {log : AuditLog capacity}
    (there : history.appended[index]? = some record) :
    recordInput (headAfter history.log.genesis (history.appended.take index)) record.seq
      record.event ∈ hashedInputs issuerId history log :=
  .inr ⟨_, List.mem_append_left _ (mem_links there), rfl⟩

/-- What was hashed for a record of the log. -/
theorem mem_hashedInputs_of_record
    {history : History capacity}
    {log : AuditLog capacity}
    (there : log.records.items[index]? = some record) :
    recordInput (headAfter log.anchor (log.records.items.take index)) record.seq
      record.event ∈ hashedInputs issuerId history log :=
  .inr ⟨_, List.mem_append_right _ (mem_links there), rfl⟩

end Chains

section Tampered

variable {issuer : Issuer} {calls : List Call} {tampered : AuditLog capacity}
variable {trusted : Fixed 16} {verifySig : Fixed 32 → Signature → Bool}
variable {report : VerifyReport}

variable {history : History capacity}

/-- The records of a log that verifies, up to one whose hash is known, are those
that were appended. -/
theorem records_eq_appended
    (honest : history.Honest issuer)
    (hashes : Set.InjOn issuer.crypto.sha256 (hashedInputs issuer.id history tampered))
    (chained : Chained issuer.crypto tampered.anchor tampered.evicted.toNat tampered.records.items)
    (there : tampered.records.items[index]? = some record)
    (appended : history.appended[tampered.evicted.toNat + index]? = some original)
    (sameHash : record.hash = original.hash) :
    (history.appended.take (tampered.evicted.toNat + index + 1)).drop tampered.evicted.toNat =
      tampered.records.items.take (index + 1) := by
  obtain ⟨within, -⟩ := List.getElem?_eq_some_iff.mp there
  obtain ⟨appendedWithin, -⟩ := List.getElem?_eq_some_iff.mp appended
  have length : (history.appended.take (tampered.evicted.toNat + index + 1)).length =
      tampered.evicted.toNat + (tampered.records.items.take (index + 1)).length := by
    rw [List.length_take, List.length_take]
    omega
  have tips : headAfter history.log.genesis
        (history.appended.take (tampered.evicted.toNat + index + 1)) =
      headAfter tampered.anchor (tampered.records.items.take (index + 1)) := by
    rw [headAfter_take there, headAfter_take appended, sameHash]
  have binding : HashChain.Binding Record.hash history.links tampered.links := by
    apply binding_of_injOn hashes
    · exact chained_iff_links.mp honest.chained
    · exact chained_iff_links.mp chained
    · exact fun link listed => .inr ⟨link, List.mem_append_left _ listed, rfl⟩
    · exact fun link listed => .inr ⟨link, List.mem_append_right _ listed, rfl⟩
  have earlyBinding : HashChain.Binding Record.hash
      (HashChain.links Record.hash history.log.genesis 0
        (history.appended.take (tampered.evicted.toNat + index + 1)))
      (HashChain.links Record.hash tampered.anchor tampered.evicted.toNat
        (tampered.records.items.take (index + 1))) := by
    intro left leftListed right rightListed
    exact binding left (links_take_subset _ _ _ _ leftListed) right
      (links_take_subset _ _ _ _ rightListed)
  exact eq_drop_of_tip_eq length earlyBinding tips

/-- No checkpoint is after the latest. -/
theorem seq_le_latest
    (honest : history.Honest issuer)
    (listed : made ∈ history.log.checkpoints.items)
    (isLatest : history.log.checkpoints.items.getLast? = some latest) :
    made.seq ≤ latest.seq := by
  obtain ⟨early, split⟩ := List.getLast?_eq_some_iff.mp isLatest
  have increasing := honest.increasing
  rw [split] at listed increasing
  rcases List.mem_append.mp listed with before | final
  · exact UInt64.le_of_lt ((List.pairwise_append.mp increasing).2.2 made before latest
      (List.mem_singleton_self latest))
  · rw [List.mem_singleton.mp final]
    exact UInt64.le_refl _

/-- Where the numbers do not wrap around, a record's number is its place. -/
theorem toNat_seq_of_chained
    {records : List Record}
    {record : Record}
    (chained : Chained crypto prev first records)
    (few : first + records.length ≤ 2 ^ 64)
    (there : records[index]? = some record) :
    record.seq.toNat = first + index := by
  obtain ⟨within, -⟩ := List.getElem?_eq_some_iff.mp there
  rw [seq_of_chained chained there]
  exact UInt64.toNat_ofNat_of_lt (by change _ < 2 ^ 64; omega)

theorem getElem?_of_mem_chained
    {records : List Record}
    {record : Record}
    (chained : Chained crypto prev first records)
    (few : first + records.length ≤ 2 ^ 64)
    (listed : record ∈ records) :
    ∃ index, records[index]? = some record ∧ record.seq.toNat = first + index := by
  obtain ⟨index, there⟩ := List.getElem?_of_mem listed
  exact ⟨index, there, toNat_seq_of_chained chained few there⟩

/-- A record that a checkpoint names has the hash that was signed. -/
theorem hash_of_latest
    {records : List Record}
    {first index : Nat}
    {made : Checkpoint}
    {record : Record}
    (chained : Chained crypto prev first records)
    (few : first + records.length ≤ 2 ^ 64)
    (checked : CheckpointOk crypto trusted verifySig records made)
    (there : records[index]? = some record)
    (number : first + index = made.seq.toNat) :
    record.hash = made.head := by
  obtain ⟨-, -, compared⟩ := checked
  have named : record.seq = made.seq :=
    UInt64.toNat_inj.mp ((toNat_seq_of_chained chained few there).trans number)
  obtain ⟨found, isFound⟩ : ∃ found,
      (records.find? fun other => other.seq == made.seq) = some found := by
    rw [← Option.isSome_iff_exists, List.find?_isSome]
    exact ⟨record, List.mem_of_getElem? there, by simp [named]⟩
  have foundSeq : found.seq = made.seq := by simpa using List.find?_some isFound
  obtain ⟨place, at', foundPlace⟩ :=
    getElem?_of_mem_chained chained few (List.mem_of_find?_eq_some isFound)
  have samePlace : place = index := by
    rw [foundSeq] at foundPlace
    omega
  rw [samePlace, there] at at'
  rw [Option.some.inj at']
  exact compared found isFound

/-- If the log reaches the latest checkpoint, the records up to it are those that
were appended. -/
theorem original_of_reaches
    (honest : history.Honest issuer)
    (keeps : tampered.checkpoints = history.log.checkpoints)
    (hashes : Set.InjOn issuer.crypto.sha256 (hashedInputs issuer.id history tampered))
    (verified : tampered.verify issuer.crypto trusted verifySig = .ok report)
    (isLatest : tampered.checkpoints.items.getLast? = some latest)
    (reaches : latest.seq.toNat < tampered.evicted.toNat + tampered.records.items.length)
    (few : tampered.evicted.toNat + tampered.records.items.length ≤ 2 ^ 64)
    (listed : record ∈ tampered.records.items)
    (below : record.seq ≤ latest.seq) :
    history.appended[record.seq.toNat]? = some record := by
  obtain ⟨-, chained, -, checked, -⟩ := verify_eq_ok_iff.mp verified
  obtain ⟨index, there, number⟩ := getElem?_of_mem_chained chained few listed
  have latestListed := List.mem_of_getLast? isLatest
  rw [UInt64.le_iff_toNat_le] at below
  -- the record that the latest checkpoint names, in the log and in the history
  obtain ⟨last, lastEq⟩ : ∃ last, latest.seq.toNat = tampered.evicted.toNat + last :=
    ⟨latest.seq.toNat - tampered.evicted.toNat, by omega⟩
  obtain ⟨signed, signedThere⟩ : ∃ signed, tampered.records.items[last]? = some signed :=
    ⟨_, List.getElem?_eq_getElem (by omega)⟩
  have signedHash :=
    hash_of_latest chained few (checked latest latestListed) signedThere lastEq.symm
  rw [keeps] at latestListed
  obtain ⟨-, -, covered⟩ := honest.checkpoints latest latestListed
  obtain ⟨original, originalThere, originalHash⟩ := Option.map_eq_some_iff.mp covered
  rw [lastEq] at originalThere
  have same := records_eq_appended honest hashes chained signedThere originalThere
    (signedHash.trans originalHash.symm)
  have atIndex := congrArg (·[index]?) same
  simp only [List.getElem?_drop] at atIndex
  rw [List.getElem?_take_of_lt (by omega), List.getElem?_take_of_lt (by omega), there] at atIndex
  rw [number]
  exact atIndex

/-- If the numbers wrap around within the records, the record with the number zero
is not the one that was appended first: another record is before it. -/
theorem not_original_of_wraps
    (honest : history.Honest issuer)
    (hashes : Set.InjOn issuer.crypto.sha256 (hashedInputs issuer.id history tampered))
    (chained : Chained issuer.crypto tampered.anchor tampered.evicted.toNat tampered.records.items)
    (wraps : 2 ^ 64 < tampered.evicted.toNat + tampered.records.items.length) :
    ∃ record ∈ tampered.records.items, record.seq = 0 ∧ history.appended[0]? ≠ some record := by
  have word : tampered.evicted.toNat < 2 ^ 64 := tampered.evicted.toNat_lt
  obtain ⟨index, place⟩ : ∃ index, tampered.evicted.toNat + (index + 1) = 2 ^ 64 :=
    ⟨2 ^ 64 - 1 - tampered.evicted.toNat, by omega⟩
  obtain ⟨before, beforeThere⟩ : ∃ before, tampered.records.items[index]? = some before :=
    ⟨_, List.getElem?_eq_getElem (by omega)⟩
  obtain ⟨record, there⟩ : ∃ record, tampered.records.items[index + 1]? = some record :=
    ⟨_, List.getElem?_eq_getElem (by omega)⟩
  obtain ⟨number, hash⟩ := fits_of_chained chained there
  rw [place] at number
  refine ⟨record, List.mem_of_getElem? there, number, ?_⟩
  intro first
  obtain ⟨-, firstHash⟩ := fits_of_chained honest.chained first
  obtain ⟨-, beforeHash⟩ := fits_of_chained chained beforeThere
  -- the record stands after the start of the chain and after the record before it,
  -- whose hash would then be that of the start
  have sameInput := hashes (mem_hashedInputs_of_record there) (mem_hashedInputs_of_appended first)
    (hash.trans firstHash.symm)
  rw [headAfter_take beforeThere] at sameInput
  have start : before.hash = history.log.genesis := (recordInput_inj sameInput).1
  rw [← beforeHash, honest.genesis] at start
  exact recordInput_ne_genesisInput
    (hashes (mem_hashedInputs_of_record beforeThere) (.inl rfl) start)

end Tampered

/-- In a log that verifies and keeps the checkpoints, the records that checkpoints
name are there and the records up to the latest checkpoint are those that were
appended, exactly if the log was not cut off before the latest checkpoint and its
numbers do not wrap around. -/
theorem tampering_noticed_iff
    (issuer : Issuer)
    (calls : List Call)
    (few : appends calls ≤ 2 ^ 64)
    (tampered : AuditLog capacity)
    (trusted : Fixed 16)
    (verifySig : Fixed 32 → Signature → Bool)
    (report : VerifyReport)
    (keeps : tampered.checkpoints = (after issuer calls : History capacity).log.checkpoints)
    (hashes : Set.InjOn issuer.crypto.sha256
      (hashedInputs issuer.id (after issuer calls) tampered))
    (verified : tampered.verify issuer.crypto trusted verifySig = .ok report) :
    ((∀ made ∈ tampered.checkpoints.items, tampered.evicted ≤ made.seq →
        ∃ record ∈ tampered.records.items, record.seq = made.seq) ∧
      (∀ latest, tampered.checkpoints.items.getLast? = some latest →
        ∀ record ∈ tampered.records.items, record.seq ≤ latest.seq →
          (after issuer calls : History capacity).appended[record.seq.toNat]? = some record)) ↔
      ∀ latest, tampered.checkpoints.items.getLast? = some latest →
        latest.seq.toNat < tampered.evicted.toNat + tampered.records.items.length ∧
          tampered.evicted.toNat + tampered.records.items.length ≤ 2 ^ 64 := by
  have honest : (after issuer calls : History capacity).Honest issuer :=
    honest_after issuer calls few
  obtain ⟨-, chained, -, -, -⟩ := verify_eq_ok_iff.mp verified
  constructor
  · rintro ⟨named, original⟩ latest isLatest
    have unwrapped : tampered.evicted.toNat + tampered.records.items.length ≤ 2 ^ 64 := by
      by_contra wraps
      obtain ⟨record, listed, zero, other⟩ :=
        not_original_of_wraps honest hashes chained (by omega)
      have same := original latest isLatest record listed (by rw [zero]; exact UInt64.zero_le)
      rw [zero] at same
      exact other same
    refine ⟨?_, unwrapped⟩
    by_contra cutOff
    have notEvicted : tampered.evicted ≤ latest.seq := UInt64.le_iff_toNat_le.mpr (by omega)
    obtain ⟨record, listed, number⟩ := named latest (List.mem_of_getLast? isLatest) notEvicted
    obtain ⟨index, there, place⟩ := getElem?_of_mem_chained chained unwrapped listed
    obtain ⟨within, -⟩ := List.getElem?_eq_some_iff.mp there
    rw [number] at place
    omega
  · intro reaches
    refine ⟨?_, ?_⟩
    · intro made listed notEvicted
      obtain ⟨latest, isLatest⟩ : ∃ latest, tampered.checkpoints.items.getLast? = some latest :=
        ⟨_, List.getLast?_eq_some_getLast (List.ne_nil_of_mem listed)⟩
      obtain ⟨upTo, unwrapped⟩ := reaches latest isLatest
      rw [keeps] at listed isLatest
      have ordered := UInt64.le_iff_toNat_le.mp (seq_le_latest honest listed isLatest)
      rw [UInt64.le_iff_toNat_le] at notEvicted
      have within : made.seq.toNat - tampered.evicted.toNat < tampered.records.items.length := by
        omega
      refine ⟨_, List.getElem_mem within, UInt64.toNat_inj.mp ?_⟩
      rw [toNat_seq_of_chained chained unwrapped (List.getElem?_eq_getElem within)]
      omega
    · intro latest isLatest record listed below
      obtain ⟨upTo, unwrapped⟩ := reaches latest isLatest
      exact original_of_reaches honest keeps hashes verified isLatest upTo unwrapped listed below

theorem injOn_hashedInputs
    {crypto : Crypto}
    {log : AuditLog capacity}
    (apart : ∀ left ∈ genesisInput issuerId :: (history.links ++ log.links).map linkInput,
      ∀ right ∈ genesisInput issuerId :: (history.links ++ log.links).map linkInput,
        crypto.sha256 left = crypto.sha256 right → left = right) :
    Set.InjOn crypto.sha256 (hashedInputs issuerId history log) := by
  have listed : ∀ input ∈ hashedInputs issuerId history log,
      input ∈ genesisInput issuerId :: (history.links ++ log.links).map linkInput := by
    rintro input (rfl | ⟨link, present, rfl⟩)
    · exact List.mem_cons_self
    · exact List.mem_cons_of_mem _ (List.mem_map_of_mem present)
  intro left isLeft right isRight same
  exact apart left (listed left isLeft) right (listed right isRight) same

/-- Two records and a checkpoint of the second. -/
def signedCalls : List Call := [.append 1 .boot ['k'] 0, .append 2 .capIssued ['a'] 7, .checkpoint]

/-- The log after them. -/
def signedLog : AuditLog 4 := (after sampleIssuer signedCalls : History 4).log

/-- The log as it was made: its two records are those that were appended. -/
theorem tampering_noticed_iff_untouched : signedLog.checkpoints.items.map Checkpoint.seq = [1] ∧
    ∀ latest, signedLog.checkpoints.items.getLast? = some latest →
      ∀ record ∈ signedLog.records.items, record.seq ≤ latest.seq →
        (after sampleIssuer signedCalls : History 4).appended[record.seq.toNat]? = some record := by
  have hashes : Set.InjOn sampleCrypto.sha256
      (hashedInputs sampleIssuer.id (after sampleIssuer signedCalls) signedLog) :=
    injOn_hashedInputs (by decide +kernel)
  have verified : (signedLog.verify sampleCrypto sampleIssuer.id fun _ _ => true) =
      .ok signedLog.report := by
    decide +kernel
  refine ⟨by decide +kernel, ?_⟩
  apply ((tampering_noticed_iff sampleIssuer signedCalls (by decide) signedLog sampleIssuer.id
    (fun _ _ => true) signedLog.report rfl hashes verified).mpr _).2
  intro latest isLatest
  have covered : signedLog.checkpoints.items.getLast?.all
      (fun latest =>
        latest.seq.toNat < signedLog.evicted.toNat + signedLog.records.items.length ∧
          signedLog.evicted.toNat + signedLog.records.items.length ≤ 2 ^ 64) := by
    decide +kernel
  rw [isLatest] at covered
  simpa using covered

/-- The log without its second record. -/
def cutLog : AuditLog 4 :=
  { signedLog with
    records := (signedLog.records.retain fun record => record.seq == 0)
    head := ((signedLog.records.items.head?.map Record.hash).getD signedLog.head) }

/-- The log that was cut off verifies, with a checkpoint for a record that is not
there. -/
theorem cutLog_verifies : cutLog.checkpoints = signedLog.checkpoints ∧ Set.InjOn sampleCrypto.sha256
      (hashedInputs sampleIssuer.id (after sampleIssuer signedCalls) cutLog) ∧
    (cutLog.verify sampleCrypto sampleIssuer.id fun _ _ => true) = .ok cutLog.report ∧
    cutLog.evicted = 0 ∧ cutLog.checkpoints.items.map Checkpoint.seq = [1] ∧
    cutLog.records.items.map Record.seq = [0] := by
  refine ⟨rfl, injOn_hashedInputs (by decide +kernel), by decide +kernel, ?_⟩
  decide +kernel

end AuditLog
end Cdk.Audit

import Cdk.Audit.Record

/-!
# The audit log

The log is a ring: the oldest record is evicted and its hash becomes the anchor of those that
remain.  The issuer signs the head at checkpoints.  `verify` computes the chain again and compares
it with the checkpoints.

The counters are 64-bit words.  `honest_log_verifies_iff`: a log that was only appended to and
checkpointed verifies as long as they have not wrapped around.
-/

namespace Cdk.Audit

open ByteFormat BoundedText Link Agent Run BoundedVec HashChain

/-- Checkpoints that are kept. -/
def maxCheckpoints : Nat := 8

/-- The context of a checkpoint's signature. -/
def auditContext : Bytes := ascii "CDK-AUDIT-v1"

/-- A signed head of the chain. -/
structure Checkpoint where
  /-- The number of the last record that is covered. -/
  seq : UInt64
  head : Fixed 32
  issuerId : Fixed 16
  signature : Signature
  deriving DecidableEq

/-- Why a log does not verify. -/
inductive AuditError
  | brokenAt (seq : UInt64)
  | gapBefore (seq : UInt64)
  | headMismatch
  | badGenesis
  | badCheckpoint (seq : UInt64)
  | checkpointMismatch (seq : UInt64)
  deriving DecidableEq

/-- What a successful verification reports. -/
structure VerifyReport where
  records : Nat
  firstSeq : Option UInt64
  lastSeq : Option UInt64
  evicted : UInt64
  checkpoints : Nat
  latestCheckpoint : Option UInt64
  /-- Records after the latest checkpoint. -/
  unsignedTail : UInt64
  deriving DecidableEq

/-- A ring of records with checkpoints. -/
structure AuditLog (capacity : Nat) where
  records : BoundedVec Record capacity
  checkpoints : BoundedVec Checkpoint maxCheckpoints
  genesis : Fixed 32
  /-- The hash before the oldest record. -/
  anchor : Fixed 32
  head : Fixed 32
  nextSeq : UInt64
  /-- How many records were evicted; the number of the oldest that is left. -/
  evicted : UInt64
  started : Bool

namespace AuditLog

variable {capacity : Nat}

/-- A log that has not started. -/
def new : AuditLog capacity where
  records := .empty
  checkpoints := .empty
  genesis := .replicate 32 0
  anchor := .replicate 32 0
  head := .replicate 32 0
  nextSeq := 0
  evicted := 0
  started := false

variable (log : AuditLog capacity)

/-- Start the chain of an issuer, once. -/
def start (crypto : Crypto) (issuerId : Fixed 16) : AuditLog capacity :=
  if log.started then log
  else
    let genesis := genesisHash crypto issuerId
    { log with genesis := genesis, anchor := genesis, head := genesis, started := true }

/-- The record of an event at the end of the log. -/
def recordOf (crypto : Crypto) (event : Event) : Record :=
  ⟨log.nextSeq, event, recordHash crypto log.head log.nextSeq event⟩

/-- Record an event.  When the ring is full the oldest record makes room; the
counters wrap around. -/
def append (crypto : Crypto) (tsc : UInt64) (kind : EventKind) (subject : List Char)
    (detail : UInt64) : AuditLog capacity × UInt64 :=
  let record := log.recordOf crypto ⟨tsc, kind, truncate subject, detail⟩
  let made := log.records.makeRoom
  ({ log with
      records := made.2.pushBack record
      anchor := (made.1.map Record.hash).getD log.anchor
      evicted := log.evicted + UInt64.ofNat made.1.toList.length
      head := record.hash
      nextSeq := log.nextSeq + 1 },
    record.seq)

/-- Sign the head, unless the latest checkpoint covers the last record. -/
def checkpoint (issuer : Issuer) : AuditLog capacity × Option UInt64 :=
  match log.records.items.getLast? with
  | none => (log, none)
  | some last =>
    if (log.checkpoints.items.getLast?.any fun latest => latest.seq == last.seq) then
      (log, some last.seq)
    else
      let digest := checkpointDigest issuer.crypto issuer.id last.seq log.head
      let made : Checkpoint :=
        ⟨last.seq, log.head, issuer.id, issuer.sign auditContext digest⟩
      ({ log with checkpoints := log.checkpoints.makeRoom.2.pushBack made }, some last.seq)

/-- Compute the chain again from a hash and a number on; the result is the hash
after it. -/
def checkRecords (crypto : Crypto) :
    Fixed 32 → UInt64 → List Record → Except AuditError (Fixed 32)
  | prev, _, [] => .ok prev
  | prev, expected, record :: rest =>
    if record.seq ≠ expected then .error (.gapBefore record.seq)
    else
      let hash := recordHash crypto prev record.seq record.event
      if hash ≠ record.hash then .error (.brokenAt record.seq)
      else checkRecords crypto hash (expected + 1) rest

/-- Check the signatures of checkpoints, and their heads where the record is
there. -/
def checkCheckpoints (crypto : Crypto) (trusted : Fixed 16)
    (verifySig : Fixed 32 → Signature → Bool)
    (records : List Record) : List Checkpoint → Except AuditError Unit
  | [] => .ok ()
  | made :: rest =>
    let digest := checkpointDigest crypto made.issuerId made.seq made.head
    if made.issuerId ≠ trusted ∨ verifySig digest made.signature = false then
      .error (.badCheckpoint made.seq)
    else
      match records.find? fun record => record.seq == made.seq with
      | some record =>
        if record.hash ≠ made.head then .error (.checkpointMismatch made.seq)
        else checkCheckpoints crypto trusted verifySig records rest
      | none => checkCheckpoints crypto trusted verifySig records rest

/-- The report on a log that verifies. -/
def report : VerifyReport :=
  let lastSeq := log.records.items.getLast?.map Record.seq
  let latestCheckpoint := log.checkpoints.items.getLast?.map Checkpoint.seq
  { records := log.records.items.length
    firstSeq := log.records.items.head?.map Record.seq
    lastSeq := lastSeq
    evicted := log.evicted
    checkpoints := log.checkpoints.items.length
    latestCheckpoint := latestCheckpoint
    unsignedTail :=
      match lastSeq, latestCheckpoint with
      -- the subtraction saturates
      | some last, some latest => if latest ≤ last then last - latest else 0
      | some _, none => UInt64.ofNat log.records.items.length
      | none, _ => 0 }

/-- Compute the chain of the log again and compare it with the checkpoints. -/
def verify (crypto : Crypto) (trusted : Fixed 16) (verifySig : Fixed 32 → Signature → Bool) :
    Except AuditError VerifyReport :=
  if log.evicted = 0 ∧ log.anchor ≠ log.genesis then .error .badGenesis
  else
    match checkRecords crypto log.anchor log.evicted log.records.items with
    | .error error => .error error
    | .ok prev =>
      if prev ≠ log.head then .error .headMismatch
      else
        match checkCheckpoints crypto trusted verifySig log.records.items log.checkpoints.items with
        | .error error => .error error
        | .ok () => .ok log.report

variable {log}

/-! ## What verification establishes -/

section Checks

variable {crypto : Crypto} {trusted : Fixed 16} {verifySig : Fixed 32 → Signature → Bool}

variable {records : List Record} {tip : Fixed 32}

/-- The records pass exactly if they are chained from any place whose word is the
number expected first. -/
theorem checkRecords_eq_ok_iff
    (place : Nat) :
    checkRecords crypto prev (UInt64.ofNat place) records = .ok tip ↔
      Chained crypto prev place records ∧ headAfter prev records = tip := by
  induction records generalizing prev place with
  | nil => simp [checkRecords, HashChain.Chained]
  | cons record rest ih =>
    have next : UInt64.ofNat place + 1 = UInt64.ofNat (place + 1) := (UInt64.ofNat_add place 1).symm
    by_cases number : record.seq = UInt64.ofNat place
    · by_cases hash : recordHash crypto prev record.seq record.event = record.hash
      · rw [checkRecords, if_neg (not_not.mpr number), if_neg (not_not.mpr hash), next, ih, hash]
        simp [HashChain.Chained, Record.Fits, number.symm, hash]
      · simp [checkRecords, HashChain.Chained, Record.Fits, number.symm, hash]
    · simp [checkRecords, HashChain.Chained, Record.Fits, number]

/-- A checkpoint is signed by the trusted issuer, and has the hash of the first
record with its number if there is one. -/
def CheckpointOk (crypto : Crypto) (trusted : Fixed 16) (verifySig : Fixed 32 → Signature → Bool)
    (records : List Record) (made : Checkpoint) : Prop :=
  made.issuerId = trusted ∧ verifySig (checkpointDigest crypto made.issuerId made.seq made.head)
      made.signature ∧
    ∀ record, (records.find? fun record => record.seq == made.seq) = some record →
      record.hash = made.head

/-- The check of the checkpoints passes exactly if each of them is in order. -/
theorem checkCheckpoints_eq_ok_iff {checkpoints : List Checkpoint} :
    checkCheckpoints crypto trusted verifySig records checkpoints = .ok () ↔
      ∀ made ∈ checkpoints, CheckpointOk crypto trusted verifySig records made := by
  induction checkpoints with
  | nil => simp [checkCheckpoints]
  | cons made rest ih =>
    rw [List.forall_mem_cons, ← ih, checkCheckpoints, CheckpointOk]
    by_cases signed : made.issuerId ≠ trusted ∨
        verifySig (checkpointDigest crypto made.issuerId made.seq made.head) made.signature = false
    · rw [if_pos signed]
      rcases signed with foreign | forged
      · simp [foreign]
      · simp [forged]
    rw [if_neg signed]
    simp only [not_or, not_not, Bool.not_eq_false] at signed
    obtain ⟨issuer, valid⟩ := signed
    rw [issuer] at valid
    cases found : records.find? fun record => record.seq == made.seq with
    | none => simp [issuer, valid]
    | some record =>
      by_cases hash : record.hash = made.head
      · simp [issuer, valid, hash]
      · simp [hash]

/-- What a log that verifies has passed. -/
theorem verify_eq_ok_iff {log : AuditLog capacity} :
    log.verify crypto trusted verifySig = .ok result ↔
      (log.evicted = 0 → log.anchor = log.genesis) ∧
        Chained crypto log.anchor log.evicted.toNat log.records.items ∧
        headAfter log.anchor log.records.items = log.head ∧ (∀ made ∈ log.checkpoints.items,
          CheckpointOk crypto trusted verifySig log.records.items made) ∧ log.report = result := by
  rw [← checkCheckpoints_eq_ok_iff, verify]
  by_cases genesis : log.evicted = 0 ∧ log.anchor ≠ log.genesis
  · rw [if_pos genesis]
    simp [genesis]
  rw [if_neg genesis]
  have anchored : log.evicted = 0 → log.anchor = log.genesis := by
    simpa using genesis
  have checks (tip : Fixed 32) :
      checkRecords crypto log.anchor log.evicted log.records.items = .ok tip ↔
        Chained crypto log.anchor log.evicted.toNat log.records.items ∧
          headAfter log.anchor log.records.items = tip := by
    rw [← checkRecords_eq_ok_iff, UInt64.ofNat_toNat]
  cases checked : checkRecords crypto log.anchor log.evicted log.records.items with
  | error error =>
    have broken : ¬(Chained crypto log.anchor log.evicted.toNat log.records.items ∧
        headAfter log.anchor log.records.items = log.head) := by
      rw [← checks, checked]
      simp
    simp only [reduceCtorEq, false_iff]
    rintro ⟨-, chained, tip, -⟩
    exact broken ⟨chained, tip⟩
  | ok prev =>
    obtain ⟨chained, rfl⟩ := (checks prev).mp checked
    by_cases tip : headAfter log.anchor log.records.items = log.head
    · cases signed : checkCheckpoints crypto trusted verifySig log.records.items
          log.checkpoints.items with
      | error error => simp [tip]
      | ok _ =>
        simp only [tip, ne_eq, not_true_eq_false, if_false, Except.ok.injEq, chained, true_and]
        exact ⟨fun same => ⟨anchored, same⟩, And.right⟩
    · simp [tip]

/-- The number of a record is the word of its place. -/
theorem seq_of_chained
    (chained : Chained crypto prev first records)
    (there : records[index]? = some record) :
    record.seq = UInt64.ofNat (first + index) :=
  (fits_of_chained chained there).1

end Checks

/-! ## Runs -/

/-- What is done to a log after it has started. -/
inductive Call
  | append (tsc : UInt64) (kind : EventKind) (subject : List Char) (detail : UInt64)
  | checkpoint

/-- A log together with everything that was ever appended to it. -/
structure History (capacity : Nat) where
  log : AuditLog capacity
  appended : List Record

namespace History

/-- A call, and the record it appends. -/
def step (issuer : Issuer) (history : History capacity) : Call → History capacity
  | .append tsc kind subject detail =>
    ⟨(history.log.append issuer.crypto tsc kind subject detail).1, history.appended ++
        [history.log.recordOf issuer.crypto ⟨tsc, kind, truncate subject, detail⟩]⟩
  | .checkpoint => ⟨(history.log.checkpoint issuer).1, history.appended⟩

/-- A log that has just started. -/
def start (issuer : Issuer) : History capacity := ⟨new.start issuer.crypto issuer.id, []⟩

/-- What holds of a log and its history, however long. -/
structure Linked (issuer : Issuer) (history : History capacity) : Prop where
  genesis : history.log.genesis = genesisHash issuer.crypto issuer.id
  head : headAfter history.log.genesis history.appended = history.log.head
  chained : Chained issuer.crypto history.log.genesis 0 history.appended
  nextSeq : history.log.nextSeq = UInt64.ofNat history.appended.length
  last : ∀ last, history.log.records.items.getLast? = some last →
    history.appended.getLast? = some last

/-- What also holds while no two records had the same number. -/
structure Honest (issuer : Issuer) (history : History capacity) : Prop
    extends Linked issuer history where
  few : history.appended.length ≤ 2 ^ 64
  increasing : history.log.checkpoints.items.Pairwise fun early late => early.seq < late.seq
  checkpoints : ∀ made ∈ history.log.checkpoints.items, made.issuerId = issuer.id ∧
      made.signature = issuer.sign auditContext
        (checkpointDigest issuer.crypto made.issuerId made.seq made.head) ∧
      (history.appended[made.seq.toNat]?.map Record.hash) = some made.head

/-- How many of the records do not fit into the ring. -/
def gone (history : History capacity) : Nat := history.appended.length - capacity

/-- What holds of the ring, however long the history. -/
structure Latest (history : History capacity) : Prop where
  evicted : history.log.evicted = UInt64.ofNat history.gone
  records : history.log.records.items = history.appended.drop history.gone
  anchor : history.log.anchor = headAfter history.log.genesis (history.appended.take history.gone)

theorem start_linked (issuer : Issuer) : Linked issuer (start issuer : History capacity) where
  genesis := rfl
  head := rfl
  chained := trivial
  nextSeq := rfl
  last := by
    exact nofun

theorem start_honest (issuer : Issuer) : Honest issuer (start issuer : History capacity) where
  toLinked := start_linked issuer
  few := Nat.zero_le _
  increasing := List.Pairwise.nil
  checkpoints := by
    exact nofun

theorem start_latest (issuer : Issuer) : Latest (start issuer : History capacity) where
  evicted := by simp [start, AuditLog.start, new, gone]
  records := List.drop_nil.symm
  anchor := by simp [start, AuditLog.start, new]

variable {issuer : Issuer} {history : History capacity}

section Append

variable (tsc : UInt64) (kind : EventKind) (subject : List Char) (detail : UInt64)

/-- What is at the end of a queue after an item was appended to it is the item. -/
theorem getLast?_pushBack_makeRoom {vec : BoundedVec α capacity}
    (listed : (vec.makeRoom.2.pushBack item).items.getLast? = some last) : last = item := by
  rcases Nat.eq_zero_or_pos capacity with rfl | positive
  · have none : (vec.makeRoom.2.pushBack item).items = [] :=
      List.eq_nil_of_length_eq_zero (Nat.le_zero.mp (fits _))
    rw [none] at listed
    cases listed
  · rw [items_pushBack (vec.length_makeRoom_lt positive), List.getLast?_concat] at listed
    exact (Option.some.inj listed).symm

theorem Linked.append (linked : Linked issuer history) :
    Linked issuer (step issuer history (.append tsc kind subject detail)) where
  genesis := linked.genesis
  head := by
    change headAfter history.log.genesis (history.appended ++ [_]) = _
    rw [headAfter, tip_append]
    rfl
  chained := by
    refine chained_append.mpr ⟨linked.chained, ⟨?_, ?_⟩, trivial⟩
    · rw [Nat.zero_add]
      exact linked.nextSeq
    · change recordHash _ (headAfter history.log.genesis history.appended) _ _ = _
      rw [linked.head]
      rfl
  nextSeq := by
    simp only [step, List.length_append, List.length_singleton]
    rw [UInt64.ofNat_add, ← linked.nextSeq]
    rfl
  last := by
    intro last listed
    rw [getLast?_pushBack_makeRoom listed]
    exact List.getLast?_concat

theorem Honest.append
    (honest : Honest issuer history)
    (room : history.appended.length < 2 ^ 64) :
    Honest issuer (step issuer history (.append tsc kind subject detail)) where
  toLinked := honest.toLinked.append tsc kind subject detail
  few := by
    simp only [step, List.length_append, List.length_singleton]
    exact room
  increasing := honest.increasing
  checkpoints := by
    intro made listed
    obtain ⟨issued, signed, covered⟩ := honest.checkpoints made listed
    refine ⟨issued, signed, ?_⟩
    obtain ⟨record, there, hash⟩ := Option.map_eq_some_iff.mp covered
    obtain ⟨within, -⟩ := List.getElem?_eq_some_iff.mp there
    rw [step, List.getElem?_append_left within]
    exact covered

variable (positive : 0 < capacity) (latest : Latest history)
include positive latest

/-- Either nothing is evicted, before and after, or the oldest record is. -/
theorem Latest.makeRoom_cases :
    (history.log.records.makeRoom.1 = none ∧ history.gone = 0 ∧
        (step issuer history (.append tsc kind subject detail)).gone = 0) ∨
      ∃ oldest, history.log.records.makeRoom.1 = some oldest ∧
        history.appended[history.gone]? = some oldest ∧
        (step issuer history (.append tsc kind subject detail)).gone = history.gone + 1 := by
  have count := congrArg List.length latest.records
  have longer : (step issuer history (.append tsc kind subject detail)).appended.length =
      history.appended.length + 1 := by
    simp [step]
  unfold gone at count ⊢
  rw [List.length_drop] at count
  rw [longer]
  rcases BoundedVec.makeRoom_cases positive history.log.records with
    ⟨room, same⟩ | ⟨oldest, others, full, items, made⟩
  · exact .inl ⟨by rw [same], by omega, by omega⟩
  · refine .inr ⟨oldest, by rw [made], ?_, by omega⟩
    rw [← List.head?_drop, ← gone, ← latest.records, items, List.head?_cons]

/-- As many records are evicted as do not fit. -/
theorem Latest.evicted_append :
    (step issuer history (.append tsc kind subject detail)).log.evicted =
      UInt64.ofNat (step issuer history (.append tsc kind subject detail)).gone := by
  change history.log.evicted + UInt64.ofNat history.log.records.makeRoom.1.toList.length = _
  rw [latest.evicted, ← UInt64.ofNat_add]
  rcases latest.makeRoom_cases tsc kind subject detail positive with
    ⟨same, before, after⟩ | ⟨oldest, made, -, after⟩
  · rw [same, before, after, Option.toList_none, List.length_nil]
  · rw [made, after, Option.toList_some, List.length_singleton]

/-- The anchor is the hash before the records that remain. -/
theorem Latest.anchor_append :
    (step issuer history (.append tsc kind subject detail)).log.anchor =
      headAfter (step issuer history (.append tsc kind subject detail)).log.genesis
        ((step issuer history (.append tsc kind subject detail)).appended.take
          (step issuer history (.append tsc kind subject detail)).gone) := by
  change (history.log.records.makeRoom.1.map Record.hash).getD history.log.anchor =
    headAfter history.log.genesis ((history.appended ++ [_]).take _)
  rcases latest.makeRoom_cases tsc kind subject detail positive with
    ⟨same, before, after⟩ | ⟨oldest, made, there, after⟩
  · rw [same, Option.map_none, Option.getD_none, latest.anchor, before, after, List.take_zero,
      List.take_zero]
  · obtain ⟨within, -⟩ := List.getElem?_eq_some_iff.mp there
    rw [made, Option.map_some, Option.getD_some, after,
      List.take_append_of_le_length within, List.take_add_one, there, headAfter,
      tip_append]
    rfl

theorem Latest.append : Latest (step issuer history (.append tsc kind subject detail)) where
  evicted := latest.evicted_append tsc kind subject detail positive
  records := items_pushBack_makeRoom positive latest.records
    (history.log.recordOf issuer.crypto ⟨tsc, kind, truncate subject, detail⟩)
  anchor := latest.anchor_append tsc kind subject detail positive

end Append

section

variable (honest : Honest issuer history)
include honest

theorem Honest.checkpoint_lt (listed : made ∈ history.log.checkpoints.items) :
    made.seq.toNat < history.appended.length := by
  obtain ⟨-, -, covered⟩ := honest.checkpoints made listed
  obtain ⟨record, there, -⟩ := Option.map_eq_some_iff.mp covered
  exact (List.getElem?_eq_some_iff.mp there).1

/-- A record's number is its place in the history. -/
theorem Honest.toNat_seq {record : Record} (there : history.appended[index]? = some record) :
    record.seq.toNat = index := by
  obtain ⟨within, -⟩ := List.getElem?_eq_some_iff.mp there
  rw [seq_of_chained honest.chained there, Nat.zero_add]
  exact UInt64.toNat_ofNat_of_lt (within.trans_le honest.few)

theorem Honest.last_record
    {last : Record}
    (listed : history.log.records.items.getLast? = some last) :
    last.seq.toNat = history.appended.length - 1 ∧
      history.appended[last.seq.toNat]? = some last ∧
      last.hash = history.log.head := by
  have final := honest.last last listed
  have there : history.appended[history.appended.length - 1]? = some last := by
    rw [← List.getLast?_eq_getElem?]
    exact final
  have number := honest.toNat_seq there
  refine ⟨number, number ▸ there, ?_⟩
  obtain ⟨early, split⟩ := List.getLast?_eq_some_iff.mp final
  rw [← honest.head, split, headAfter, tip_append]
  rfl

/-- Checkpoints are at or before the latest, and that is before the last record
unless it covers it. -/
theorem Honest.lt_last
    {last : Record}
    (listed : history.log.records.items.getLast? = some last)
    (fresh : ¬(history.log.checkpoints.items.getLast?.any fun latest => latest.seq == last.seq)) :
    ∀ made ∈ history.log.checkpoints.items, made.seq < last.seq := by
  intro made present
  obtain ⟨number, -, -⟩ := honest.last_record listed
  obtain ⟨early, latest, split⟩ :=
    (List.eq_nil_or_concat' history.log.checkpoints.items).resolve_left (List.ne_nil_of_mem present)
  have increasing := honest.increasing
  have within := honest.checkpoint_lt present
  have latestWithin : latest.seq.toNat < history.appended.length :=
    honest.checkpoint_lt (by simp [split])
  have uncovered : latest.seq.toNat ≠ last.seq.toNat := by
    simpa [split, UInt64.toNat_inj] using fresh
  rw [split, List.pairwise_append] at increasing
  rw [split] at present
  rw [UInt64.lt_iff_toNat_lt]
  rcases List.mem_append.mp present with before | final
  · have earlier := UInt64.lt_iff_toNat_lt.mp
      (increasing.2.2 made before latest (List.mem_singleton_self latest))
    omega
  · obtain rfl := List.mem_singleton.mp final
    omega

theorem Honest.checkpoint : Honest issuer (step issuer history .checkpoint) := by
  unfold step AuditLog.checkpoint
  dsimp only
  split
  · exact honest
  rename_i last listed
  split
  · exact honest
  rename_i fresh
  obtain ⟨-, there, tip⟩ := honest.last_record listed
  have room : history.log.checkpoints.makeRoom.2.items.length < maxCheckpoints :=
    length_makeRoom_lt (by decide) _
  have kept := history.log.checkpoints.makeRoom_sublist
  refine { honest with increasing := ?_, checkpoints := ?_ }
  · dsimp only
    rw [items_pushBack room]
    refine List.pairwise_append.mpr
      ⟨honest.increasing.sublist kept, List.pairwise_singleton _ _, ?_⟩
    intro made present final isFinal
    obtain rfl := List.mem_singleton.mp isFinal
    exact honest.lt_last listed fresh made (kept.subset present)
  · dsimp only
    rw [items_pushBack room]
    refine List.forall_mem_append.mpr ⟨?_, List.forall_mem_singleton.mpr ⟨rfl, rfl, ?_⟩⟩
    · exact fun made before => honest.checkpoints made (kept.subset before)
    · rw [there, Option.map_some, tip]

end

theorem Latest.checkpoint (latest : Latest history) : Latest (step issuer history .checkpoint) := by
  unfold step AuditLog.checkpoint
  dsimp only
  split
  · exact latest
  split
  · exact latest
  · exact ⟨latest.evicted, latest.records, latest.anchor⟩

theorem Linked.checkpoint (linked : Linked issuer history) :
    Linked issuer (step issuer history .checkpoint) := by
  unfold step AuditLog.checkpoint
  dsimp only
  split
  · exact linked
  split
  · exact linked
  · exact { linked with }

theorem Linked.step
    (linked : Linked issuer history)
    (call : Call) :
    Linked issuer (History.step issuer history call) := by
  cases call with
  | append tsc kind subject detail => exact linked.append tsc kind subject detail
  | checkpoint => exact linked.checkpoint

theorem Honest.step
    (honest : Honest issuer history)
    (call : Call)
    (few : (History.step issuer history call).appended.length ≤ 2 ^ 64) :
    Honest issuer (History.step issuer history call) := by
  cases call with
  | append tsc kind subject detail =>
    simp only [History.step, List.length_append, List.length_singleton] at few
    exact honest.append tsc kind subject detail few
  | checkpoint => exact honest.checkpoint

theorem Latest.step (positive : 0 < capacity) (latest : Latest history) (call : Call) :
    Latest (History.step issuer history call) := by
  cases call with
  | append tsc kind subject detail => exact latest.append tsc kind subject detail positive
  | checkpoint => exact latest.checkpoint

/-- The history after some calls. -/
abbrev after (issuer : Issuer) (calls : List Call) : History capacity :=
  Run.after (step issuer) (start issuer) calls

/-- How many records the calls append. -/
def appends (calls : List Call) : Nat := calls.countP fun
    | .append _ _ _ _ => true
    | .checkpoint => false

theorem length_appended_step
    (issuer : Issuer)
    (history : History capacity)
    (call : Call) :
    (step issuer history call).appended.length = history.appended.length + appends [call] := by
  cases call with
  | append tsc kind subject detail | checkpoint => simp [step, appends]

theorem length_appended_after (issuer : Issuer) (calls : List Call) :
    (after issuer calls : History capacity).appended.length = appends calls := by
  induction calls using List.reverseRecOn with
  | nil => rfl
  | append_singleton early call ih =>
    rw [after, Run.after_append, Run.after_cons, Run.after_nil, length_appended_step, ih]
    exact List.countP_append.symm

theorem linked_after (issuer : Issuer) (calls : List Call) :
    Linked issuer (after issuer calls : History capacity) :=
  always calls (start_linked issuer) fun _ call linked => linked.step call

theorem latest_after (positive : 0 < capacity) (issuer : Issuer) (calls : List Call) :
    Latest (after issuer calls : History capacity) :=
  always calls (start_latest issuer) fun _ call latest => latest.step positive call

theorem honest_after
    (issuer : Issuer)
    (calls : List Call)
    (few : appends calls ≤ 2 ^ 64) :
    Honest issuer (after issuer calls : History capacity) := by
  -- the history only grows, so it was short enough before each step
  let Holds (history : History capacity) : Prop :=
    history.appended.length ≤ 2 ^ 64 → Honest issuer history
  have initially : Holds (start issuer) := fun _ => start_honest issuer
  have kept : ∀ history call, Holds history → Holds (step issuer history call) := by
    intro history call before few
    have longer := length_appended_step issuer history call
    exact (before (by omega)).step call few
  exact always calls initially kept (by rwa [length_appended_after])

section Ring

variable (positive : 0 < capacity) (honest : Honest issuer history) (latest : Latest history)

include positive honest latest in
/-- The counter of evicted records has not wrapped around. -/
theorem toNat_evicted : history.log.evicted.toNat = history.gone := by
  rw [latest.evicted]
  apply UInt64.toNat_ofNat_of_lt
  have few := honest.few
  unfold gone
  change _ < 2 ^ 64
  omega

include honest latest in
theorem chained_records :
    Chained issuer.crypto history.log.anchor history.gone history.log.records.items ∧
      headAfter history.log.anchor history.log.records.items = history.log.head := by
  have few : (history.appended.take history.gone).length = history.gone :=
    List.length_take_of_le (Nat.sub_le _ _)
  have chained := honest.chained
  have head := honest.head
  rw [← List.take_append_drop history.gone history.appended] at chained head
  rw [headAfter, tip_append] at head
  rw [latest.anchor, latest.records]
  refine ⟨?_, head⟩
  have late := (chained_append.mp chained).2
  rwa [few, Nat.zero_add] at late

include honest latest in
theorem checkpoint_ok
    (signs : ∀ digest, verifyWith issuer.crypto issuer.key digest
      (issuer.sign auditContext digest) auditContext)
    (listed : made ∈ history.log.checkpoints.items) :
    CheckpointOk issuer.crypto issuer.id
      (fun digest signature => verifyWith issuer.crypto issuer.key digest signature auditContext)
      history.log.records.items made := by
  obtain ⟨issued, signed, covered⟩ := honest.checkpoints made listed
  refine ⟨issued, ?_, ?_⟩
  · rw [signed]
    exact signs _
  intro record found
  have number : record.seq = made.seq := by simpa using List.find?_some found
  obtain ⟨index, there⟩ := List.getElem?_of_mem (List.mem_of_find?_eq_some found)
  rw [latest.records, List.getElem?_drop] at there
  rw [← number, honest.toNat_seq there, there] at covered
  exact Option.some.inj covered

include latest in
theorem length_records :
    history.log.records.items.length = min history.appended.length capacity := by
  rw [latest.records, List.length_drop, gone]
  omega

include positive honest latest in
theorem ends_of_records (some' : 0 < history.appended.length) :
    history.log.records.items.head?.map Record.seq = some history.log.evicted ∧
      (history.log.records.items.getLast?.map Record.seq).map UInt64.toNat =
        some (history.appended.length - 1) := by
  have count := length_records latest
  have chained := (chained_records honest latest).1
  have nonempty : 0 < history.log.records.items.length := by omega
  constructor
  · rw [List.head?_eq_getElem?, List.getElem?_eq_getElem nonempty, Option.map_some,
      seq_of_chained chained (List.getElem?_eq_getElem nonempty), Nat.add_zero, latest.evicted]
  · obtain ⟨last, listed⟩ : ∃ last, history.log.records.items.getLast? = some last :=
      ⟨_, List.getLast?_eq_some_getLast (List.ne_nil_of_length_pos nonempty)⟩
    rw [listed, Option.map_some, Option.map_some, (honest.last_record listed).1]

end Ring

end History

/-- A log that was only appended to and checkpointed verifies, with a report that
counts its records, exactly as long as no number was used twice. -/
theorem honest_log_verifies_iff
    (positive : 0 < capacity)
    (issuer : Issuer)
    (signs : ∀ digest, verifyWith issuer.crypto issuer.key digest
      (issuer.sign auditContext digest) auditContext)
    (calls : List Call) :
    let log := (History.after issuer calls : History capacity).log
    let n := History.appends calls
    (∃ report,
      log.verify issuer.crypto issuer.id (fun digest signature =>
        verifyWith issuer.crypto issuer.key digest signature auditContext) = .ok report ∧
      report.records = min n capacity ∧
      report.evicted.toNat = n - report.records ∧
      (0 < n → report.firstSeq = some report.evicted ∧
        report.lastSeq.map UInt64.toNat = some (n - 1)) ∧
      report.latestCheckpoint = log.checkpoints.items.getLast?.map Checkpoint.seq ∧
      ∀ latest, report.latestCheckpoint = some latest →
        latest.toNat < n ∧ report.unsignedTail.toNat = n - 1 - latest.toNat) ↔
      n ≤ 2 ^ 64 := by
  intro log n
  constructor
  · -- the number of the last record is a word
    rintro ⟨report, -, -, -, ends, -⟩
    rcases Nat.eq_zero_or_pos n with none | some'
    · omega
    obtain ⟨last, -, isLast⟩ := Option.map_eq_some_iff.mp (ends some').2
    have word := last.toNat_lt
    omega
  intro few
  have honest : (History.after issuer calls : History capacity).Honest issuer :=
    History.honest_after issuer calls few
  have latest : (History.after issuer calls : History capacity).Latest :=
    History.latest_after positive issuer calls
  have count : (History.after issuer calls : History capacity).appended.length = n :=
    History.length_appended_after issuer calls
  have length : log.records.items.length = min n capacity := by
    rw [History.length_records latest, count]
  have evicted : log.evicted.toNat = n - capacity := by
    rw [History.toNat_evicted positive honest latest, History.gone, count]
  refine ⟨log.report, ?_, length, ?_, ?_, rfl, ?_⟩
  · obtain ⟨chained, head⟩ := History.chained_records honest latest
    rw [← History.toNat_evicted positive honest latest] at chained
    refine verify_eq_ok_iff.mpr ⟨?_, chained, head, ?_, rfl⟩
    · intro none
      have zero : (History.after issuer calls : History capacity).gone = 0 := by
        rw [← History.toNat_evicted positive honest latest, none]
        rfl
      rw [latest.anchor, zero, List.take_zero]
      rfl
    · intro made listed
      exact History.checkpoint_ok honest latest signs listed
  · change log.evicted.toNat = n - log.records.items.length
    rw [length, evicted]
    omega
  · intro some'
    have ends := History.ends_of_records positive honest latest (count ▸ some')
    rwa [count] at ends
  · intro seq isLatest
    obtain ⟨made, listed, rfl⟩ := Option.map_eq_some_iff.mp isLatest
    have within := honest.checkpoint_lt (List.mem_of_getLast? listed)
    rw [count] at within
    refine ⟨within, ?_⟩
    have ends : (log.records.items.getLast?.map Record.seq).map UInt64.toNat = some (n - 1) := by
      rw [← count]
      exact (History.ends_of_records positive honest latest (by omega)).2
    obtain ⟨last, lastSeq, number⟩ := Option.map_eq_some_iff.mp ends
    have covered : made.seq ≤ last := UInt64.le_iff_toNat_le.mpr (by omega)
    have tail : log.report.unsignedTail = last - made.seq := by
      simp only [report, lastSeq, listed, Option.map_some, if_pos covered]
    rw [tail, UInt64.toNat_sub_of_le _ _ covered, number]

/-- An issuer with checksums in the place of hashes, whose signatures are accepted. -/
def sampleIssuer : Issuer where
  crypto := sampleCrypto
  key := ⟨Fixed.replicate 32 1, Fixed.replicate 1952 1⟩
  sign _ _ := ⟨Fixed.replicate 64 0, Fixed.replicate 3309 0⟩

/-- Three records, with a checkpoint after the second. -/
def sampleCalls : List Call := [.append 1 .boot ['k'] 0, .append 2 .capIssued ['a'] 7, .checkpoint,
    .append 3 .capAccepted ['a'] 7]

/-- In a ring of two, the first record is evicted and the last is not signed. -/
theorem honest_log_verifies_sample :
    let log := (History.after sampleIssuer sampleCalls : History 2).log
    ∃ report, log.verify sampleCrypto sampleIssuer.id (fun _ _ => true) = .ok report ∧
        report.records = 2 ∧ report.evicted.toNat = 1 ∧ report.firstSeq = some report.evicted ∧
        report.lastSeq.map UInt64.toNat = some 2 ∧ report.latestCheckpoint = some 1 ∧
        report.unsignedTail.toNat = 1 := by
  obtain ⟨report, verified, records, evicted, ends, latest, tail⟩ :=
    (honest_log_verifies_iff (by decide : 0 < 2) sampleIssuer (fun _ => rfl) sampleCalls).mpr
      (by decide)
  have two : report.records = 2 := records
  have signed : report.latestCheckpoint = some 1 := by
    rw [latest]
    decide +kernel
  rw [two] at evicted
  obtain ⟨first, last⟩ := ends (by decide)
  exact ⟨report, verified, two, evicted, first, last, signed, (tail 1 signed).2⟩

/-- An issuer whose hashes tell the start of the chain from a record. -/
def labelIssuer : Issuer :=
  { sampleIssuer with
    crypto := { sampleCrypto with sha256 := fun input => Fixed.replicate 32 (input.getD 10 0) } }

/-- One more event than there are numbers. -/
def wrappingCalls : List Call := List.replicate (2 ^ 64 + 1) (.append 0 .boot [] 0)

/-- In a ring of one, the counter of evicted records wraps around to zero, and the
log does not verify. -/
theorem wrapped_log_fails :
    (History.after labelIssuer wrappingCalls : History 1).log.verify labelIssuer.crypto
      labelIssuer.id (fun digest signature =>
        verifyWith labelIssuer.crypto labelIssuer.key digest signature auditContext) =
      .error .badGenesis := by
  have count : (History.after labelIssuer wrappingCalls : History 1).appended.length =
      2 ^ 64 + 1 := by
    rw [History.length_appended_after, History.appends, wrappingCalls, List.countP_replicate]
    rfl
  have linked : (History.after labelIssuer wrappingCalls : History 1).Linked labelIssuer :=
    History.linked_after labelIssuer wrappingCalls
  have latest := History.latest_after Nat.one_pos labelIssuer wrappingCalls
  generalize (History.after labelIssuer wrappingCalls : History 1) = history at count linked latest
  have gone : history.gone = (2 ^ 64 - 1) + 1 := by
    rw [History.gone, count]
    rfl
  obtain ⟨record, there⟩ : ∃ record, history.appended[2 ^ 64 - 1]? = some record :=
    ⟨_, List.getElem?_eq_getElem (by omega)⟩
  have anchor : history.log.anchor = record.hash := by
    rw [latest.anchor, gone, List.take_add_one, there, headAfter, tip_append]
    rfl
  have zero : history.log.evicted = 0 := by
    rw [latest.evicted, gone]
    rfl
  have apart : history.log.anchor ≠ history.log.genesis := by
    obtain ⟨-, hash⟩ := fits_of_chained linked.chained there
    rw [anchor, linked.genesis, ← hash]
    exact nofun
  rw [verify, if_pos ⟨zero, apart⟩]

end AuditLog
end Cdk.Audit

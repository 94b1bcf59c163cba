import Cdk.Kernel.Objects
import Cdk.Peer.Sealed

/-!
# Delivering a peer's message

`deliver` verifies an inbound message, records it, commits the record and only then appends the
message to the queue of its object.  A refusal leaves no trace of the message except in the two
cases of `deliver_leaves_no_trace_iff`: the object's queue turns out to be full, or the commit
took place and was reported as failed.
-/

namespace Cdk.Peer

open ByteFormat Link Kernel BoundedVec

/-! ## The model -/

/-- What a delivery reads and does not change. -/
structure Setting where
  /-- The registry key pinned in the ramdisk. -/
  registry : Option Identity
  node : Option NodeName
  /-- The policy requires a sealed store. -/
  requireStore : Bool
  tpmReady : Bool

/-- What peers' messages change. -/
structure Node where
  objects : Objects
  lists : Lists
  store : Sealed
  deriving DecidableEq

def containsText (text part : String) : Bool :=
  text.toList.tails.any fun rest => part.toList.isPrefixOf rest

/-- The reject code for an error of the verification. -/
def messageReason (text : String) : Reject :=
  if containsText text "expired" then .expired
  else if containsText text "issued by this node" || containsText text "another node" then .notForUs
  else .badSignature

def senderLabel (message : PeerMessage) : Bytes :=
  ascii "peer:" ++ message.sender.name.text ++ ascii "/" ++ message.from.text

section

variable (crypto : Crypto) (setting : Setting) (outcome : WriteOutcome) (node : Node)
  (now : UInt64) (message : PeerMessage)

/-- The checks before anything is recorded; gives the object's id. -/
def screen : Except Refusal Bytes :=
  match setting.registry, setting.node with
  | none, _ => .error ⟨.noRegistry, "no registry key pinned in the ramdisk"⟩
  | some _, none => .error ⟨.notForUs, "this node has no certificate yet"⟩
  | some registry, some me =>
    match message.verify crypto registry me now with
    | .error error => .error ⟨messageReason error.text, error.text⟩
    | .ok () =>
      match messagePolicy message node.lists.revoked.items with
      | .error refusal => .error refusal
      | .ok () =>
        match node.store.acceptanceBlocked setting.requireStore setting.tpmReady with
        | some _ => .error ⟨.store, "the sealed store is unusable"⟩
        | none =>
          match node.objects.findByName message.grant.object.text with
          | none =>
            .error ⟨.noObject, "no single object of that name on this node"⟩
          | some id => .ok id

/-- The entry that refuses a message once it is delivered.  It matters until the
sender's certificate or the delegation expires. -/
def seenEntry : Seen where
  id := message.sender.issuer.id crypto
  n := message.seq
  notAfter := min message.sender.notAfter message.grant.notAfter

/-- Record an entry, making room among the expired ones if the list is full. -/
def recordSeen (seen : BoundedVec Seen maxDelivered) (entry : Seen) (now : UInt64) :
    BoundedVec Seen maxDelivered × Except String Unit :=
  if seen.items.any fun old => old.id == entry.id && old.n == entry.n then
    (seen, .error "already delivered")
  else
    let kept :=
      if seen.isFull then seen.retain fun old => old.notAfter ≥ now else seen
    match kept.push? entry with
    | none =>
      (kept, .error "replay list full: no more messages until some expire")
    | some pushed => (pushed, .ok ())

/-- Deliver a message that passes. -/
def deliverMessage : Node × Except Refusal (Bytes × Bytes) :=
  match screen crypto setting node now message with
  | .error refusal => (node, .error refusal)
  | .ok id =>
    let entry := seenEntry crypto message
    let recorded := recordSeen node.lists.seen entry now
    let lists : Lists := { node.lists with seen := recorded.1 }
    match recorded.2 with
    | .error text => ({ node with lists := lists }, .error ⟨.replayed, text⟩)
    | .ok () =>
      let committed := node.store.commit lists (some now) outcome
      match committed.2 with
      | .error _ =>
        ({ node with
            lists := { lists with
              seen := recorded.1.retain fun old => old != entry }
            store := committed.1 },
          .error ⟨.store, "could not be recorded in the sealed store"⟩)
      | .ok _ =>
        let kept : Node :=
          { node with lists := lists, store := committed.1 }
        match Message.new (senderLabel message) id (.data message.payload.bytes) with
        | none =>
          (kept, .error ⟨.malformed, "message fields too long"⟩)
        | some appended =>
          match node.objects.sendMessageDirect id appended with
          | .error _ =>
            (kept, .error ⟨.noObject, "the object's queue is full"⟩)
          | .ok objects =>
            ({ kept with objects := objects }, .ok (senderLabel message, message.grant.object.text))

/-- The time and the message. -/
def parseDelivered (delivered : Bytes) : Option (UInt64 × PeerMessage) :=
  if delivered.length < 8 then none
  else (PeerMessage.decode (delivered.drop 8)).map (UInt64.ofNat (leValue (delivered.take 8)), ·)

/-- Deliver what the gateway hands over. -/
def deliver (delivered : Bytes) : Node × Except Refusal (Bytes × Bytes) :=
  match parseDelivered delivered with
  | none => (node, .error ⟨.malformed, "not a peer message"⟩)
  | some (now, message) =>
    deliverMessage crypto setting outcome node now message

theorem parseDelivered_encode :
    parseDelivered (le64 now ++ message.encode) = some (now, message) := by
  have timeBytes : (le64 now ++ message.encode).take 8 = le64 now :=
    List.take_left' (length_le64 now)
  have messageBytes : (le64 now ++ message.encode).drop 8 = message.encode :=
    List.drop_left' (length_le64 now)
  rw [parseDelivered, if_neg (by simp), timeBytes, messageBytes, PeerMessage.decode_encode]
  simp

theorem deliver_encode : deliver crypto setting outcome node (le64 now ++ message.encode) =
      deliverMessage crypto setting outcome node now message := by
  rw [deliver, parseDelivered_encode]

end

/-! ## How a delivery ends -/

/-- A replay list after some expired entries may have been dropped. -/
structure Keeps (now : UInt64) (before after : BoundedVec Seen capacity) : Prop where
  sublist : after.items.Sublist before.items
  unexpired : ∀ entry ∈ before.items, now ≤ entry.notAfter → entry ∈ after.items

theorem Keeps.refl (now : UInt64) (seen : BoundedVec Seen capacity) : Keeps now seen seen :=
  ⟨.refl _, fun _ present _ => present⟩

theorem Keeps.retain (now : UInt64) (seen : BoundedVec Seen capacity) :
    Keeps now seen (seen.retain fun old => old.notAfter ≥ now) where
  sublist := List.filter_sublist
  unexpired := by
    intro entry present valid
    exact List.mem_filter.mpr ⟨present, by simpa using valid⟩

variable (seen : BoundedVec Seen maxDelivered)

/-- There is room for one more entry, if need be in the place of an expired
one. -/
def HasRoom (now : UInt64) : Prop :=
  seen.items.length < maxDelivered ∨ ∃ old ∈ seen.items, old.notAfter < now

theorem any_key_iff (seen : List Seen) (entry : Seen) :
    (seen.any fun old => old.id == entry.id && old.n == entry.n) ↔
      entry.key ∈ seen.map Seen.key := by
  simp [Seen.key]

/-- Whether there is room after the expired entries of a full list are gone. -/
theorem room_iff (now : UInt64) : (if seen.isFull then seen.retain fun old => old.notAfter ≥ now
    else seen).items.length < maxDelivered ↔ HasRoom seen now := by
  unfold HasRoom
  split
  · rename_i full
    rw [isFull_iff] at full
    have dropped : (seen.items.filter fun old => old.notAfter ≥ now).length <
        seen.items.length ↔ ∃ old ∈ seen.items, old.notAfter < now := by
      rw [List.length_filter_lt_length_iff_exists]
      simp
    have fits := seen.fits
    simp only [items_retain, full, false_or, ← dropped]
    omega
  · rename_i notFull
    rw [Bool.not_eq_true, ← Bool.not_eq_true, isFull_iff, not_not] at notFull
    simp [notFull]

theorem recordSeen_cases (entry : Seen) (now : UInt64) :
    ((entry.key ∉ seen.items.map Seen.key ∧ HasRoom seen now) ∧
        ∃ kept pushed, recordSeen seen entry now = (pushed, .ok ()) ∧
          Keeps now seen kept ∧ pushed.items = kept.items ++ [entry]) ∨
      (¬(entry.key ∉ seen.items.map Seen.key ∧ HasRoom seen now) ∧
        ∃ kept text, recordSeen seen entry now = (kept, .error text) ∧ Keeps now seen kept) := by
  by_cases known : entry.key ∈ seen.items.map Seen.key
  · have refused : recordSeen seen entry now =
        (seen, .error "already delivered") := by
      rw [recordSeen, if_pos ((any_key_iff _ _).mpr known)]
    exact .inr ⟨fun fresh => fresh.1 known, seen, _, refused, .refl now seen⟩
  have unknown := mt (any_key_iff seen.items entry).mp known
  simp only [recordSeen, if_neg unknown]
  have room := room_iff seen now
  have keeps : Keeps now seen (if seen.isFull then seen.retain fun old => old.notAfter ≥ now
        else seen) := by
    split
    · exact .retain now seen
    · exact .refl now seen
  generalize (if seen.isFull then seen.retain fun old => old.notAfter ≥ now
    else seen) = kept at room keeps ⊢
  cases result : kept.push? entry with
  | none =>
    rw [push?_eq_none_iff, room] at result
    exact .inr ⟨fun fresh => result fresh.2, kept, _, rfl, keeps⟩
  | some pushed =>
    obtain ⟨fits, items⟩ := push?_eq_some_iff.mp result
    exact .inl ⟨⟨known, room.mp fits⟩, kept, pushed, rfl, keeps, items⟩

variable {seen}

theorem retain_pushed {seen kept pushed : BoundedVec Seen capacity}
    (fresh : entry.key ∉ seen.items.map Seen.key) (keeps : Keeps now seen kept)
    (items : pushed.items = kept.items ++ [entry]) :
    pushed.retain (fun old => old != entry) = kept := by
  have absent : ∀ old ∈ kept.items, old ≠ entry := by
    rintro old present rfl
    exact fresh (List.mem_map_of_mem (keeps.sublist.subset present))
  apply ext
  rw [items_retain, items, List.filter_append,
    List.filter_eq_self.mpr fun old present => by simpa using absent old present]
  simp

section

variable (crypto : Crypto) (setting : Setting) (outcome : WriteOutcome) (node : Node)
  (now : UInt64) (message : PeerMessage)

/-- The message passes all checks and gets an entry in the list. -/
structure Recordable (id : Bytes) : Prop where
  screened : screen crypto setting node now message = .ok id
  fresh : (seenEntry crypto message).key ∉ node.lists.seen.items.map Seen.key
  room : HasRoom node.lists.seen now

/-- The ways a delivery ends. -/
inductive Delivers : Node → Except Refusal (Bytes × Bytes) → Prop where
  /-- Refused before anything was recorded. -/
  | refused (refusal : Refusal) (kept : BoundedVec Seen maxDelivered)
      (unrecordable : ∀ id, ¬Recordable crypto setting node now message id)
      (keeps : Keeps now node.lists.seen kept) :
      Delivers { node with lists := { node.lists with seen := kept } } (.error refusal)
  /-- Recorded, not committed, and taken out again. -/
  | uncommitted (id : Bytes) (kept pushed : BoundedVec Seen maxDelivered) (store : Sealed)
      (why : String) (refusal : Refusal)
      (recordable : Recordable crypto setting node now message id)
      (keeps : Keeps now node.lists.seen kept)
      (recorded : pushed.items = kept.items ++ [seenEntry crypto message])
      (committed : node.store.commit { node.lists with seen := pushed }
        (some now) outcome = (store, .error why)) :
      Delivers { node with lists := { node.lists with seen := kept }, store := store }
        (.error refusal)
  /-- Recorded, but the object's queue is full. -/
  | undelivered (id : Bytes) (kept pushed : BoundedVec Seen maxDelivered) (store : Sealed)
      (durable : Bool) (refusal : Refusal)
      (recordable : Recordable crypto setting node now message id)
      (keeps : Keeps now node.lists.seen kept)
      (recorded : pushed.items = kept.items ++ [seenEntry crypto message])
      (committed : node.store.commit { node.lists with seen := pushed }
        (some now) outcome = (store, .ok durable)) (full : node.objects.queueFull id) :
      Delivers { node with lists := { node.lists with seen := pushed }, store := store }
        (.error refusal)
  /-- Recorded and appended to the object's queue. -/
  | delivered (id : Bytes) (kept pushed : BoundedVec Seen maxDelivered) (store : Sealed)
      (durable : Bool) (objects : Objects)
      (recordable : Recordable crypto setting node now message id)
      (keeps : Keeps now node.lists.seen kept)
      (recorded : pushed.items = kept.items ++ [seenEntry crypto message])
      (committed : node.store.commit { node.lists with seen := pushed }
        (some now) outcome = (store, .ok durable))
      (sent : node.objects.sendMessageDirect id
        ⟨senderLabel message, id, .data message.payload.bytes⟩ = .ok objects) :
      Delivers ⟨objects, { node.lists with seen := pushed }, store⟩
        (.ok (senderLabel message, message.grant.object.text))

end

variable {now : UInt64} {message : PeerMessage} {setting : Setting} {crypto : Crypto} {node : Node}

theorem screen_ok {id : Bytes} (screened : screen crypto setting node now message = .ok id) :
    (∃ registry me, setting.registry = some registry ∧ setting.node = some me ∧
        message.Verified crypto registry me now) ∧
      node.store.acceptanceBlocked setting.requireStore setting.tpmReady = none ∧
      node.objects.findByName message.grant.object.text = some id := by
  unfold screen at screened
  split at screened
  · cases screened
  · cases screened
  rename_i registry me pinned certified
  split at screened
  · cases screened
  rename_i verified
  rw [PeerMessage.verify_ok_iff] at verified
  split at screened
  · cases screened
  split at screened
  · cases screened
  rename_i accepting
  split at screened
  · cases screened
  · rename_i found
    cases screened
    exact ⟨⟨registry, me, pinned, certified, verified⟩, accepting, found⟩

/-- The fields of a delivered message are never too long. -/
theorem message_new (message : PeerMessage) {id : Bytes} (fits : id.length ≤ maxId)
    (payload : MessagePayload) : Message.new (senderLabel message) id payload =
      some ⟨senderLabel message, id, payload⟩ := by
  have node := length_nodeName message.sender.name
  have agent := length_senderName message.from
  have front : (ascii "peer:").length = 5 := by decide
  have slash : (ascii "/").length = 1 := by decide
  have label : (senderLabel message).length ≤ maxId := by
    simp only [senderLabel, List.length_append, front, slash, maxId]
    omega
  rw [Message.new, if_neg]
  simpa using ⟨label, fits⟩

theorem deliverMessage_delivers (crypto : Crypto) (setting : Setting) (outcome : WriteOutcome)
    (node : Node) (now : UInt64) (message : PeerMessage) :
    Delivers crypto setting outcome node now message
      (deliverMessage crypto setting outcome node now message).1
      (deliverMessage crypto setting outcome node now message).2 := by
  unfold deliverMessage
  cases screened : screen crypto setting node now message with
  | error refusal =>
    refine .refused refusal node.lists.seen ?_ (.refl _ _)
    intro id recordable
    rw [recordable.screened] at screened
    cases screened
  | ok id =>
    obtain ⟨-, -, found⟩ := screen_ok screened
    obtain ⟨object, got, rfl⟩ := Objects.get_of_findByName found
    rcases recordSeen_cases node.lists.seen (seenEntry crypto message) now
      with ⟨⟨fresh, room⟩, kept, pushed, result, keeps, items⟩ |
        ⟨unrecordable, kept, text, result, keeps⟩
    · have recordable : Recordable crypto setting node now message object.id :=
        ⟨screened, fresh, room⟩
      simp only [result]
      cases committed : node.store.commit { node.lists with seen := pushed } (some now) outcome with
      | mk store answer =>
        cases answer with
        | error why =>
          have back : pushed.retain (fun old =>
              old != seenEntry crypto message) = kept :=
            retain_pushed fresh keeps items
          simp only [back]
          exact .uncommitted _ kept pushed store why _ recordable keeps items committed
        | ok durable =>
          simp only [message_new message object.idFits]
          cases sent : node.objects.sendMessageDirect object.id ⟨senderLabel message, object.id,
                .data message.payload.bytes⟩ with
          | error error =>
            have full := (Objects.sendMessageDirect_error_iff got _).mp ⟨error, sent⟩
            exact .undelivered _ kept pushed store durable _ recordable keeps items committed full
          | ok objects =>
            exact .delivered _ kept pushed store durable objects
              recordable keeps items committed sent
    · simp only [result]
      refine .refused _ kept ?_ keeps
      intro other recordable
      exact unrecordable ⟨recordable.fresh, recordable.room⟩

variable {outcome : WriteOutcome}

/-! ## Refusals without a trace -/

namespace Sealed

def accepts (store : Sealed) (outcome : WriteOutcome) : Bool :=
  match store.mode, outcome with
  | .ready, .committed | .off _, _ => true
  | _, _ => false

/-- A commit takes effect but reports a failure. -/
def loses (store : Sealed) (outcome : WriteOutcome) : Bool :=
  match store.mode, outcome with
  | .ready, .lost _ => true
  | _, _ => false

theorem of_commit_ok {store later : Sealed}
    (committed : store.commit lists now outcome = (later, .ok durable)) :
    store.accepts outcome ∧ store.loses outcome = false := by
  obtain ⟨mode, records⟩ := store
  cases mode with
  | ready => cases outcome <;> cases committed; simp [accepts, loses]
  | _ => cases committed <;> simp [accepts, loses]

theorem of_commit_error {store later : Sealed}
    (committed : store.commit lists now outcome = (later, .error why)) :
    store.accepts outcome = false ∧ (store.loses outcome ∧
          later = { store with records := Store.written lists now } ∨
        store.loses outcome = false ∧ later = store) := by
  obtain ⟨mode, records⟩ := store
  cases mode with
  | ready => cases outcome <;> cases committed <;> simp [accepts, loses]
  | _ => cases committed <;> simp [accepts, loses]

end Sealed

/-- No queue has changed and there is no new entry for a message, neither in
the list nor in the committed records. -/
structure NoTrace (before after : Node) (key : Fixed 16 × UInt64) : Prop where
  objects : after.objects = before.objects
  seen : ∀ entry ∈ after.lists.seen.items, entry.key = key → entry ∈ before.lists.seen.items
  records : ∀ entry ∈ after.store.records.delivered, entry.key = key →
    entry ∈ before.store.records.delivered

/-- What a refused delivery should leave: no trace of the message, and nothing
at all if there was no message. -/
def LeavesNoTrace (crypto : Crypto) (before after : Node) (delivered : Bytes) : Prop :=
  match parseDelivered delivered with
  | none => after = before
  | some (_, message) => NoTrace before after (seenEntry crypto message).key

/-- The message gets an entry, and then the object's queue is full, or the
entry is committed although the commit reports a failure. -/
def Trapped (crypto : Crypto) (setting : Setting) (outcome : WriteOutcome) (node : Node)
    (now : UInt64) (message : PeerMessage) : Prop :=
  ∃ id, Recordable crypto setting node now message id ∧
    (node.store.accepts outcome ∧ node.objects.queueFull id ∨
      node.store.loses outcome ∧ seenEntry crypto message ∉ node.store.records.delivered)

theorem mem_written_delivered : entry ∈ (Store.written lists (some now)).delivered ↔
    entry ∈ lists.seen.items ∧ now ≤ entry.notAfter := by
  simp [Store.written, Records.prune, snapshot]

/-- A message that passes the checks has not expired. -/
theorem Recordable.unexpired {id : Bytes}
    (recordable : Recordable crypto setting node now message id) :
    now ≤ (seenEntry crypto message).notAfter := by
  obtain ⟨⟨registry, me, -, -, verified⟩, -⟩ := screen_ok recordable.screened
  change now ≤ if message.sender.notAfter ≤ message.grant.notAfter then
    message.sender.notAfter else message.grant.notAfter
  split
  · exact verified.senderValid
  · exact verified.grantValid

theorem Recordable.id_eq {id other : Bytes}
    (recordable : Recordable crypto setting node now message id)
    (again : Recordable crypto setting node now message other) : id = other := by
  have same := recordable.screened.symm.trans again.screened
  exact Except.ok.inj same

theorem NoTrace.of_keeps (keeps : Keeps now node.lists.seen kept) (key : Fixed 16 × UInt64) :
    NoTrace node { node with lists := { node.lists with seen := kept } } key :=
  ⟨rfl, fun _ present _ => keeps.sublist.subset present, fun _ present _ => present⟩

theorem noTrace_of_not_trapped {node after : Node}
    (delivers : Delivers crypto setting outcome node now message after (.error refusal))
    (free : ¬Trapped crypto setting outcome node now message) :
    NoTrace node after (seenEntry crypto message).key := by
  cases delivers with
  | refused _ kept unrecordable keeps => exact .of_keeps keeps _
  | uncommitted id kept pushed store why _ recordable keeps recorded committed =>
      refine ⟨rfl, (NoTrace.of_keeps keeps _).seen, ?_⟩
      rcases (Sealed.of_commit_error committed).2 with
        ⟨loses, rfl⟩ | ⟨-, rfl⟩
      · have old : seenEntry crypto message ∈ node.store.records.delivered := by
          by_contra new
          exact free ⟨id, recordable, .inr ⟨loses, new⟩⟩
        intro entry present same
        have listed := (mem_written_delivered.mp present).1
        rw [recorded, List.mem_append, List.mem_singleton] at listed
        rcases listed with early | rfl
        · refine absurd ?_ recordable.fresh
          rw [← same]
          exact List.mem_map_of_mem (keeps.sublist.subset early)
        · exact old
      · exact fun _ present _ => present
  | undelivered id kept pushed store durable _ recordable keeps recorded committed full =>
      exact absurd ⟨id, recordable, .inl ⟨(Sealed.of_commit_ok committed).1, full⟩⟩ free

theorem trace_of_trapped {node after : Node}
    (delivers : Delivers crypto setting outcome node now message after result)
    (trapped : Trapped crypto setting outcome node now message) :
    (∃ refusal, result = .error refusal) ∧ ¬NoTrace node after (seenEntry crypto message).key := by
  obtain ⟨id, recordable, trap⟩ := trapped
  cases delivers with
  | refused _ kept unrecordable keeps =>
    exact absurd recordable (unrecordable id)
  | uncommitted other kept pushed store why _ _ keeps recorded committed =>
    refine ⟨⟨_, rfl⟩, fun clean => ?_⟩
    obtain ⟨rejects, stored⟩ := Sealed.of_commit_error committed
    obtain ⟨loses, new⟩ := trap.resolve_left fun accepted => by simp [rejects] at accepted
    obtain ⟨-, rfl⟩ := stored.resolve_right fun kept => by simp [loses] at kept
    apply new
    refine clean.records _ (mem_written_delivered.mpr ⟨?_, ?_⟩) rfl
    · rw [recorded]
      exact List.mem_append_right _ List.mem_cons_self
    · exact recordable.unexpired
  | undelivered other kept pushed store durable _ _ keeps recorded committed full =>
      refine ⟨⟨_, rfl⟩, fun clean => ?_⟩
      have old := clean.seen (seenEntry crypto message) (by
          rw [recorded]
          exact List.mem_append_right _ List.mem_cons_self) rfl
      exact recordable.fresh (List.mem_map_of_mem old)
  | delivered other kept pushed store durable objects again keeps recorded committed sent =>
      exfalso
      obtain rfl := recordable.id_eq again
      rcases trap with ⟨-, full⟩ | ⟨loses, -⟩
      · obtain ⟨-, -, found⟩ := screen_ok recordable.screened
        obtain ⟨object, got, -⟩ := Objects.get_of_findByName found
        obtain ⟨error, failed⟩ := (Objects.sendMessageDirect_error_iff got _).mpr full
        rw [sent] at failed
        cases failed
      · rw [(Sealed.of_commit_ok committed).2] at loses
        cases loses

/-- A refused delivery leaves no trace of the message, exactly if the message
is not trapped between the record and the queue. -/
theorem deliver_leaves_no_trace_iff
    (crypto : Crypto)
    (setting : Setting)
    (outcome : WriteOutcome)
    (node : Node)
    (delivered : Bytes) :
    (∀ refusal, (deliver crypto setting outcome node delivered).2 = .error refusal →
          LeavesNoTrace crypto node (deliver crypto setting outcome node delivered).1 delivered) ↔
      ∀ now message, parseDelivered delivered = some (now, message) →
        ¬Trapped crypto setting outcome node now message := by
  cases parsed : parseDelivered delivered with
  | none => simp [deliver, LeavesNoTrace, parsed]
  | some entry =>
    obtain ⟨now, message⟩ := entry
    have delivers := deliverMessage_delivers crypto setting outcome node now message
    simp only [deliver, LeavesNoTrace, parsed]
    constructor
    · rintro clean now message ⟨⟩ trapped
      obtain ⟨⟨refusal, refused⟩, trace⟩ := trace_of_trapped delivers trapped
      exact trace (clean refusal refused)
    · intro free refusal refused
      rw [refused] at delivers
      exact noTrace_of_not_trapped delivers (free now message rfl)

/-! ## A message that is refused for good -/

def sampleHub : NodeName := ⟨ascii "hub", by decide⟩

/-- A peer. -/
def sampleEdge : NodeName := ⟨ascii "edge", by decide⟩

def sampleRoot : Fixed 16 := Identity.id sampleCrypto default

/-- A certificate of a node, valid until a time. -/
def sampleCert (name : NodeName) (notAfter : UInt64) : NodeCert :=
  { (default : NodeCert) with
    name := name
    registry := sampleRoot
    notAfter := notAfter
    authority := { (default : NodeAuthority) with
      root := sampleRoot
      node := name
      notAfter := notAfter } }

/-- A message of the peer to the object `object` of this node. -/
def sampleMessage (seq notAfter : UInt64) : PeerMessage :=
  { (default : PeerMessage) with
    sender := sampleCert sampleEdge notAfter
    grant := { (default : PortableCap) with
      cert := sampleCert sampleHub notAfter
      perms := sendBit
      audience := sampleEdge
      serial := 1
      notAfter := notAfter }
    seq := seq }

/-- A certified node whose boot has a TPM. -/
def sampleSetting : Setting := ⟨some default, some sampleHub, false, true⟩

def sampleQueued : Message := ⟨ascii "pid-1", ascii "obj-1", .data [1]⟩

def sampleNode (queue : BoundedVec Message maxMessages) : Node where
  objects :=
    ⟨[⟨ascii "obj-1", by decide, ascii "object", queue⟩], List.nodup_singleton _⟩
  lists := .empty
  store := ⟨.ready, ⟨[], [], []⟩⟩

def fullNode : Node := sampleNode ⟨List.replicate 8 sampleQueued, by decide⟩

theorem deliver_to_full_queue_leaves_trace : ¬∀ refusal,
    (deliver sampleCrypto sampleSetting .committed fullNode
        (le64 50 ++ (sampleMessage 1 100).encode)).2 = .error refusal →
      LeavesNoTrace sampleCrypto fullNode (deliver sampleCrypto sampleSetting .committed fullNode
          (le64 50 ++ (sampleMessage 1 100).encode)).1
        (le64 50 ++ (sampleMessage 1 100).encode) := by
  intro clean
  simp only [deliver_encode, LeavesNoTrace, parseDelivered_encode] at clean
  have refused : (deliverMessage sampleCrypto sampleSetting .committed fullNode
      50 (sampleMessage 1 100)).2 = .error ⟨.noObject, "the object's queue is full"⟩ := by
    decide +kernel
  have recorded : seenEntry sampleCrypto (sampleMessage 1 100) ∈
      (deliverMessage sampleCrypto sampleSetting .committed fullNode 50
        (sampleMessage 1 100)).1.lists.seen.items := by
    decide +kernel
  have old := (clean _ refused).seen _ recorded rfl
  cases old

end Cdk.Peer

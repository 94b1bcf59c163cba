import Mathlib.Data.List.Induction
import Cdk.Link.Session

/-!
# Senders on several processors

`sendData` numbers and encrypts a message under the session's lock, lets go of it and then writes
the frame.  Every number that was given out is on the wire, was lost, or waits at one processor
(`Placed`).  `sealed_frames_accepted_iff`: the gateway opens every frame exactly if none is written
while a frame with a lower number waits at a processor, or after one was lost.
-/

namespace Cdk.Link

open ByteFormat Session Run

/-- What a frame carries. -/
inductive FrameKind
  | hello
  | ping
  | pong
  | data
  | handshake
  | sealed
  deriving DecidableEq

/-- A frame on the wire. -/
structure Frame where
  kind : FrameKind
  payload : Bytes
  deriving DecidableEq

/-- The sealed message of a frame. -/
def Frame.sealed? (frame : Frame) : Option Bytes :=
  if frame.kind = .sealed then some frame.payload else none

/-- The kernel's end of the link. -/
structure Sender (Cpu : Type u) where
  session : Option Session
  /-- The frame of a call that has let go of the lock and has not written. -/
  pending : Cpu → Option Frame
  /-- The frames the transport has taken. -/
  wire : List Frame
  /-- The frames the transport has not taken. -/
  lost : List Frame
  /-- What the calls returned: whether the message was sealed, or an error. -/
  answers : List (Cpu × Except Bytes Bool)

namespace Sender

variable {Cpu : Type u} [DecidableEq Cpu]

/-- The two halves of a call of `send_data`. -/
inductive Move (Cpu : Type u)
  /-- A processor calls `send_data` and gets as far as dropping the lock. -/
  | enter (cpu : Cpu) (data : Bytes)
  /-- The frame is written, or the transport fails. -/
  | write (cpu : Cpu) (transport : Except Bytes Unit)

/-- Number and seal the data under the lock, or keep it in the clear where there
is no session. -/
def enter (sender : Sender Cpu) (aead : Aead) (cpu : Cpu) (data : Bytes) : Sender Cpu :=
  match sender.session with
  | some session =>
    match session.seal aead data maxPayload with
    | (session', .ok payload) =>
      { sender with
        session := some session'
        pending := Function.update sender.pending cpu (some ⟨.sealed, payload⟩) }
    | (session', .error _) =>
      { sender with
        session := some session'
        answers := sender.answers ++ [(cpu, .error (ascii "message too large to seal"))] }
  | none =>
    { sender with
      pending := Function.update sender.pending cpu (some ⟨.data, data⟩) }

/-- Hand a frame to the transport, if it is not too large. -/
def send (frame : Frame) (transport : Except Bytes Unit) : Except Bytes Unit :=
  if maxPayload < frame.payload.length then .error (ascii "frame too large")
  else transport

/-- Write the frame that a processor holds. -/
def write (sender : Sender Cpu) (cpu : Cpu) (frame : Frame)
    (transport : Except Bytes Unit) : Sender Cpu :=
  let sender := { sender with pending := Function.update sender.pending cpu none }
  match send frame transport with
  | .ok () =>
    { sender with
      wire := sender.wire ++ [frame]
      answers := sender.answers ++ [(cpu, .ok (frame.kind = .sealed))] }
  | .error error =>
    { sender with
      lost := sender.lost ++ [frame]
      answers := sender.answers ++ [(cpu, .error error)] }

/-- A processor makes one call at a time. -/
def step (aead : Aead) (sender : Sender Cpu) : Move Cpu → Sender Cpu
  | .enter cpu data =>
    match sender.pending cpu with
    | none => sender.enter aead cpu data
    | some _ => sender
  | .write cpu transport =>
    match sender.pending cpu with
    | none => sender
    | some frame => sender.write cpu frame transport

/-- An established session that nobody has a frame to write for. -/
def start (session : Session) : Sender Cpu := ⟨some session, fun _ => none, [], [], []⟩

/-- The sealed messages among frames. -/
def sealedOn (frames : List Frame) : List Bytes := frames.filterMap Frame.sealed?

/-! ## The gateway's end -/

/-- What a session answers to sealed messages that arrive one after another. -/
def receive (aead : Aead) : Session → List Bytes → List (Except SealError Bytes)
  | _, [] => []
  | session, bytes :: rest =>
    let result := session.open aead bytes maxPayload
    result.2 :: receive aead result.1 rest

/-- The other end of a session. -/
def gatewaySession (session : Session) : Session :=
  ⟨session.rx, session.tx, session.rxSeq, session.txSeq⟩

/-- Every message is opened. -/
def Accepted (aead : Aead) (session : Session) (messages : List Bytes) : Prop :=
  ∀ answer ∈ receive aead session messages, ∃ plaintext, answer = .ok plaintext

theorem accepted_cons {session : Session} : Accepted aead session (bytes :: rest) ↔
    (∃ plaintext, (session.open aead bytes maxPayload).2 = .ok plaintext) ∧
      Accepted aead (session.open aead bytes maxPayload).1 rest := by
  simp [Accepted, receive]

/-- The messages are numbered one after another. -/
def Numbered : Nat → List Bytes → Prop
  | _, [] => True
  | next, bytes :: rest => (seqOf bytes).toNat = next ∧ Numbered (next + 1) rest

/-- The message was sealed with the key. -/
def SealedWith (aead : Aead) (key : Fixed 32) (bytes : Bytes) : Prop := ∃ seq plaintext body tag,
    seq ≠ 0xFFFFFFFFFFFFFFFF ∧ plaintext.length ≤ maxPlaintext ∧
      aead.encrypt key (nonce seq) (aad seq) plaintext = some (body, tag) ∧
      bytes = le64 seq ++ body ++ tag.bytes

theorem toNat_add_one {seq : UInt64} (top : seq ≠ 0xFFFFFFFFFFFFFFFF) :
    (seq + 1).toNat = seq.toNat + 1 := by
  have below : seq.toNat ≠ 0xFFFFFFFFFFFFFFFF := fun equal => top (UInt64.toNat.inj equal)
  have bound := seq.toNat_lt
  rw [UInt64.toNat_add, UInt64.toNat_one]
  omega

variable {messages : List Bytes}

/-- Messages of the kernel are opened exactly if they are numbered from the
gateway's counter on. -/
theorem accepted_iff_numbered {session : Session}
    (genuine : ∀ bytes ∈ messages, SealedWith aead session.rx bytes) :
    Accepted aead session messages ↔ Numbered session.rxSeq.toNat messages := by
  induction messages generalizing session with
  | nil => simp [Accepted, receive, Numbered]
  | cons bytes rest ih =>
    obtain ⟨seq, plaintext, body, tag, top, short, encrypted, rfl⟩ :=
      genuine bytes (List.mem_cons_self ..)
    have opened := open_sealed short encrypted
    rw [Numbered, seqOf_sealed, UInt64.toNat_inj]
    by_cases next : seq = session.rxSeq
    · rw [if_pos next] at opened
      rw [accepted_cons, opened, next, ← toNat_add_one (next ▸ top)]
      simp only [Except.ok.injEq, exists_eq', true_and]
      exact ih fun bytes listed =>
        genuine bytes (List.mem_cons_of_mem _ listed)
    · rw [if_neg next] at opened
      rw [accepted_cons, opened]
      simp [next]

theorem numbered_concat : Numbered next (messages ++ [bytes]) ↔ Numbered next messages ∧
    (seqOf bytes).toNat = next + messages.length := by
  induction messages generalizing next with
  | nil => simp [Numbered]
  | cons first rest ih =>
    simp only [List.cons_append, Numbered, ih, and_assoc, List.length_cons]
    rw [Nat.add_right_comm, Nat.add_assoc]

theorem Numbered.le (numbered : Numbered next messages) :
    ∀ bytes ∈ messages, next ≤ (seqOf bytes).toNat := by
  induction messages generalizing next with
  | nil => simp
  | cons first rest ih =>
    refine List.forall_mem_cons.mpr ⟨numbered.1.ge, fun bytes later => ?_⟩
    exact Nat.le_of_succ_le (ih numbered.2 bytes later)

theorem Numbered.pairwise (numbered : Numbered next messages) :
    (messages.map seqOf).Pairwise (· < ·) := by
  induction messages generalizing next with
  | nil => exact List.Pairwise.nil
  | cons first rest ih =>
    refine List.pairwise_cons.mpr ⟨?_, ih numbered.2⟩
    intro seq listed
    obtain ⟨bytes, later, rfl⟩ := List.mem_map.mp listed
    rw [UInt64.lt_iff_toNat_lt, numbered.1]
    exact numbered.2.le bytes later

/-- The numbers of numbered messages have no gap. -/
theorem Numbered.exists_iff (numbered : Numbered next messages) (number : Nat) :
    (∃ bytes ∈ messages, (seqOf bytes).toNat = number) ↔
      next ≤ number ∧ number < next + messages.length := by
  induction messages generalizing next with
  | nil =>
    simp only [List.not_mem_nil, false_and, exists_false, List.length_nil, Nat.add_zero, false_iff]
    omega
  | cons first rest ih =>
    rw [List.exists_mem_cons_iff, ih numbered.2, numbered.1, List.length_cons]
    omega

/-! ## The order of writing -/

/-- The frame that a move puts on the wire. -/
def written (sender : Sender Cpu) : Move Cpu → Option Frame
  | .enter _ _ => none
  | .write cpu transport =>
    match sender.pending cpu with
    | none => none
    | some frame =>
      match send frame transport with
      | .ok () => some frame
      | .error _ => none

/-- When a sealed frame is written, no processor holds a frame with a lower number, and none
with a lower number was lost. -/
def InTurn (sender : Sender Cpu) (move : Move Cpu) : Prop :=
  ∀ bytes ∈ (sender.written move).bind Frame.sealed?,
    (∀ cpu, ∀ earlier ∈ (sender.pending cpu).bind Frame.sealed?, ¬seqOf earlier < seqOf bytes) ∧
      ∀ earlier ∈ sealedOn sender.lost, ¬seqOf earlier < seqOf bytes

section Steps

variable {aead : Aead} {sender : Sender Cpu}

theorem wire_step (move : Move Cpu) :
    (step aead sender move).wire = sender.wire ++ (sender.written move).toList := by
  cases move with
  | enter cpu data =>
    simp only [step, enter, written, Option.toList_none, List.append_nil]
    repeat' split
    all_goals rfl
  | write cpu transport =>
    cases waiting : sender.pending cpu with
    | none => simp [step, written, waiting]
    | some frame =>
      cases sent : send frame transport with
      | ok _ | error _ => simp [step, written, waiting, write, sent]

theorem sealedOn_step (move : Move Cpu) : sealedOn (step aead sender move).wire =
    sealedOn sender.wire ++ ((sender.written move).bind Frame.sealed?).toList := by
  rw [wire_step, sealedOn, List.filterMap_append, ← sealedOn]
  cases sender.written move with
  | none => rfl
  | some frame => cases sealed : frame.sealed? <;> simp [sealed]

/-- Every sealed message that waits or is on the wire was sealed with the key of
the session. -/
structure Keyed (aead : Aead) (key : Fixed 32) (sender : Sender Cpu) : Prop where
  session : ∃ session, sender.session = some session ∧ session.tx = key
  pending : ∀ cpu, ∀ bytes ∈ (sender.pending cpu).bind Frame.sealed?, SealedWith aead key bytes
  wire : ∀ bytes ∈ sealedOn sender.wire, SealedWith aead key bytes

variable {key : Fixed 32}

section

variable (keyed : Keyed aead key sender)
include keyed

/-- What is sealed is sealed with the session's key. -/
theorem Keyed.enter (cpu : Cpu) (data : Bytes) : Keyed aead key (sender.enter aead cpu data) := by
  obtain ⟨session, current, same⟩ := keyed.session
  unfold Sender.enter
  rw [current]
  rcases seal_cases aead session data maxPayload with
    ⟨error, failed⟩ | ⟨body, tag, top, short, encrypted, done⟩
  · simp only [failed]
    exact ⟨⟨session, rfl, same⟩, keyed.pending, keyed.wire⟩
  · simp only [done]
    refine ⟨⟨_, rfl, same⟩, ?_, keyed.wire⟩
    intro other bytes listed
    rcases eq_or_ne other cpu with rfl | different
    · have made : le64 session.txSeq ++ body ++ tag.bytes = bytes := by
        simpa [Frame.sealed?] using listed
      exact ⟨_, data, body, tag, top, short, same ▸ encrypted, made.symm⟩
    · apply keyed.pending other
      simpa [different] using listed

theorem Keyed.write (waiting : sender.pending cpu = some frame)
    (transport : Except Bytes Unit) : Keyed aead key (sender.write cpu frame transport) := by
  have pending : ∀ other,
      ∀ bytes ∈ (Function.update sender.pending cpu none other).bind Frame.sealed?,
        SealedWith aead key bytes := by
    intro other bytes listed
    rcases eq_or_ne other cpu with rfl | different
    · simp at listed
    · apply keyed.pending other
      simpa [different] using listed
  unfold Sender.write
  cases send frame transport with
  | error _ => exact ⟨keyed.session, pending, keyed.wire⟩
  | ok _ =>
    refine ⟨keyed.session, pending, ?_⟩
    intro bytes listed
    simp only [sealedOn, List.filterMap_append, List.mem_append] at listed
    rcases listed with earlier | last
    · exact keyed.wire bytes earlier
    · apply keyed.pending cpu
      rw [waiting]
      simpa using last

theorem Keyed.step (move : Move Cpu) : Keyed aead key (step aead sender move) := by
  cases move with
  | enter cpu data =>
    cases waiting : sender.pending cpu with
    | none => simpa only [Sender.step, waiting] using keyed.enter cpu data
    | some frame => simpa only [Sender.step, waiting] using keyed
  | write cpu transport =>
    cases waiting : sender.pending cpu with
    | none => simpa only [Sender.step, waiting] using keyed
    | some frame => simpa only [Sender.step, waiting] using keyed.write waiting transport

end

/-! ## Numbering -/

/-- Where a sealed frame can be. -/
inductive Place (Cpu : Type u)
  | wire
  | lost
  | pending (cpu : Cpu)

/-- The sealed messages at a place. -/
def sealedAt (sender : Sender Cpu) : Place Cpu → List Bytes
  | .wire => sealedOn sender.wire
  | .lost => sealedOn sender.lost
  | .pending cpu => ((sender.pending cpu).bind Frame.sealed?).toList

/-- The message with the number is at the place. -/
def Lies (sender : Sender Cpu) (place : Place Cpu) (number : Nat) : Prop :=
  ∃ bytes ∈ sender.sealedAt place, (seqOf bytes).toNat = number

/-- Every number from the first one to the next one is at exactly one place. -/
structure Placed (first next : Nat) (sender : Sender Cpu) : Prop where
  le : first ≤ next
  inside : ∀ {place number}, sender.Lies place number → first ≤ number ∧ number < next
  covered : ∀ {number}, first ≤ number → number < next → ∃ place, sender.Lies place number
  apart : ∀ {left right number}, sender.Lies left number → sender.Lies right number → left = right

section

variable {first next : Nat} {other : Sender Cpu} (placed : Placed first next sender)
include placed

omit [DecidableEq Cpu] in
/-- The next number is given out. -/
theorem Placed.add (added : ∀ place number, other.Lies place number ↔
      sender.Lies place number ∨ place = .pending cpu ∧ number = next) :
    Placed first (next + 1) other where
  le := Nat.le_succ_of_le placed.le
  inside lies := by
    have le := placed.le
    rcases (added _ _).mp lies with before | ⟨-, rfl⟩
    · have := placed.inside before
      omega
    · omega
  covered {number} low high := by
    rcases Nat.lt_succ_iff_lt_or_eq.mp high with below | rfl
    · obtain ⟨place, lies⟩ := placed.covered low below
      exact ⟨place, (added _ _).mpr (.inl lies)⟩
    · exact ⟨.pending cpu, (added _ _).mpr (.inr ⟨rfl, rfl⟩)⟩
  apart liesLeft liesRight := by
    rcases (added _ _).mp liesLeft with left | ⟨rfl, rfl⟩ <;>
      rcases (added _ _).mp liesRight with right | ⟨rfl, new⟩
    · exact placed.apart left right
    · exact absurd (placed.inside left).2 (by omega)
    · exact absurd (placed.inside right).2 (by omega)
    · rfl

omit [DecidableEq Cpu] in
/-- What lies at one place is moved to another. -/
theorem Placed.move (moved : ∀ place number, other.Lies place number ↔
      (sender.Lies place number ∧ place ≠ source) ∨
        place = target ∧ sender.Lies source number) :
    Placed first next other where
  le := placed.le
  inside lies := by
    rcases (moved _ _).mp lies with ⟨before, -⟩ | ⟨-, before⟩ <;> exact placed.inside before
  covered low high := by
    obtain ⟨place, lies⟩ := placed.covered low high
    by_cases here : place = source
    · exact ⟨target, (moved _ _).mpr (.inr ⟨rfl, here ▸ lies⟩)⟩
    · exact ⟨place, (moved _ _).mpr (.inl ⟨lies, here⟩)⟩
  apart liesLeft liesRight := by
    rcases (moved _ _).mp liesLeft with ⟨left, elsewhere⟩ | ⟨rfl, left⟩ <;>
      rcases (moved _ _).mp liesRight with ⟨right, alsoElsewhere⟩ | ⟨rfl, right⟩
    · exact placed.apart left right
    · exact absurd (placed.apart left right) elsewhere
    · exact absurd (placed.apart right left) alsoElsewhere
    · rfl

end

theorem lies_sealed (idle : sender.pending cpu = none) (session : Option Session) (payload : Bytes)
    (place : Place Cpu) (number : Nat) :
    Lies { sender with
        session := session
        pending := Function.update sender.pending cpu (some ⟨.sealed, payload⟩) } place number ↔
      sender.Lies place number ∨ place = .pending cpu ∧ number = (seqOf payload).toNat := by
  cases place with
  | wire | lost => simp [Lies, sealedAt]
  | pending other =>
    rcases eq_or_ne other cpu with rfl | different
    · simp [Lies, sealedAt, Frame.sealed?, idle, eq_comm]
    · simp [Lies, sealedAt, different]

/-- Where the transport's answer puts a frame. -/
def place (Cpu : Type u) : Except Bytes Unit → Place Cpu
  | .ok _ => .wire
  | .error _ => .lost

theorem lies_write (waiting : sender.pending cpu = some frame) (transport : Except Bytes Unit)
    (somewhere : Place Cpu) (number : Nat) :
    (sender.write cpu frame transport).Lies somewhere number ↔
      (sender.Lies somewhere number ∧ somewhere ≠ .pending cpu) ∨
        somewhere = place Cpu (send frame transport) ∧ sender.Lies (.pending cpu) number := by
  cases sent : send frame transport with
  | ok _ | error _ =>
    cases somewhere with
    | wire | lost =>
      simp only [Lies, sealedAt, write, sent, place, waiting, sealedOn, List.filterMap_append]
      cases content : frame.sealed? <;> simp [content, or_and_right, exists_or]
    | pending other =>
      rcases eq_or_ne other cpu with rfl | different
      · simp [Lies, sealedAt, write, sent, place]
      · simp [Lies, sealedAt, write, sent, place, different]

/-- The numbers from the given one to that of the session are placed. -/
def Counted (first : Nat) (sender : Sender Cpu) : Prop :=
  ∃ session, sender.session = some session ∧ Placed first session.txSeq.toNat sender

theorem Counted.enter {first : Nat} (counted : Counted first sender)
    (idle : sender.pending cpu = none) (data : Bytes) :
    Counted first (sender.enter aead cpu data) := by
  obtain ⟨session, current, placed⟩ := counted
  unfold Sender.enter
  rw [current]
  rcases seal_cases aead session data maxPayload with
    ⟨error, failed⟩ | ⟨body, tag, top, short, encrypted, done⟩
  · simp only [failed]
    exact ⟨session, rfl, placed.le, placed.inside, placed.covered, placed.apart⟩
  · simp only [done]
    refine ⟨_, rfl, ?_⟩
    rw [toNat_add_one top]
    refine @Placed.add _ _ _ _ _ placed cpu fun place number => ?_
    rw [lies_sealed idle, seqOf_sealed]

theorem Counted.step {first : Nat} (counted : Counted first sender) (move : Move Cpu) :
    Counted first (step aead sender move) := by
  cases move with
  | enter cpu data =>
    cases waiting : sender.pending cpu with
    | none => simpa only [Sender.step, waiting] using counted.enter waiting data
    | some frame => simpa only [Sender.step, waiting] using counted
  | write cpu transport =>
    cases waiting : sender.pending cpu with
    | none => simpa only [Sender.step, waiting] using counted
    | some frame =>
      obtain ⟨session, current, placed⟩ := counted
      simp only [Sender.step, waiting]
      refine ⟨session, ?_, placed.move (lies_write waiting transport)⟩
      unfold Sender.write
      cases send frame transport <;> exact current

omit [DecidableEq Cpu] in
theorem written_pending (puts : sender.written move = some frame) :
    ∃ cpu, sender.pending cpu = some frame := by
  cases move with
  | enter cpu data => cases puts
  | write cpu transport =>
    refine ⟨cpu, ?_⟩
    unfold written at puts
    dsimp only at puts
    split at puts
    · cases puts
    rename_i held waiting
    split at puts
    · rwa [← puts]
    · cases puts

omit [DecidableEq Cpu] in
/-- While the wire has no gap, a frame has the next number exactly if it is written in its
turn. -/
theorem Placed.next_iff {first next : Nat} {move : Move Cpu} (placed : Placed first next sender)
    (numbered : Numbered first (sealedOn sender.wire))
    (puts : (sender.written move).bind Frame.sealed? = some bytes) :
    (seqOf bytes).toNat = first + (sealedOn sender.wire).length ↔ sender.InTurn move := by
  obtain ⟨frame, isWritten, content⟩ := Option.bind_eq_some_iff.mp puts
  obtain ⟨cpu, waiting⟩ := written_pending isWritten
  have own : sender.Lies (.pending cpu) (seqOf bytes).toNat :=
    ⟨bytes, by simp [sealedAt, waiting, content], rfl⟩
  simp only [InTurn, puts, Option.mem_def, Option.some.injEq, forall_eq', UInt64.lt_iff_toNat_lt]
  constructor
  · intro turn
    -- a lower number is on the wire already, so it is nowhere else
    have onWire {place : Place Cpu} {number : Nat} (lies : sender.Lies place number)
        (lower : number < (seqOf bytes).toNat) : place = .wire := by
      refine placed.apart lies ((numbered.exists_iff number).mpr ⟨(placed.inside lies).1, ?_⟩)
      omega
    refine ⟨fun holder earlier held lower => ?_, fun earlier gone lower => ?_⟩
    · cases @onWire (.pending holder) _ ⟨earlier, by simpa [sealedAt] using held, rfl⟩ lower
    · cases @onWire .lost _ ⟨earlier, gone, rfl⟩ lower
  · rintro ⟨unheld, kept⟩
    have range := placed.inside own
    refine le_antisymm ?_ ?_
    · -- the first number that is not on the wire would be pending or lost
      by_contra above
      obtain ⟨place, earlier, lies, same⟩ := placed.covered
        (Nat.le_add_right first (sealedOn sender.wire).length) (by omega)
      cases place with
      | wire =>
        have below := ((numbered.exists_iff _).mp ⟨earlier, lies, same⟩).2
        omega
      | lost => exact kept earlier lies (by omega)
      | pending holder =>
        exact unheld holder earlier (by simpa [sealedAt] using lies) (by omega)
    · by_contra below
      have again : sender.Lies .wire (seqOf bytes).toNat :=
        (numbered.exists_iff _).mpr ⟨range.1, by omega⟩
      cases placed.apart own again

end Steps

omit [DecidableEq Cpu] in
theorem start_counted (session : Session) :
    Counted session.txSeq.toNat (start session : Sender Cpu) := by
  have none (place : Place Cpu) (number : Nat) : ¬Lies (start session) place number := by
    cases place <;> simp [Lies, sealedAt, start, sealedOn]
  refine ⟨session, rfl, le_rfl, fun lies => absurd lies (none _ _), ?_,
    fun lies => absurd lies (none _ _)⟩
  intro number low high
  omega

omit [DecidableEq Cpu] in
theorem start_keyed (aead : Aead) (session : Session) :
    Keyed aead session.tx (start session : Sender Cpu) := by
  refine ⟨⟨session, rfl, rfl⟩, ?_, ?_⟩ <;> simp [start, sealedOn]

/-- The sealed frames on the wire are numbered one after another exactly if every
one of them was written in its turn. -/
theorem numbered_iff_along (aead : Aead) (session : Session) (moves : List (Move Cpu)) :
    Numbered session.txSeq.toNat (sealedOn (after (step aead) (start session) moves).wire) ↔
      Run.Along (step aead) InTurn (start session) moves := by
  induction moves using List.reverseRecOn with
  | nil => simp [start, sealedOn, Numbered, Run.Along]
  | append_singleton early last ih =>
    obtain ⟨_, -, placed⟩ : Counted session.txSeq.toNat (after (step aead) (start session) early) :=
      always early (start_counted session) fun _ move counted => counted.step move
    rw [along_append, ← ih, after_append, after_cons, after_nil, sealedOn_step]
    simp only [Run.Along, and_true]
    cases puts : (written _ last).bind Frame.sealed? with
    | none => simp [InTurn, puts]
    | some bytes =>
      rw [Option.toList_some, numbered_concat]
      exact and_congr_right fun numbered => placed.next_iff numbered puts

/-- The sealed frames reach the gateway in the order of their numbers and it
opens every one of them, exactly if none was written while a frame with a lower
number was held by a processor, or after one was lost. -/
theorem sealed_frames_accepted_iff
    (aead : Aead)
    (session : Session)
    (moves : List (Move Cpu)) :
    let sealed := sealedOn (after (step aead) (start session) moves).wire
    (sealed.map seqOf).Pairwise (· < ·) ∧ Accepted aead (gatewaySession session) sealed ↔
      Run.Along (step aead) InTurn (start session) moves := by
  intro sealed
  have keyed : Keyed aead session.tx (after (step aead) (start session) moves) :=
    always moves (start_keyed aead session) fun _ move keyed => keyed.step move
  have accepted : Accepted aead (gatewaySession session) sealed ↔
      Numbered session.txSeq.toNat sealed :=
    accepted_iff_numbered keyed.wire
  rw [accepted, ← numbered_iff_along]
  constructor
  · exact And.right
  · intro numbered
    exact ⟨numbered.pairwise, numbered⟩

/-- Two processors, of which the second to seal is the first to write. -/
def overtaken : List (Move Bool) :=
  [.enter false [1], .enter true [2], .write true (.ok ()), .write false (.ok ())]

/-- The frame that overtakes the other is rejected, and nothing opens it later. -/
theorem overtaken_rejected :
    let session := new (Fixed.replicate 32 1) (Fixed.replicate 32 2)
    let sealed := sealedOn (after (step sampleAead) (start session) overtaken).wire
    sealed.map seqOf = [1, 0] ∧ receive sampleAead (gatewaySession session) sealed =
        [.error .sequence, .ok [1]] := by
  decide +kernel

end Sender
end Cdk.Link

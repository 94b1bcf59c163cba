import Cdk.Library.ByteFormat

/-!
# Handshake fragments

A handshake message is cut into fragments that all but the last carry a flag; the receiver
collects them in a buffer of eight full fragments.  `fragments_reassemble_iff` says for which
sequences the messages that fit are returned and no others: a fragment that does not fit empties
the buffer, and what follows is taken for a message of its own.
-/

namespace Cdk.Link

open ByteFormat

def maxPayload : Nat := 1024

def flagMore : UInt8 := 1

/-- The frames of a message. -/
def forEachFragment (message : Bytes) : List (UInt8 × Bytes) :=
  let last := max ((message.length + (maxPayload - 1)) / maxPayload) 1 - 1
  if message.isEmpty then [(0, [])]
  else
    (chunks maxPayload message).mapIdx fun index chunk =>
      (if index < last then flagMore else 0, chunk)

/-- A handshake message grew too long. -/
inductive Oversized
  | oversized
  deriving DecidableEq

/-- Collects the fragments of a message. -/
structure Reassembler where
  /-- What has arrived of the message. -/
  buf : Bytes
  deriving DecidableEq

namespace Reassembler

/-- The longest message. -/
def max : Nat := 8192

/-- A reassembler to which nothing has been given yet. -/
def new : Reassembler := ⟨[]⟩

/-- Add a fragment: the message once it is complete, or an error (and an empty
buffer) if it grows too long. -/
def push (reassembler : Reassembler) (flags : UInt8) (chunk : Bytes) :
    Reassembler × Except Oversized (Option Bytes) :=
  if max < reassembler.buf.length + chunk.length then (⟨[]⟩, .error .oversized)
  else if flags &&& flagMore ≠ 0 then (⟨reassembler.buf ++ chunk⟩, .ok none)
  else (⟨[]⟩, .ok (some (reassembler.buf ++ chunk)))

/-- Add fragments in order. -/
def pushAll : Reassembler → List (UInt8 × Bytes) →
      Reassembler × List (Except Oversized (Option Bytes))
  | reassembler, [] => (reassembler, [])
  | reassembler, (flags, chunk) :: rest =>
    let pushed := reassembler.push flags chunk
    let later := pushed.1.pushAll rest
    (later.1, pushed.2 :: later.2)

/-- Add the fragments of several messages: the replies for each of them. -/
def pushMessages : Reassembler → List Bytes → List (List (Except Oversized (Option Bytes)))
  | _, [] => []
  | reassembler, message :: rest =>
    let pushed := reassembler.pushAll (forEachFragment message)
    pushed.2 :: pushed.1.pushMessages rest

end Reassembler

/-- The messages among the replies of a reassembler. -/
def returned (replies : List (Except Oversized (Option Bytes))) : List Bytes :=
  replies.filterMap fun reply => reply.toOption.join

/-! ## The fragments of one message -/

/-- The number of frames that a message takes. -/
def fragmentCount (message : Bytes) : Nat := (message.length + (maxPayload - 1)) / maxPayload

variable {message : Bytes}

theorem forEachFragment_of_short (nonempty : message ≠ []) (short : message.length ≤ maxPayload) :
    forEachFragment message = [(0, message)] := by
  have count : (message.length + (maxPayload - 1)) / maxPayload ≤ 1 := by
    simp only [maxPayload] at short ⊢
    omega
  rw [forEachFragment, if_neg (by simpa using nonempty),
    chunks_of_short nonempty short, List.mapIdx_singleton, if_neg (by omega)]

theorem forEachFragment_of_long (long : maxPayload < message.length) : forEachFragment message =
      (flagMore, message.take maxPayload) :: forEachFragment (message.drop maxPayload) := by
  have nonempty : message ≠ [] := List.ne_nil_of_length_pos (by omega)
  have left : message.drop maxPayload ≠ [] := by
    rw [ne_eq, List.drop_eq_nil_iff]
    omega
  have more : 0 < max ((message.length + (maxPayload - 1)) / maxPayload) 1 - 1 := by
    simp only [maxPayload] at long ⊢
    omega
  have shift : ∀ index, (index + 1 < max ((message.length + (maxPayload - 1)) / maxPayload) 1 - 1 ↔
        index < max (((message.drop maxPayload).length + (maxPayload - 1)) /
          maxPayload) 1 - 1) := by
    intro index
    simp only [maxPayload, List.length_drop] at long ⊢
    omega
  simp only [forEachFragment]
  rw [if_neg (by simpa using nonempty), if_neg (by simpa using left),
    chunks_of_ne_nil (by decide) nonempty, List.mapIdx_cons, if_pos more]
  simp only [shift]

theorem fragmentCount_of_short (nonempty : message ≠ []) (short : message.length ≤ maxPayload) :
    fragmentCount message = 1 := by
  have positive := List.length_pos_iff.mpr nonempty
  simp only [fragmentCount, maxPayload] at short ⊢
  omega

theorem fragmentCount_of_long (long : maxPayload < message.length) :
    fragmentCount message = fragmentCount (message.drop maxPayload) + 1 := by
  simp only [fragmentCount, maxPayload, List.length_drop] at long ⊢
  omega

/-! ## Replies -/

@[simp] theorem returned_cons_error (error : Oversized)
    (replies : List (Except Oversized (Option Bytes))) :
    returned (.error error :: replies) = returned replies :=
  rfl

@[simp] theorem returned_cons_none (replies : List (Except Oversized (Option Bytes))) :
    returned (.ok none :: replies) = returned replies :=
  rfl

theorem returned_append (early late : List (Except Oversized (Option Bytes))) :
    returned (early ++ late) = returned early ++ returned late :=
  List.filterMap_append

namespace Reassembler

/-- The replies to the fragments of `rest` when the buffer has `held` full
fragments of the message already.  Every ninth fragment is refused and empties
the buffer, and the last one returns what has gathered since. -/
structure Gathers (held : Nat) (buf rest : Bytes)
    (pushed : Reassembler × List (Except Oversized (Option Bytes))) : Prop where
  emptied : pushed.1 = new
  returns : returned pushed.2 =
    if (held + fragmentCount rest) % 9 = 0 then []
    else [(buf ++ rest).drop (9216 * ((held + fragmentCount rest) / 9))]
  refuses : .error .oversized ∈ pushed.2 ↔ 9 ≤ held + fragmentCount rest

theorem gathers_last {buf rest : Bytes} (full : buf.length = maxPayload * held) (bound : held ≤ 8)
    (nonempty : rest ≠ []) (short : rest.length ≤ maxPayload) :
    Gathers held buf rest (pushAll ⟨buf⟩ (forEachFragment rest)) := by
  have positive := List.length_pos_iff.mpr nonempty
  have one := fragmentCount_of_short nonempty short
  rw [forEachFragment_of_short nonempty short]
  simp only [maxPayload] at full short
  by_cases last : held = 8
  · have refused : push ⟨buf⟩ 0 rest = (⟨[]⟩, .error .oversized) :=
      if_pos (by simp only [max]; omega)
    simp only [pushAll, refused]
    exact
      { emptied := rfl
        returns := by rw [one, last]; rfl
        refuses := by rw [one, last]; simp }
  · have fits : ¬max < buf.length + rest.length := by
      simp only [max]
      omega
    have taken : push ⟨buf⟩ 0 rest = (⟨[]⟩, .ok (some (buf ++ rest))) := by
      rw [push, if_neg fits, if_neg (by decide)]
    have early : (held + 1) / 9 = 0 := by omega
    simp only [pushAll, taken]
    exact
      { emptied := rfl
        returns := by
          rw [one, if_neg (by omega), early]
          rfl
        refuses := by
          rw [one]
          simp only [List.mem_singleton, reduceCtorEq, false_iff]
          omega }

section Full

variable {held : Nat} {buf rest : Bytes}

theorem length_take_maxPayload (long : maxPayload < rest.length) :
    (rest.take maxPayload).length = maxPayload :=
  List.length_take_of_le long.le

/-- A full fragment that does not fit empties the buffer, and what follows is
taken for a message of its own. -/
theorem Gathers.refuse (full : buf.length = maxPayload * 8) (long : maxPayload < rest.length)
    (later : Gathers 0 [] (rest.drop maxPayload)
      (pushAll ⟨[]⟩ (forEachFragment (rest.drop maxPayload)))) :
    Gathers 8 buf rest (pushAll ⟨buf⟩ (forEachFragment rest)) := by
  have count := fragmentCount_of_long long
  have refused : push ⟨buf⟩ flagMore (rest.take maxPayload) = (⟨[]⟩, .error .oversized) := by
    refine if_pos ?_
    rw [length_take_maxPayload long, full]
    decide
  have nine : 8 + fragmentCount rest = 0 + fragmentCount (rest.drop maxPayload) + 9 := by omega
  have dropped : ∀ times, (buf ++ rest).drop (9216 * (times + 1)) =
        (rest.drop maxPayload).drop (9216 * times) := by
    intro times
    have split : 9216 * (times + 1) = buf.length + (maxPayload + 9216 * times) := by
      rw [full]
      simp only [maxPayload]
      omega
    rw [split, List.drop_length_add_append, List.drop_drop]
  rw [forEachFragment_of_long long]
  simp only [pushAll, refused]
  exact
    { emptied := later.emptied
      returns := by
        rw [returned_cons_error, later.returns, nine, Nat.add_mod_right,
          Nat.add_div_right _ (by decide), dropped, List.nil_append]
      refuses := by
        rw [nine]
        simp }

theorem Gathers.join (full : buf.length = maxPayload * held) (room : held < 8)
    (long : maxPayload < rest.length)
    (later : Gathers (held + 1) (buf ++ rest.take maxPayload) (rest.drop maxPayload)
      (pushAll ⟨buf ++ rest.take maxPayload⟩ (forEachFragment (rest.drop maxPayload)))) :
    Gathers held buf rest (pushAll ⟨buf⟩ (forEachFragment rest)) := by
  have count := fragmentCount_of_long long
  have fits : ¬max < buf.length + (rest.take maxPayload).length := by
    rw [length_take_maxPayload long, full]
    simp only [max, maxPayload]
    omega
  have joined : push ⟨buf⟩ flagMore (rest.take maxPayload) =
      (⟨buf ++ rest.take maxPayload⟩, .ok none) := by
    rw [push, if_neg fits, if_pos (by decide)]
  have same : held + fragmentCount rest =
      held + 1 + fragmentCount (rest.drop maxPayload) := by omega
  rw [forEachFragment_of_long long]
  simp only [pushAll, joined]
  exact
    { emptied := later.emptied
      returns := by
        rw [returned_cons_none, later.returns, same, List.append_assoc, List.take_append_drop]
      refuses := by
        rw [same, ← later.refuses]
        simp }

end Full

theorem gathers_fragments {buf rest : Bytes} (full : buf.length = maxPayload * held)
    (bound : held ≤ 8) (nonempty : rest ≠ []) :
    Gathers held buf rest (pushAll ⟨buf⟩ (forEachFragment rest)) := by
  -- The induction is on what is left of the message; each full fragment either
  -- joins the buffer or empties it.
  induction size : rest.length using Nat.strong_induction_on generalizing held buf rest with
  | _ length ih =>
    by_cases short : rest.length ≤ maxPayload
    · exact gathers_last full bound nonempty short
    rw [not_le] at short
    have left : rest.drop maxPayload ≠ [] := by
      rw [ne_eq, List.drop_eq_nil_iff]
      omega
    have smaller : (rest.drop maxPayload).length < length := by
      rw [List.length_drop, ← size]
      simp only [maxPayload] at short ⊢
      omega
    by_cases last : held = 8
    · subst last
      exact .refuse full short (ih _ smaller rfl (Nat.zero_le 8) left rfl)
    · have longer : (buf ++ rest.take maxPayload).length = maxPayload * (held + 1) := by
        rw [List.length_append, length_take_maxPayload short, full, Nat.mul_succ]
      exact .join full (by omega) short (ih _ smaller longer (by omega) left rfl)

def replies (message : Bytes) : List (Except Oversized (Option Bytes)) :=
  (new.pushAll (forEachFragment message)).2

theorem gathers_message (nonempty : message ≠ []) :
    Gathers 0 [] message (new.pushAll (forEachFragment message)) :=
  gathers_fragments rfl (Nat.zero_le 8) nonempty

/-- Nothing is left in the buffer between two messages. -/
theorem emptied_of_message (message : Bytes) : (new.pushAll (forEachFragment message)).1 = new := by
  by_cases empty : message = []
  · subst empty
    rfl
  · exact (gathers_message empty).emptied

theorem pushMessages_eq_map (messages : List Bytes) :
    new.pushMessages messages = messages.map replies := by
  induction messages with
  | nil => rfl
  | cons message rest ih =>
    rw [pushMessages, emptied_of_message, ih]
    rfl

theorem returned_of_fits (fits : message.length ≤ max) :
    returned (replies message) = [message] := by
  by_cases empty : message = []
  · subst empty
    rfl
  have few : 0 < fragmentCount message ∧ fragmentCount message < 9 := by
    have positive := List.length_pos_iff.mpr empty
    simp only [fragmentCount, maxPayload, max] at fits ⊢
    omega
  rw [replies, (gathers_message empty).returns, if_neg (by omega)]
  have zero : (0 + fragmentCount message) / 9 = 0 := by omega
  rw [zero]
  rfl

section Long

variable {message : Bytes} (long : max < message.length)
include long

theorem ne_nil_of_long : message ≠ [] := List.ne_nil_of_length_pos (Nat.zero_lt_of_lt long)

theorem refused_of_long : .error .oversized ∈ replies message := by
  rw [replies, (gathers_message (ne_nil_of_long long)).refuses, Nat.zero_add]
  simp only [fragmentCount, maxPayload, max] at long ⊢
  omega

theorem returned_of_long : returned (replies message) =
      if 9 ∣ fragmentCount message then []
      else [message.drop (9216 * (fragmentCount message / 9))] := by
  rw [replies, (gathers_message (ne_nil_of_long long)).returns, Nat.zero_add, List.nil_append]
  simp only [Nat.dvd_iff_mod_eq_zero]

theorem returned_eq_nil_iff : returned (replies message) = [] ↔ 9 ∣ fragmentCount message := by
  rw [returned_of_long long]
  split <;> simp [*]

end Long

theorem returned_flatten_replies {messages : List Bytes} (condition : ∀ message ∈ messages,
      message.length ≤ max ∨ 9 ∣ fragmentCount message) :
    returned (messages.map replies).flatten = messages.filter (·.length ≤ max) := by
  induction messages with
  | nil => rfl
  | cons message rest ih =>
    have later := ih fun other listed =>
      condition other (List.mem_cons_of_mem _ listed)
    rw [List.map_cons, List.flatten_cons, returned_append, later]
    by_cases fits : message.length ≤ max
    · rw [returned_of_fits fits, List.filter_cons_of_pos (by simpa using fits),
        List.singleton_append]
    · have nine := (condition message List.mem_cons_self).resolve_left fits
      rw [(returned_eq_nil_iff (not_le.mp fits)).mpr nine,
        List.filter_cons_of_neg (by simpa using fits), List.nil_append]

/-- For every sequence of messages, exactly the messages that fit are returned,
in order and each once, and the others only lead to errors, if and only if the
number of fragments of every message that does not fit is a multiple of nine,
so that its last fragment is refused. -/
theorem fragments_reassemble_iff
    (messages : List Bytes) :
    (returned (new.pushMessages messages).flatten = messages.filter (·.length ≤ max) ∧
      ∀ pair ∈ messages.zip (new.pushMessages messages), max < pair.1.length →
        returned pair.2 = [] ∧ .error .oversized ∈ pair.2) ↔
      ∀ message ∈ messages, message.length ≤ max ∨ 9 ∣ fragmentCount message := by
  have paired : messages.zip (messages.map replies) =
      messages.map fun message => (message, replies message) := by
    simpa using List.zip_map' (f := id) (g := replies) (l := messages)
  rw [pushMessages_eq_map, paired]
  constructor
  · rintro ⟨-, only⟩ message listed
    rw [or_iff_not_imp_left, not_le]
    intro long
    exact (returned_eq_nil_iff long).mp (only _ (List.mem_map_of_mem listed) long).1
  · intro condition
    constructor
    · exact returned_flatten_replies condition
    · intro pair listed long
      obtain ⟨message, present, rfl⟩ := List.mem_map.mp listed
      refine ⟨(returned_eq_nil_iff long).mpr ?_, refused_of_long long⟩
      exact (condition message present).resolve_left (not_le.mpr long)

/-- The last byte of a message of ten fragments is returned as a message of its
own. -/
theorem fragments_return_tail :
    returned (new.pushMessages [List.replicate 9217 7]).flatten = [[7]] ∧
      returned (new.pushMessages [List.replicate 9217 7]).flatten ≠
        [List.replicate 9217 7].filter (·.length ≤ max) := by
  decide +kernel

end Reassembler

end Cdk.Link

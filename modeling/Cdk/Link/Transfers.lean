import Cdk.Library.Reassembly
import Cdk.Link.Approval
import Cdk.Link.Quote

/-!
# Chunked transfers

Blobs, signed decisions and endorsement keys are cut into chunks and put
together again by three assemblers.  Each completes a transfer whose chunks it
is given in order, whatever it was given before, and whatever it returns is the
data of consecutive accepted chunks of one transfer.
-/

namespace Cdk.Link

open ByteFormat Reassembly Fixed

namespace BlobAssembler

def piece (message : Bytes) : Piece (UInt8 × Nat) UInt8 where
  key := (message.tail.headD 0, leValue ((message.tail.drop 1).take 2))
  offset := leValue ((message.tail.drop 3).take 2)
  data := message.tail.drop 5

variable (assembler : BlobAssembler)

def next (message : Bytes) : BlobAssembler := (assembler.push message).1

def piece? (message : Bytes) : Option (Piece (UInt8 × Nat) UInt8) :=
  if (assembler.push message).2.isOk then some (piece message) else none

/-- What a push does, in the terms of reassembly. -/
def Law (piece : Piece (UInt8 × Nat) UInt8) (pushed : BlobAssembler × Outcome) : Prop :=
  ∃ key data, Effect (assembler.kind, assembler.total) assembler.data
      (if pushed.2.isOk then some piece else none) key data ∧
    (pushed.1.data = [] ∨ (pushed.1.kind, pushed.1.total) = key ∧ pushed.1.data = data) ∧
    ∀ result, pushed.2 = .ok (some result) → (result.1, result.2.length) = key ∧ result.2 = data

theorem append_law (piece : Piece (UInt8 × Nat) UInt8) : Law assembler piece
    (assembler.append piece.key.1 piece.key.2 piece.offset piece.data) := by
  rw [append]
  generalize isCurrent :
    (if piece.offset = 0 then ⟨piece.key.1, piece.key.2, []⟩ else assembler) = current
  split
  · exact ⟨_, [], .dropped piece.key, .inl rfl, by simp⟩
  rename_i ordered
  push Not at ordered
  obtain ⟨kind, total, offset, -⟩ := ordered
  have key : (current.kind, current.total) = piece.key := (Prod.ext kind total).symm
  have effect : Effect (assembler.kind, assembler.total) assembler.data (some piece) piece.key
      (current.data ++ piece.data) := by
    by_cases first : piece.offset = 0
    · rw [if_pos first] at isCurrent
      rw [← isCurrent]
      exact .begun piece first
    · rw [if_neg first] at isCurrent
      subst isCurrent
      rw [← key]
      exact .continued piece key.symm offset
  split
  · rename_i complete
    refine ⟨_, _, effect, .inl rfl, ?_⟩
    rintro _ ⟨⟩
    exact ⟨by rw [complete, key], rfl⟩
  · exact ⟨_, _, effect, .inr ⟨key, rfl⟩, by simp⟩

theorem push_law (message : Bytes) : Law assembler (piece message) (assembler.push message) := by
  have refused (why : String) : Law assembler (piece message) (assembler, .error why) :=
    ⟨_, _, .kept, .inr ⟨rfl, rfl⟩, nofun⟩
  cases message with
  | nil => exact refused _
  | cons tag rest =>
    rw [push]
    split
    · exact refused _
    split
    · exact refused _
    dsimp only
    split
    · exact refused _
    · exact append_law assembler (piece (tag :: rest))

end BlobAssembler

namespace Approval.Assembler

variable (assembler : Assembler) (part : DecisionPart)

def next : Assembler := (assembler.push part).1

/-- The piece in a part that begins a decision or continues the one under way. -/
def piece? : Option (Piece (Option (UInt32 × Fixed 16 × Bool)) UInt8) :=
  if part.offset = 0 ∨ assembler.key = some (part.id, part.operator, part.approve) ∧
      assembler.buffer.length = part.offset.toNat then
    some ⟨some (part.id, part.operator, part.approve), part.offset.toNat, part.bytes⟩
  else none

theorem push_law :
    ∃ key data, Effect assembler.key assembler.buffer (assembler.piece? part) key data ∧
      ((assembler.push part).1.buffer = [] ∨
        (assembler.push part).1.key = key ∧ (assembler.push part).1.buffer = data) ∧
      ∀ decision, (assembler.push part).2 = some decision →
        some (decision.id, decision.operator, decision.approve) = key ∧
          decision.signature = data ∧ data.length = part.total.toNat := by
  have extended (held : Assembler) (key : held.key = some (part.id, part.operator, part.approve)) :
      ((held.extend part).1.buffer = [] ∨ (held.extend part).1.key = held.key ∧
        (held.extend part).1.buffer = held.buffer ++ part.bytes) ∧
      ∀ decision, (held.extend part).2 = some decision →
        some (decision.id, decision.operator, decision.approve) = held.key ∧
          decision.signature = held.buffer ++ part.bytes ∧
          (held.buffer ++ part.bytes).length = part.total.toNat := by
    unfold extend
    dsimp only
    split
    · rename_i complete
      refine ⟨.inl rfl, ?_⟩
      rintro _ ⟨⟩
      exact ⟨key.symm, rfl, complete⟩
    · exact ⟨.inr ⟨rfl, rfl⟩, by simp⟩
  by_cases first : part.offset = 0
  · rw [piece?, push, if_pos (.inl first), if_pos (.inl first), if_neg (not_not.mpr first)]
    exact ⟨_, _, .begun _ (by simp [first]), extended ⟨_, []⟩ rfl⟩
  by_cases continues : assembler.key = some (part.id, part.operator, part.approve) ∧
      assembler.buffer.length = part.offset.toNat
  · rw [piece?, push, if_pos (.inr continues), if_neg (by simp [first, continues])]
    exact ⟨_, _, .continued _ continues.1.symm continues.2.symm, extended assembler continues.1⟩
  · rw [piece?, push, if_neg (by simp [first, continues]), if_pos, if_pos first]
    · exact ⟨_, [], .dropped none, .inl rfl, by simp⟩
    · simpa [first, or_iff_not_imp_left] using continues

end Approval.Assembler

namespace EkAssembler

def piece (message : Bytes) : Piece Nat UInt8 where
  key := leValue ((message.drop 1).take 2)
  offset := leValue ((message.drop 3).take 2)
  data := message.drop 5

def next (assembler : EkAssembler) (message : Bytes) : EkAssembler := (assembler.push message).1

def piece? (assembler : EkAssembler) (message : Bytes) : Option (Piece Nat UInt8) :=
  if (assembler.push message).2.isOk then some (piece message) else none

theorem push_law (assembler : EkAssembler) (message : Bytes) :
    ∃ key data, Effect assembler.total assembler.blob (assembler.piece? message) key data ∧
      ((assembler.push message).1.blob = [] ∨
        (assembler.push message).1.total = key ∧ (assembler.push message).1.blob = data) := by
  let Law (pushed : EkAssembler × Except String Unit) : Prop :=
    ∃ key data, Effect assembler.total assembler.blob
      (if pushed.2.isOk then some (piece message) else none) key data ∧
      (pushed.1.blob = [] ∨ pushed.1.total = key ∧ pushed.1.blob = data)
  have refused (why : String) : Law (assembler, .error why) := ⟨_, _, .kept, .inr ⟨rfl, rfl⟩⟩
  change Law (assembler.push message)
  rw [push]
  split
  · exact refused _
  split
  · exact refused _
  dsimp only
  split
  · exact refused _
  by_cases first : leValue ((message.drop 3).take 2) = 0
  · rw [if_pos first]
    split
    · exact ⟨_, [], .dropped 0, .inl rfl⟩
    · exact ⟨_, _, .begun _ first, .inr ⟨rfl, rfl⟩⟩
  · rw [if_neg first]
    split
    · exact refused _
    · rename_i ordered
      push Not at ordered
      exact ⟨_, _, .continued _ ordered.1 ordered.2.1, .inr ⟨rfl, rfl⟩⟩

def pushAll (assembler : EkAssembler) : List Bytes → List (Option EkBlob)
  | [] => []
  | message :: rest =>
    (assembler.push message).1.complete :: (assembler.push message).1.pushAll rest

theorem push_next {assembler : EkAssembler} {total : Nat} {front data : Bytes}
    (ready : front = [] ∨ assembler = ⟨front, total⟩) (nonempty : data ≠ [])
    (short : data.length ≤ ekChunkData) (fits : (front ++ data).length ≤ total)
    (least : 64 ≤ total) (most : total ≤ maxEkBlob) :
    (assembler.push (ekChunk total front.length data)).1 = ⟨front ++ data, total⟩ := by
  have positive := List.length_pos_iff.mpr nonempty
  rw [List.length_append] at fits
  have small (number : Nat) (fits : number ≤ total) : number < 65536 :=
    (fits.trans most).trans_lt (by decide)
  obtain ⟨totalBytes, offsetBytes, dataBytes, body⟩ :=
    chunkHeader ekChunkTag (UInt16.ofNat total) (UInt16.ofNat front.length) data
  have begun : (if front.length = 0 then ⟨[], total⟩ else assembler) =
      (⟨front, total⟩ : EkAssembler) := by
    split
    · rename_i zero
      rw [List.eq_nil_of_length_eq_zero zero]
    · rename_i later
      exact ready.resolve_left fun empty => later (by simp [empty])
  rw [push, ekChunk, if_neg (by simp), if_neg (by rw [body]; omega)]
  simp only [totalBytes, offsetBytes, dataBytes, begun, leValue_le16_ofNat (small _ le_rfl),
    leValue_le16_ofNat (small front.length (by omega))]
  rw [if_neg (by simp [nonempty]; omega), if_neg (by simp; omega)]

theorem complete_of_all (x y : Fixed 32) (cert : Bytes) :
    complete ⟨x.bytes ++ y.bytes ++ cert, (x.bytes ++ y.bytes ++ cert).length⟩ =
      some ⟨x, y, cert⟩ := by
  have first : (x.bytes ++ y.bytes ++ cert).take 32 = x.bytes := by
    rw [List.append_assoc, List.take_left' x.length_eq]
  have second : ((x.bytes ++ y.bytes ++ cert).drop 32).take 32 = y.bytes := by
    rw [List.append_assoc, List.drop_left' x.length_eq, List.take_left' y.length_eq]
  have third : (x.bytes ++ y.bytes ++ cert).drop 64 = cert := List.drop_left' (by simp)
  rw [complete, if_neg (by simp)]
  simp only [first, second, third, ofBytes?_bytes]
  rfl

/-- The key is complete with the last of the remaining chunks, and not before. -/
theorem pushAll_chunks {x y : Fixed 32} {cert : Bytes} (fits : 64 + cert.length ≤ maxEkBlob)
    {front rest : Bytes} (nonempty : rest ≠ []) (whole : front ++ rest = x.bytes ++ y.bytes ++ cert)
    (isMessages : ((chunks ekChunkData rest).mapIdx fun index bytes =>
      ekChunk (64 + cert.length) (front.length + index * ekChunkData) bytes) = messages) :
    ∀ assembler : EkAssembler, (front = [] ∨ assembler = ⟨front, 64 + cert.length⟩) →
      ∃ count, assembler.pushAll messages = List.replicate count none ++ [some ⟨x, y, cert⟩] := by
  have length : (x.bytes ++ y.bytes ++ cert).length = 64 + cert.length := by
    simp only [List.length_append, length_bytes]
  refine chunks_induction _ (by decide) ?_ ?_ front messages nonempty whole isMessages
  · intro front data nonempty short whole assembler ready
    have pushed := push_next ready nonempty short (by rw [whole, length]) (by omega) fits
    refine ⟨0, ?_⟩
    rw [pushAll, pushed, whole, ← length, complete_of_all]
    rfl
  · intro front data later nonempty short less ih assembler ready
    rw [length] at less
    have pushed := push_next ready nonempty short less.le (by omega) fits
    have incomplete : complete ⟨front ++ data, 64 + cert.length⟩ = none := if_pos (.inr less.ne)
    obtain ⟨count, completed⟩ := ih _ (.inr rfl)
    refine ⟨count + 1, ?_⟩
    rw [pushAll, pushed, incomplete, completed, List.replicate_succ]
    rfl

theorem blob_of_complete {assembler : EkAssembler} {blob : EkBlob}
    (complete : assembler.complete = some blob) :
    assembler.blob = blob.x.bytes ++ blob.y.bytes ++ blob.cert ∧
      assembler.total = assembler.blob.length := by
  unfold EkAssembler.complete at complete
  split at complete
  · contradiction
  rename_i total
  push Not at total
  obtain ⟨x, xRead, complete⟩ := Option.bind_eq_some_iff.mp complete
  obtain ⟨y, yRead, complete⟩ := Option.bind_eq_some_iff.mp complete
  cases complete
  simp only [ofBytes?, Option.dite_none_right_eq_some, Option.some.injEq] at xRead yRead
  obtain ⟨-, rfl⟩ := xRead
  obtain ⟨-, rfl⟩ := yRead
  refine ⟨?_, total.2.symm⟩
  rw [List.append_assoc, ← List.drop_drop (i := 32) (j := 32), List.take_append_drop,
    List.take_append_drop]

end EkAssembler

theorem Approval.Assembler.Takes.wellFormed {parts : List DecisionPart}
    (takes : Takes assembler parts later) : ∀ part ∈ parts, part.WellFormed := by
  induction parts generalizing assembler with
  | nil => simp
  | cons part rest ih => simpa [takes.2.1] using ih takes.2.2

open Approval in
theorem Approval.Assembler.takes_encoded (assembler : Assembler)
    (positive : 0 < decision.signature.length) (short : decision.signature.length ≤ 65535) :
    ∃ early last later, encodeDecision decision = (early ++ [last]).map DecisionPart.encode ∧
      (∀ part ∈ early ++ [last], part.WellFormed) ∧ assembler.Takes early later ∧
      later.push last = (.initial, some decision) := by
  obtain ⟨early, last, later, split, takes, wellFormed, completes⟩ :=
    completes_decision (by omega) (List.ne_nil_of_length_pos positive) (List.nil_append _) rfl
      assembler (.inl rfl)
  refine ⟨early, last, later, ?_, ?_, takes, completes⟩
  · rw [← split]
    simp only [encodeDecision, List.mapIdx_eq_zipIdx_map, List.map_map, List.length_nil,
      Nat.zero_add, Function.comp_def]
  · intro part present
    rcases List.mem_append.mp present with early | final
    · exact takes.wellFormed part early
    · rwa [List.mem_singleton.mp final]

open Approval in
/-- From any state an assembler completes a transfer exactly with the last of its chunks, and with
exactly what was sent; and what it returns after any chunks is the data of the last accepted ones,
which belong to one transfer and follow one another from offset zero to the total. -/
theorem transfers_reassemble :
    (∀ (assembler : BlobAssembler) kind (data : Bytes), 0 < data.length → data.length ≤ maxBlob →
      ∃ messages count, encodeBlob kind data = some messages ∧
        assembler.pushAll messages = (⟨kind, 0, []⟩,
          List.replicate count (.ok none) ++ [.ok (some (kind, data))])) ∧
    (∀ (assembler : Assembler) decision, 0 < decision.signature.length →
      decision.signature.length ≤ 65535 →
      ∃ early last later, encodeDecision decision = (early ++ [last]).map DecisionPart.encode ∧
        (∀ part ∈ early ++ [last], decode part.encode = some (.decisionPart part)) ∧
        assembler.Takes early later ∧ later.push last = (.initial, some decision)) ∧
    (∀ (assembler : EkAssembler) x y (cert : Bytes), 64 + cert.length ≤ maxEkBlob →
      ∃ messages count, encodeEkChunks x y cert = some messages ∧
        assembler.pushAll messages = List.replicate count none ++ [some ⟨x, y, cert⟩]) ∧
    (∀ messages message kind data,
      ((messages.foldl BlobAssembler.next .initial).push message).2 = .ok (some (kind, data)) →
        Gathers (accepted BlobAssembler.next BlobAssembler.piece? .initial (messages ++ [message]))
          (kind, data.length) data) ∧
    (∀ parts part decision, ((parts.foldl Assembler.next .initial).push part).2 = some decision →
      Gathers (accepted Assembler.next Assembler.piece? .initial (parts ++ [part]))
          (some (decision.id, decision.operator, decision.approve)) decision.signature ∧
        decision.signature.length = part.total.toNat) ∧
    ∀ messages blob, (messages.foldl EkAssembler.next {}).complete = some blob →
      Gathers (accepted EkAssembler.next EkAssembler.piece? {} messages)
        (blob.x.bytes ++ blob.y.bytes ++ blob.cert).length
        (blob.x.bytes ++ blob.y.bytes ++ blob.cert) := by
  refine ⟨?_, ?_, ?_, ?_, ?_, ?_⟩
  · intro assembler kind data positive fits
    obtain ⟨messages, encoded⟩ := encodeBlob_of_fits kind positive fits
    obtain ⟨count, pushed⟩ := assembler.pushAll_encodeBlob encoded
    exact ⟨messages, count, encoded, pushed⟩
  · intro assembler decision positive short
    obtain ⟨early, last, later, encoded, wellFormed, takes, completes⟩ :=
      assembler.takes_encoded positive short
    exact ⟨early, last, later, encoded,
      fun part present => part.decode_encode (wellFormed part present), takes, completes⟩
  · intro assembler x y cert fits
    have length : (x.bytes ++ y.bytes ++ cert).length = 64 + cert.length := by
      simp only [List.length_append, length_bytes]
    obtain ⟨count, pushed⟩ := EkAssembler.pushAll_chunks fits
      (List.ne_nil_of_length_pos (by rw [length]; omega)) (List.nil_append _) rfl
      assembler (.inl rfl)
    refine ⟨_, count, if_neg (Nat.not_lt.mpr (length.trans_le fits)), ?_⟩
    simpa only [length, List.length_nil, Nat.zero_add] using pushed
  · intro messages message kind data returned
    obtain ⟨key', data', gathers, returns⟩ :=
      gathers_returned BlobAssembler.initial rfl BlobAssembler.push_law messages message
    obtain ⟨rfl, rfl⟩ := returns _ returned
    exact gathers
  · intro parts part decision returned
    obtain ⟨key', data', gathers, returns⟩ :=
      gathers_returned Assembler.initial rfl Assembler.push_law parts part
    obtain ⟨rfl, rfl, total⟩ := returns _ returned
    exact ⟨gathers, total⟩
  · intro messages blob complete
    obtain ⟨split, total⟩ := EkAssembler.blob_of_complete complete
    rw [← split, ← total]
    exact gathers_run {} rfl EkAssembler.push_law messages

/-- A blob of two chunks is sent and returned; what a chunk of three bytes completes is these
bytes. -/
theorem transfers_reassemble_sample :
    (∃ messages count, encodeBlob 1 (List.replicate 1500 7) = some messages ∧
      BlobAssembler.initial.pushAll messages = (⟨1, 0, []⟩,
        List.replicate count (.ok none) ++ [.ok (some (1, List.replicate 1500 7))])) ∧
      (BlobAssembler.initial.push (blobChunk 1 3 0 [7, 8, 9])).2 = .ok (some (1, [7, 8, 9])) ∧
      Gathers (accepted BlobAssembler.next BlobAssembler.piece? .initial
        [blobChunk 1 3 0 [7, 8, 9]]) (1, 3) [7, 8, 9] := by
  obtain ⟨blobs, _, _, returns, _, _⟩ := transfers_reassemble
  have complete : (BlobAssembler.initial.push (blobChunk 1 3 0 [7, 8, 9])).2 =
      .ok (some (1, [7, 8, 9])) := by decide
  refine ⟨blobs _ _ _ ?_ ?_, complete, returns [] _ _ _ complete⟩
  · rw [List.length_replicate]
    decide
  · rw [List.length_replicate]
    decide

end Cdk.Link

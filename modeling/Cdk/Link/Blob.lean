import Cdk.Link.Peer

/-!
# Link messages: blobs, statuses and requests

What travels in the sealed frames between a kernel and its gateway.  Anything longer than a frame
is a blob, cut into chunks with their kind, the total length and their offset: an assembler in any
state completes exactly the blob that was cut, with its last chunk (`pushAll_encodeBlob`).
-/

namespace Cdk.Link

open ByteFormat Reader

def blobTag : UInt8 := 0x44

def importRequestTag : UInt8 := 0x45

def peerStatusTag : UInt8 := 0x46

def nextInboundTag : UInt8 := 0x47

def inboundDoneTag : UInt8 := 0x48

def revokeTag : UInt8 := 0x49

def storeGetTag : UInt8 := 0x4A

/-- The blob kinds. -/
inductive BlobKind where
  | nodeCert
  | export
  | import
  | outbound
  | inbound
  | revocations
  | store
  deriving DecidableEq, Repr

def BlobKind.byte : BlobKind → UInt8
  | nodeCert => 1
  | «export» => 2
  | «import» => 3
  | outbound => 4
  | inbound => 5
  | revocations => 6
  | store => 7

/-! ## Blobs -/

def blobData : Nat := 512

def blobChunk (kind : UInt8) (total offset : Nat) (bytes : Bytes) : Bytes := blobTag :: kind ::
    (le16 (UInt16.ofNat total) ++ (le16 (UInt16.ofNat offset) ++ bytes))

/-- The chunks of a blob. -/
def encodeBlob (kind : UInt8) (data : Bytes) : Option (List Bytes) :=
  if data.isEmpty || data.length > maxBlob then none
  else
    some ((chunks blobData data).mapIdx fun index bytes =>
      blobChunk kind data.length (index * blobData) bytes)

theorem encodeBlob_of_fits (kind : UInt8) (nonempty : 0 < data.length)
    (fits : data.length ≤ maxBlob) : ∃ messages, encodeBlob kind data = some messages := by
  have accepted : ¬(data.isEmpty || decide (data.length > maxBlob)) := by
    simp only [Bool.or_eq_true, List.isEmpty_iff, decide_eq_true_eq, not_or]
    exact ⟨List.length_pos_iff.mp nonempty, Nat.not_lt.mpr fits⟩
  exact ⟨_, if_neg accepted⟩

theorem encodeBlob_of_long (kind : UInt8) (long : maxBlob < data.length) :
    encodeBlob kind data = none := by
  rw [encodeBlob, if_pos]
  simp [long]

/-- Reassembles blob chunks. -/
structure BlobAssembler where
  kind : UInt8
  /-- Its total length, or zero. -/
  total : Nat
  /-- What has arrived of it. -/
  data : Bytes
  deriving DecidableEq

/-- The fields of a chunk: a byte, two numbers of 16 bits and the data. -/
theorem chunkHeader (first : UInt8) (total offset : UInt16) (data : Bytes) :
    let chunk := first :: (le16 total ++ (le16 offset ++ data))
    (chunk.drop 1).take 2 = le16 total ∧ (chunk.drop 3).take 2 = le16 offset ∧
      chunk.drop 5 = data ∧ chunk.length = 5 + data.length := by
  refine ⟨by simp, by simp, ?_, by simp; omega⟩
  rw [List.drop_succ_cons, ← List.append_assoc]
  exact List.drop_left' (by simp)

namespace BlobAssembler

def initial : BlobAssembler := ⟨0, 0, []⟩

/-- What one pushed message gives: nothing yet, or a complete blob. -/
abbrev Outcome := Except String (Option (UInt8 × Bytes))

variable (assembler : BlobAssembler)

/-- Add a chunk whose header has been read; a chunk at offset zero
restarts. -/
def append (kind : UInt8) (total offset : Nat) (data : Bytes) : BlobAssembler × Outcome :=
  let current := if offset = 0 then ⟨kind, total, []⟩ else assembler
  if kind ≠ current.kind ∨ total ≠ current.total ∨
      offset ≠ current.data.length ∨ offset + data.length > total then
    (⟨current.kind, 0, []⟩, .error "blob chunk out of order")
  else if (current.data ++ data).length = current.total then
    (⟨current.kind, 0, []⟩, .ok (some (current.kind, current.data ++ data)))
  else (⟨current.kind, current.total, current.data ++ data⟩, .ok none)

/-- Take a chunk. -/
def push (message : Bytes) : BlobAssembler × Outcome :=
  match message with
  | [] => (assembler, .error "not a blob chunk")
  | tag :: rest =>
    if tag ≠ blobTag then (assembler, .error "not a blob chunk")
    else if rest.length < 6 then (assembler, .error "short blob chunk")
    else
      let kind := rest.headD 0
      let total := leValue ((rest.drop 1).take 2)
      let offset := leValue ((rest.drop 3).take 2)
      let data := rest.drop 5
      if total = 0 ∨ total > maxBlob ∨ data.isEmpty ∨
          data.length > blobData then
        (assembler, .error "blob chunk with a bad size")
      else assembler.append kind total offset data

theorem push_blobChunk (kind : UInt8) {total offset : Nat}
    {data : Bytes} (totalPositive : total ≠ 0) (totalFits : total ≤ maxBlob)
    (offsetFits : offset ≤ maxBlob) (nonempty : data ≠ []) (short : data.length ≤ blobData) :
    assembler.push (blobChunk kind total offset data) =
      assembler.append kind total offset data := by
  have positive : 0 < data.length := List.length_pos_iff.mpr nonempty
  have small (number : Nat) (fits : number ≤ maxBlob) : number < 65536 :=
    fits.trans_lt (by decide)
  obtain ⟨totalBytes, offsetBytes, dataBytes, body⟩ :=
    chunkHeader kind (UInt16.ofNat total) (UInt16.ofNat offset) data
  simp only [push, blobChunk, totalBytes, offsetBytes, dataBytes, body,
    leValue_le16_ofNat (small _ totalFits), leValue_le16_ofNat (small _ offsetFits),
    List.headD_cons]
  rw [if_neg (by simp), if_neg (by omega), if_neg]
  simp only [List.isEmpty_iff, not_or]
  exact ⟨totalPositive, by omega, nonempty, by omega⟩

/-- Take chunks in order. -/
def pushAll (assembler : BlobAssembler) : List Bytes → BlobAssembler × List Outcome
  | [] => (assembler, [])
  | message :: rest =>
    let pushed := assembler.push message
    let others := pushed.1.pushAll rest
    (others.1, pushed.2 :: others.2)

@[simp] theorem length_pushAll (messages : List Bytes) :
    (assembler.pushAll messages).2.length = messages.length := by
  induction messages generalizing assembler with
  | nil => rfl
  | cons message rest ih =>
    simp [pushAll, ih]

theorem pushAll_append (early late : List Bytes) :
    (assembler.pushAll (early ++ late)).2 = (assembler.pushAll early).2 ++
        ((assembler.pushAll early).1.pushAll late).2 := by
  induction early generalizing assembler with
  | nil => rfl
  | cons message rest ih =>
    simp [pushAll, ih]

/-- The chunk messages of the part of a blob that follows `front`. -/
def laterChunks (kind : UInt8) (front rest : Bytes) : List Bytes :=
  (chunks blobData rest).mapIdx fun index bytes =>
    blobChunk kind (front ++ rest).length (front.length + index * blobData) bytes

variable {kind : UInt8}

theorem push_next {assembler : BlobAssembler} {total : Nat} {front data : Bytes}
    (ready : front = [] ∨ assembler = ⟨kind, total, front⟩) (nonempty : data ≠ [])
    (short : data.length ≤ blobData) (fits : (front ++ data).length ≤ total)
    (totalFits : total ≤ maxBlob) : assembler.push (blobChunk kind total front.length data) =
      if (front ++ data).length = total then (⟨kind, 0, []⟩, .ok (some (kind, front ++ data)))
      else (⟨kind, total, front ++ data⟩, .ok none) := by
  have positive := List.length_pos_iff.mpr nonempty
  rw [List.length_append] at fits
  have current : (if front.length = 0 then ⟨kind, total, []⟩ else assembler) =
      (⟨kind, total, front⟩ : BlobAssembler) := by
    split
    · rename_i zero
      rw [List.eq_nil_of_length_eq_zero zero]
    · rename_i later
      exact ready.resolve_left fun empty => later (by simp [empty])
  rw [push_blobChunk assembler kind (by omega) totalFits (by omega) nonempty short]
  simp only [append, current]
  rw [if_neg]
  simp only [ne_eq, not_true_eq_false, false_or]
  omega

/-- An assembler that is ready for the part after `front` completes the blob
with the last of the remaining chunks, and not before. -/
theorem pushAll_laterChunks {front rest : Bytes} (nonempty : rest ≠ [])
    (isWhole : front ++ rest = whole) (fits : whole.length ≤ maxBlob)
    (isMessages : laterChunks kind front rest = messages) : ∀ assembler : BlobAssembler,
      (front = [] ∨ assembler = ⟨kind, whole.length, front⟩) →
      ∃ count, assembler.pushAll messages = (⟨kind, 0, []⟩,
          List.replicate count (.ok none) ++ [.ok (some (kind, whole))]) := by
  rw [laterChunks, isWhole] at isMessages
  refine chunks_induction _ (by decide) ?_ ?_ front messages nonempty isWhole isMessages
  · intro front data nonempty short isWhole assembler ready
    subst isWhole
    have pushed := push_next ready nonempty short le_rfl fits
    rw [if_pos rfl] at pushed
    exact ⟨0, by rw [pushAll, pushed]; rfl⟩
  · intro front data later nonempty short less ih assembler ready
    have pushed := push_next ready nonempty short less.le fits
    rw [if_neg less.ne] at pushed
    obtain ⟨count, completed⟩ := ih _ (.inr rfl)
    refine ⟨count + 1, ?_⟩
    rw [pushAll, pushed, completed, List.replicate_succ]
    rfl

/-- Whatever the assembler held before, the chunks of a blob complete that
blob with the last of them. -/
theorem pushAll_encodeBlob {data : Bytes} (encoded : encodeBlob kind data = some messages) :
    ∃ count, assembler.pushAll messages = (⟨kind, 0, []⟩,
          List.replicate count (.ok none) ++ [.ok (some (kind, data))]) := by
  unfold encodeBlob at encoded
  split at encoded
  · contradiction
  rename_i fits
  simp only [Bool.or_eq_true, List.isEmpty_iff, decide_eq_true_eq, not_or, not_lt] at fits
  have isMessages : laterChunks kind [] data = messages := by
    simp only [Option.some.injEq] at encoded
    simp [← encoded, laterChunks]
  exact pushAll_laterChunks fits.1 (List.nil_append _) fits.2 isMessages assembler (.inl rfl)

/-- The chunks before the last one give nothing yet. -/
theorem pushAll_of_prefix {data : Bytes}
    (encoded : encodeBlob kind data = some messages) (before : early <+: messages)
    (proper : early ≠ messages) : (assembler.pushAll early).2 =
      List.replicate early.length (.ok none) := by
  obtain ⟨late, rfl⟩ := before
  obtain ⟨count, pushed⟩ := assembler.pushAll_encodeBlob encoded
  have outcomes := pushAll_append assembler early late
  rw [pushed] at outcomes
  have lengths := congrArg List.length outcomes
  have short : early.length ≤ count := by
    have : late ≠ [] := fun empty => proper (by rw [empty, List.append_nil])
    have := List.length_pos_iff.mpr this
    simp only [List.length_append, List.length_replicate, List.length_cons,
      List.length_nil, length_pushAll] at lengths
    omega
  have taken := congrArg (List.take early.length) outcomes
  rw [List.take_left' (length_pushAll _ _), List.take_append_of_le_length (by simpa using short),
    List.take_replicate, Nat.min_eq_left short] at taken
  exact taken.symm

end BlobAssembler

/-! ## Statuses -/

/-- A Rust string: a sequence of characters. -/
abbrev Text := List Char

def utf8 (text : Text) : Bytes := text.flatMap String.utf8EncodeChar

def fromUtf8 (bytes : Bytes) : Option Text := bytes.toByteArray.utf8Decode?.map Array.toList

@[simp] theorem fromUtf8_utf8 (text : Text) : fromUtf8 (utf8 text) = some text := by
  have decoded : text.utf8Encode.utf8Decode? = some text.toArray := List.utf8Decode?_utf8Encode
  rw [List.utf8Encode] at decoded
  simp only [fromUtf8, utf8, decoded, Option.map_some]

theorem fromUtf8_eq_some {bytes : Bytes} : fromUtf8 bytes = some text ↔ bytes = utf8 text := by
  constructor
  · intro read
    obtain ⟨characters, decoded, rfl⟩ := Option.map_eq_some_iff.mp read
    have encoded := ByteArray.utf8Encode_get_utf8Decode? (h := by rw [decoded]; rfl)
    simp only [decoded, Option.get_some] at encoded
    have same := congrArg (fun array => array.data.toList) encoded
    simpa [List.utf8Encode, utf8] using same.symm
  · rintro rfl
    exact fromUtf8_utf8 text

theorem utf8_injective : Function.Injective utf8 := by
  intro left right equal
  have decoded := congrArg fromUtf8 equal
  simpa only [fromUtf8_utf8, Option.some.injEq] using decoded

/-- The longest prefix that takes at most `limit` bytes. -/
def cutAt : Nat → Text → Text
  | _, [] => []
  | limit, character :: rest =>
    if character.utf8Size ≤ limit then
      character :: cutAt (limit - character.utf8Size) rest
    else []

def encodeStatus (ok : Bool) (text : Text) : Bytes :=
  peerStatusTag :: ok.toUInt8 :: utf8 (cutAt 200 text)

def decodeStatus (bytes : Bytes) : Option (Bool × Text) :=
  match bytes with
  | tag :: ok :: text =>
    if tag ≠ peerStatusTag then none
    else (fromUtf8 text).map fun note => (ok == 1, note)
  | _ => none

@[simp] theorem decodeStatus_encodeStatus (ok : Bool) (text : Text) :
    decodeStatus (encodeStatus ok text) = some (ok, cutAt 200 text) := by
  cases ok <;> simp [decodeStatus, encodeStatus, Bool.toUInt8]

/-! ## Requests -/

def encodeImportRequest (name : Bytes) : Bytes :=
  importRequestTag :: UInt8.ofNat name.length :: name

def decodeImportRequest (bytes : Bytes) : Option FileName :=
  match bytes with
  | tag :: count :: name =>
    if tag ≠ importRequestTag then none
    else if name.length ≠ count.toNat then none
    else Name.ofBytes? validFileName name
  | _ => none

theorem decodeImportRequest_encodeImportRequest (name : FileName) :
    decodeImportRequest (encodeImportRequest name.text) = some name := by
  have short := length_fileName name
  have count : (UInt8.ofNat name.text.length).toNat = name.text.length := by
    rw [UInt8.toNat_ofNat']
    omega
  simp [decodeImportRequest, encodeImportRequest, count]

def decodeInboundDone (bytes : Bytes) : Option (FileName × Bool) :=
  match bytes with
  | tag :: count :: rest =>
    if tag ≠ inboundDoneTag then none
    else match rest.drop count.toNat with
      | [0] => (Name.ofBytes? _ (rest.take count.toNat)).map (·, false)
      | [1] => (Name.ofBytes? _ (rest.take count.toNat)).map (·, true)
      | _ => none
  | _ => none

def encodeRevoke (serial : UInt64) : Bytes := revokeTag :: le64 serial

/-- The serial of a revocation. -/
def decodeRevoke (bytes : Bytes) : Option UInt64 :=
  match bytes with
  | tag :: rest =>
    if tag ≠ revokeTag then none
    else if rest.length ≠ 8 then none
    else some (UInt64.ofNat (leValue rest))
  | [] => none

/-! ## Revocation lists -/

def encodeRevocations (serials : List UInt64) : Bytes :=
  le16 (UInt16.ofNat serials.length) ++ serials.flatMap le64

def decodeRevocations : Bytes → Option (List UInt64) :=
  strictly do
    let count ← u16
    many u64 count.toNat

theorem length_encodeRevocations (serials : List UInt64) :
    (encodeRevocations serials).length = 2 + 8 * serials.length := by
  have each : ∀ serial ∈ serials, (le64 serial).length = 8 := by simp
  rw [encodeRevocations, List.length_append, length_le16, List.length_flatMap,
    List.map_congr_left each]
  simp [Nat.mul_comm]

theorem decodeRevocations_encodeRevocations (short : serials.length < 65536) :
    decodeRevocations (encodeRevocations serials) = some serials := by
  simp [decodeRevocations, encodeRevocations, Option.bind_eq_some_iff,
    run_many run_u64, eq_toNat16, short]

end Cdk.Link

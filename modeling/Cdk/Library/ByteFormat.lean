import Mathlib.Data.List.Basic
import Mathlib.Tactic.Linarith

/-!
# Byte strings, little-endian integers and bounds-checked readers

A format is described by an encoder and by a reader.  The specification of a reader says from
which bytes it returns a value and what it leaves: from the encoding of the value and nothing
else.  The lemmas `run_…` say so for each reader here, and a record's follows from its fields'.
-/

namespace ByteFormat

abbrev Bytes := List UInt8

def ascii (text : String) : Bytes := text.toList.map fun character => UInt8.ofNat character.toNat

/-- A byte string of a fixed length. -/
structure Fixed (length : Nat) where
  bytes : Bytes
  length_eq : bytes.length = length
  deriving DecidableEq

namespace Fixed

@[simp] theorem length_bytes (fixed : Fixed length) : fixed.bytes.length = length := fixed.length_eq

@[ext] theorem ext {left right : Fixed length} (equal : left.bytes = right.bytes) :
    left = right := by
  cases left
  cases right
  congr

def replicate (length : Nat) (byte : UInt8) : Fixed length where
  bytes := List.replicate length byte
  length_eq := List.length_replicate

def ofBytes? (length : Nat) (bytes : Bytes) : Option (Fixed length) :=
  if fits : bytes.length = length then some ⟨bytes, fits⟩ else none

@[simp] theorem ofBytes?_bytes (fixed : Fixed length) :
    ofBytes? length fixed.bytes = some fixed := by
  simp [ofBytes?]

theorem ofBytes?_eq_some {bytes : Bytes} {fixed : Fixed length} :
    ofBytes? length bytes = some fixed ↔ bytes = fixed.bytes := by
  constructor
  · intro checked
    obtain ⟨fits, same⟩ := Option.dite_none_right_eq_some.mp checked
    cases same
    rfl
  · rintro rfl
    exact ofBytes?_bytes fixed

end Fixed

/-! ## Little-endian integers -/

/-- The little-endian bytes of a number, cut to a fixed width. -/
def leBytes : (width : Nat) → Nat → Bytes
  | 0, _ => []
  | width + 1, value => UInt8.ofNat (value % 256) :: leBytes width (value / 256)

/-- The number with the given little-endian bytes. -/
def leValue : Bytes → Nat
  | [] => 0
  | byte :: rest => byte.toNat + 256 * leValue rest

@[simp] theorem length_leBytes (width value : Nat) : (leBytes width value).length = width := by
  induction width generalizing value with
  | zero => rfl
  | succ width ih => simp [leBytes, ih]

theorem leValue_leBytes (width value : Nat) (fits : value < 256 ^ width) :
    leValue (leBytes width value) = value := by
  induction width generalizing value with
  | zero =>
    have zero : value = 0 := by simpa using fits
    simp [leBytes, leValue, zero]
  | succ width ih =>
    have quotientFits : value / 256 < 256 ^ width := by
      apply Nat.div_lt_of_lt_mul
      simpa [Nat.pow_succ, Nat.mul_comm] using fits
    have digit : (UInt8.ofNat (value % 256)).toNat = value % 256 := by
      simp
    simp only [leBytes, leValue, ih _ quotientFits, digit]
    omega

theorem leValue_lt (fits : bytes.length = width) : leValue bytes < 256 ^ width := by
  subst fits
  induction bytes with
  | nil => simp [leValue]
  | cons byte rest ih =>
    have digit := byte.toNat_lt
    rw [leValue, List.length_cons, Nat.pow_succ]
    omega

theorem leBytes_leValue (fits : bytes.length = width) : leBytes width (leValue bytes) = bytes := by
  subst fits
  induction bytes with
  | nil => rfl
  | cons byte rest ih =>
    have digit := byte.toNat_lt
    have low : (byte.toNat + 256 * leValue rest) % 256 = byte.toNat := by omega
    have high : (byte.toNat + 256 * leValue rest) / 256 = leValue rest := by omega
    simp only [List.length_cons, leBytes, leValue, low, high, ih, UInt8.ofNat_toNat]

/-- The two bytes of a 16-bit integer. -/
def le16 (value : UInt16) : Bytes := leBytes 2 value.toNat

/-- The four bytes of a 32-bit integer. -/
def le32 (value : UInt32) : Bytes := leBytes 4 value.toNat

/-- The eight bytes of a 64-bit integer. -/
def le64 (value : UInt64) : Bytes := leBytes 8 value.toNat

@[simp] theorem length_le16 (value : UInt16) : (le16 value).length = 2 := length_leBytes 2 _

@[simp] theorem length_le32 (value : UInt32) : (le32 value).length = 4 := length_leBytes 4 _

@[simp] theorem length_le64 (value : UInt64) : (le64 value).length = 8 := length_leBytes 8 _

@[simp] theorem ofNat_leValue_le16 (value : UInt16) :
    UInt16.ofNat (leValue (le16 value)) = value := by
  rw [le16, leValue_leBytes _ _ (by simpa using value.toNat_lt), UInt16.ofNat_toNat]

theorem le16_ofNat_leValue (bytes : Bytes) (fits : bytes.length = 2) :
    le16 (UInt16.ofNat (leValue bytes)) = bytes := by
  rw [le16, UInt16.toNat_ofNat_of_lt' (leValue_lt fits), leBytes_leValue fits]

theorem le32_ofNat_leValue (bytes : Bytes) (fits : bytes.length = 4) :
    le32 (UInt32.ofNat (leValue bytes)) = bytes := by
  rw [le32, UInt32.toNat_ofNat_of_lt' (leValue_lt fits), leBytes_leValue fits]

theorem leValue_le16_ofNat (small : number < 65536) :
    leValue (le16 (UInt16.ofNat number)) = number := by
  rw [le16, leValue_leBytes _ _ (by simp; omega), UInt16.toNat_ofNat']
  omega

@[simp] theorem ofNat_leValue_le32 (value : UInt32) :
    UInt32.ofNat (leValue (le32 value)) = value := by
  rw [le32, leValue_leBytes _ _ (by simpa using value.toNat_lt), UInt32.ofNat_toNat]

@[simp] theorem ofNat_leValue_le64 (value : UInt64) :
    UInt64.ofNat (leValue (le64 value)) = value := by
  rw [le64, leValue_leBytes _ _ (by simpa using value.toNat_lt), UInt64.ofNat_toNat]

theorem le64_injective : Function.Injective le64 := by
  intro left right equal
  rw [← ofNat_leValue_le64 left, equal, ofNat_leValue_le64]

/-! What it means that a length was written as an integer of so many bits. -/

theorem eq_toNat8 {value : UInt8} : number = value.toNat ↔
    number < 256 ∧ value = UInt8.ofNat number := by
  constructor
  · rintro rfl
    exact ⟨value.toNat_lt, UInt8.ofNat_toNat.symm⟩
  · rintro ⟨small, rfl⟩
    exact (UInt8.toNat_ofNat_of_lt' small).symm

theorem eq_toNat16 {value : UInt16} : number = value.toNat ↔
    number < 65536 ∧ value = UInt16.ofNat number := by
  constructor
  · rintro rfl
    exact ⟨value.toNat_lt, UInt16.ofNat_toNat.symm⟩
  · rintro ⟨small, rfl⟩
    exact (UInt16.toNat_ofNat_of_lt' small).symm

theorem eq_toNat32 {value : UInt32} : number = value.toNat ↔
    number < 4294967296 ∧ value = UInt32.ofNat number := by
  constructor
  · rintro rfl
    exact ⟨value.toNat_lt, UInt32.ofNat_toNat.symm⟩
  · rintro ⟨small, rfl⟩
    exact (UInt32.toNat_ofNat_of_lt' small).symm

/-- A bound on a length that was written down, and not cut. -/
theorem mod_le_iff {number limit width : Nat} (small : limit < width) :
    number < width ∧ number % width ≤ limit ↔ number ≤ limit := by
  constructor
  · rintro ⟨fits, within⟩
    rwa [Nat.mod_eq_of_lt fits] at within
  · intro within
    have fits := within.trans_lt small
    exact ⟨fits, by rwa [Nat.mod_eq_of_lt fits]⟩

/-! ## Big-endian integers -/

/-- The big-endian bytes of a number, cut to a fixed width. -/
def beBytes (width value : Nat) : Bytes := (leBytes width value).reverse

/-- The number with the given big-endian bytes. -/
def beValue (bytes : Bytes) : Nat := leValue bytes.reverse

/-- The two bytes of a 16-bit integer, the more significant one first. -/
def be16 (value : UInt16) : Bytes := beBytes 2 value.toNat

/-- The four bytes of a 32-bit integer, the most significant one first. -/
def be32 (value : UInt32) : Bytes := beBytes 4 value.toNat

@[simp] theorem length_be16 (value : UInt16) : (be16 value).length = 2 := by
  simp [be16, beBytes]

@[simp] theorem length_be32 (value : UInt32) : (be32 value).length = 4 := by
  simp [be32, beBytes]

@[simp] theorem ofNat_beValue_be16 (value : UInt16) :
    UInt16.ofNat (beValue (be16 value)) = value := by
  rw [beValue, be16, beBytes, List.reverse_reverse]
  exact ofNat_leValue_le16 value

@[simp] theorem ofNat_beValue_be32 (value : UInt32) :
    UInt32.ofNat (beValue (be32 value)) = value := by
  rw [beValue, be32, beBytes, List.reverse_reverse]
  exact ofNat_leValue_le32 value

/-! ## Readers -/

/-- A computation that consumes bytes from the front of its input, or fails. -/
abbrev Reader := StateT Bytes Option

namespace Reader

def parse (reader : Reader α) (bytes : Bytes) : Option α := (reader.run bytes).map Prod.fst

/-- The next `count` bytes, or failure if fewer remain. -/
def take (count : Nat) : Reader Bytes := fun bytes =>
  if bytes.length < count then none
  else some (bytes.take count, bytes.drop count)

def u8 : Reader UInt8 := fun bytes =>
  match bytes with
  | [] => none
  | byte :: rest => some (byte, rest)

/-- A little-endian 16-bit integer. -/
def u16 : Reader UInt16 := do
  let bytes ← take 2
  pure (UInt16.ofNat (leValue bytes))

/-- A little-endian 32-bit integer. -/
def u32 : Reader UInt32 := do
  let bytes ← take 4
  pure (UInt32.ofNat (leValue bytes))

/-- A little-endian 64-bit integer. -/
def u64 : Reader UInt64 := do
  let bytes ← take 8
  pure (UInt64.ofNat (leValue bytes))

/-- A big-endian 16-bit integer. -/
def u16be : Reader UInt16 := do
  let bytes ← take 2
  pure (UInt16.ofNat (beValue bytes))

/-- A big-endian 32-bit integer. -/
def u32be : Reader UInt32 := do
  let bytes ← take 4
  pure (UInt32.ofNat (beValue bytes))

def fixed (length : Nat) : Reader (Fixed length) := do
  let bytes ← take length
  (Fixed.ofBytes? length bytes : Option (Fixed length))

/-- Fail unless a condition holds. -/
def require (condition : Bool) : Reader Unit :=
  if condition then pure () else failure

/-- Succeed only at the end of the input. -/
def finish : Reader Unit := fun bytes =>
  if bytes.isEmpty then some ((), bytes) else none

/-- Read the same kind of item a given number of times. -/
def many (item : Reader α) : Nat → Reader (List α)
  | 0 => pure []
  | count + 1 => do
      let first ← item
      let rest ← many item count
      pure (first :: rest)

/-- Read items one after another. -/
def vector (item : Reader α) : (count : Nat) → Reader (Vector α count)
  | 0 => pure #v[]
  | count + 1 => do
      let front ← vector item count
      let last ← item
      pure (front.push last)

/-! What each reader accepts.  As rewriting rules they turn the acceptance of a whole record into
an equation between its bytes and its encoding. -/

section Runs

variable {bytes rest : Bytes}

@[simp] theorem parse_eq_some {reader : Reader α} :
    reader.parse bytes = some value ↔ ∃ rest, reader.run bytes = some (value, rest) := by
  simp [parse]

@[simp] theorem run_u8 : u8.run bytes = some (value, rest) ↔ bytes = value :: rest := by
  cases bytes <;> simp [u8, StateT.run]

@[simp] theorem run_take : (take count).run bytes = some (value, rest) ↔
    bytes = value ++ rest ∧ value.length = count := by
  simp only [take, StateT.run, Option.ite_none_left_eq_some, Option.some.injEq, Prod.mk.injEq,
    not_lt]
  constructor
  · rintro ⟨long, rfl, rfl⟩
    exact ⟨(List.take_append_drop count bytes).symm, List.length_take_of_le long⟩
  · rintro ⟨rfl, rfl⟩
    simp

@[simp] theorem run_require {value : Unit} :
    (require condition).run bytes = some (value, rest) ↔ condition ∧ bytes = rest := by
  cases condition <;> simp [require]

@[simp] theorem run_finish {value : Unit} :
    finish.run bytes = some (value, rest) ↔ bytes = [] ∧ rest = [] := by
  cases bytes <;> simp [finish, StateT.run, eq_comm]

/-- What `encode` spells in a fixed number of bytes, such as an integer. -/
theorem run_integer {encode : α → Bytes} {ofBytes : Bytes → α}
    (length : ∀ value, (encode value).length = width)
    (decodes : ∀ value, ofBytes (encode value) = value)
    (encodes : ∀ bytes, bytes.length = width → encode (ofBytes bytes) = bytes) :
    (do let bytes ← take width; pure (ofBytes bytes) : Reader α).run bytes = some (value, rest) ↔
      bytes = encode value ++ rest := by
  simp only [bind_pure_comp, StateT.run_map, Option.map_eq_map, Option.map_eq_some_iff,
    Prod.exists, run_take, Prod.mk.injEq]
  constructor
  · rintro ⟨taken, _, ⟨rfl, fits⟩, rfl, rfl⟩
    rw [encodes taken fits]
  · rintro rfl
    exact ⟨encode value, rest, ⟨rfl, length value⟩, decodes value, rfl⟩

@[simp] theorem run_u16 : u16.run bytes = some (value, rest) ↔ bytes = le16 value ++ rest :=
  run_integer length_le16 ofNat_leValue_le16 le16_ofNat_leValue

@[simp] theorem run_u32 : u32.run bytes = some (value, rest) ↔ bytes = le32 value ++ rest :=
  run_integer length_le32 ofNat_leValue_le32 le32_ofNat_leValue

@[simp] theorem run_u64 : u64.run bytes = some (value, rest) ↔ bytes = le64 value ++ rest :=
  run_integer length_le64 ofNat_leValue_le64 fun bytes fits => by
    rw [le64, UInt64.toNat_ofNat_of_lt' (leValue_lt fits), leBytes_leValue fits]

@[simp] theorem run_u16be : u16be.run bytes = some (value, rest) ↔ bytes = be16 value ++ rest :=
  run_integer length_be16 ofNat_beValue_be16 fun bytes fits => by
    rw [be16, beBytes, beValue, ← le16, le16_ofNat_leValue _ (by simpa), List.reverse_reverse]

@[simp] theorem run_u32be : u32be.run bytes = some (value, rest) ↔ bytes = be32 value ++ rest :=
  run_integer length_be32 ofNat_beValue_be32 fun bytes fits => by
    rw [be32, beBytes, beValue, ← le32, le32_ofNat_leValue _ (by simpa), List.reverse_reverse]

@[simp] theorem run_fixed :
    (fixed length).run bytes = some (value, rest) ↔ bytes = value.bytes ++ rest := by
  simp [fixed, Option.bind_eq_some_iff, Fixed.ofBytes?_eq_some]

/-- Items of which only the valid ones are accepted. -/
theorem run_many_valid {encode : α → Bytes} {valid : α → Prop} (runItem : ∀ {bytes value rest},
      item.run bytes = some (value, rest) ↔ bytes = encode value ++ rest ∧ valid value) :
    (many item count).run bytes = some (values, rest) ↔ bytes = values.flatMap encode ++ rest ∧
      values.length = count ∧ ∀ value ∈ values, valid value := by
  induction count generalizing bytes values with
  | zero => cases values <;> simp [many]
  | succ count ih =>
    cases values with
    | nil => simp [many, Option.bind_eq_some_iff]
    | cons first others =>
      simp [many, runItem, ih, Option.bind_eq_some_iff, and_assoc, and_left_comm]

section

variable {item : Reader α} {encode : α → Bytes} (runItem : ∀ {bytes value rest},
  item.run bytes = some (value, rest) ↔ bytes = encode value ++ rest)
include runItem

theorem run_many : (many item count).run bytes = some (values, rest) ↔
      bytes = values.flatMap encode ++ rest ∧ values.length = count := by
  have valid : ∀ {bytes value rest}, item.run bytes = some (value, rest) ↔
      bytes = encode value ++ rest ∧ True := by simp [runItem]
  simp [run_many_valid valid]

theorem run_vector {values : Vector α count} : (vector item count).run bytes = some (values, rest) ↔
      bytes = values.toList.flatMap encode ++ rest := by
  induction count generalizing bytes rest with
  | zero => simp [vector, Vector.eq_empty]
  | succ count ih =>
    obtain ⟨front, last, rfl⟩ : ∃ front last, values = Vector.push front last :=
      ⟨values.pop, values.back, (values.push_pop_back).symm⟩
    simp only [vector, bind_pure_comp, StateT.run_bind, StateT.run_map, Option.bind_eq_bind,
      Option.bind_eq_some_iff, Option.map_eq_map, Option.map_eq_some_iff, ih, runItem, Prod.exists,
      Prod.mk.injEq, Vector.toList_push, List.flatMap_append, List.flatMap_singleton]
    constructor
    · rintro ⟨front', _, rfl, last', _, rfl, same, rfl⟩
      obtain ⟨rfl, rfl⟩ := Vector.push_eq_push.mp same
      simp
    · rintro rfl
      exact ⟨front, _, List.append_assoc .., last, rest, rfl, rfl, rfl⟩

end

end Runs

end Reader

/-! ## Chunks -/

/-- Consecutive pieces of a list, of the given size except perhaps the last. -/
def chunks (size : Nat) : List α → List (List α)
  | [] => []
  | first :: rest =>
    (first :: rest.take (size - 1)) :: chunks size (rest.drop (size - 1))
  termination_by list => list.length

@[simp] theorem chunks_nil (size : Nat) : chunks size ([] : List α) = [] := by
  rw [chunks]

theorem chunks_of_ne_nil (positive : 0 < size) (nonempty : list ≠ []) :
    chunks size list = list.take size :: chunks size (list.drop size) := by
  obtain ⟨first, rest, rfl⟩ := List.exists_cons_of_ne_nil nonempty
  obtain ⟨smaller, rfl⟩ : ∃ smaller, size = smaller + 1 := ⟨size - 1, by omega⟩
  rw [chunks]
  simp

theorem chunks_of_short (nonempty : list ≠ []) (short : list.length ≤ size) :
    chunks size list = [list] := by
  have positive : 0 < size := (List.length_pos_iff.mpr nonempty).trans_le short
  rw [chunks_of_ne_nil positive nonempty, List.take_of_length_le short,
    List.drop_eq_nil_of_le short, chunks_nil]

theorem length_le_of_mem_chunks (positive : 0 < size) (member : piece ∈ chunks size list) :
    piece.length ≤ size := by
  fun_induction chunks size list with
  | case1 => cases member
  | case2 first rest ih =>
    rcases List.mem_cons.mp member with rfl | later
    · simp
      omega
    · exact ih later

theorem mapIdx_chunks_of_ne_nil (encode : Nat → List α → β) (offset : Nat) (positive : 0 < size)
    (nonempty : list ≠ []) : ((chunks size list).mapIdx fun index piece =>
        encode (offset + index * size) piece) = encode offset (list.take size) ::
        (chunks size (list.drop size)).mapIdx fun index piece =>
          encode (offset + size + index * size) piece := by
  rw [chunks_of_ne_nil positive nonempty, List.mapIdx_cons]
  refine congrArg₂ List.cons (by simp) ?_
  congr 1
  funext index piece
  congr 1
  rw [Nat.add_mul, Nat.one_mul, Nat.add_assoc, Nat.add_comm size]

/-- Induction over the encoded chunks of a list, behind a part that has gone before. -/
@[elab_as_elim] theorem chunks_induction {whole : List α} {motive : List α → List β → Prop}
    (encode : Nat → List α → β) (positive : 0 < size)
    (last : ∀ front piece, piece ≠ [] → piece.length ≤ size → front ++ piece = whole →
      motive front [encode front.length piece])
    (more : ∀ front piece later, piece ≠ [] → piece.length ≤ size →
      (front ++ piece).length < whole.length → motive (front ++ piece) later →
        motive front (encode front.length piece :: later))
    (front : List α) (messages : List β) (nonempty : rest ≠ []) (split : front ++ rest = whole)
    (isMessages : ((chunks size rest).mapIdx fun index piece =>
      encode (front.length + index * size) piece) = messages) : motive front messages := by
  subst isMessages
  induction length : rest.length using Nat.strong_induction_on generalizing front rest with
  | _ count ih =>
    by_cases short : rest.length ≤ size
    · simpa [chunks_of_short nonempty short] using last front rest nonempty short split
    have taken : (rest.take size).length = size := List.length_take_of_le (by omega)
    have remaining : rest.drop size ≠ [] := by simpa using short
    have later := ih (rest.drop size).length (by rw [List.length_drop]; omega)
      (front ++ rest.take size) remaining
      (by rw [List.append_assoc, List.take_append_drop, split]) rfl
    rw [List.length_append, taken] at later
    rw [mapIdx_chunks_of_ne_nil encode _ positive nonempty]
    refine more front _ _ (List.ne_nil_of_length_pos (by omega)) taken.le ?_ later
    rw [← split, List.length_append, List.length_append]
    omega

end ByteFormat

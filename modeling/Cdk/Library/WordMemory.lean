import Mathlib.Data.Nat.Bitwise
import Mathlib.Tactic.IntervalCases

/-!
# Bytes in a memory of words

A memory of 64-bit words, addressed by word, seen as bytes: byte `address` is lane
`address % 8` of word `address / 8`, the lowest lane first.
-/

namespace WordMemory

/-! ## Lanes -/

def getLane (word : UInt64) (lane : Nat) : UInt8 := ⟨word.toBitVec.extractLsb' (8 * lane) 8⟩

def setLane (word : UInt64) (lane : Nat) (byte : UInt8) : UInt64 :=
  ⟨word.toBitVec &&& ~~~(255#64 <<< (8 * lane)) ||| byte.toBitVec.setWidth 64 <<< (8 * lane)⟩

theorem getLsbD_255 (place : Nat) : (255#64).getLsbD place = decide (place < 8) := by
  by_cases low : place < 8
  · interval_cases place <;> rfl
  · have high : 255 < 2 ^ place :=
      Nat.lt_of_lt_of_le (by decide) (Nat.pow_le_pow_right (by decide) (Nat.le_of_not_lt low))
    rw [decide_eq_false low]
    exact Nat.testBit_lt_two_pow high

theorem getLane_setLane (word : UInt64) (byte : UInt8) (inside : other < 8) :
    getLane (setLane word lane byte) other = if other = lane then byte else getLane word other := by
  apply UInt8.toBitVec_inj.mp
  apply BitVec.eq_of_getLsbD_eq
  intro place low
  have fits : 8 * other + place < 64 := by omega
  have small : place < 64 := by omega
  simp only [getLane, setLane, BitVec.getLsbD_extractLsb', BitVec.getLsbD_or, BitVec.getLsbD_and,
    BitVec.getLsbD_not, BitVec.getLsbD_shiftLeft, BitVec.getLsbD_setWidth, getLsbD_255, fits, low,
    decide_true, Bool.true_and]
  by_cases same : other = lane
  · subst same
    simp [low, small]
  rw [if_neg same]
  by_cases below : 8 * other + place < 8 * lane
  · simp [below, low]
  · have above : ¬ 8 * other + place - 8 * lane < 8 := by omega
    have outside : byte.toBitVec.getLsbD (8 * other + place - 8 * lane) = false :=
      BitVec.getLsbD_of_ge _ _ (Nat.le_of_not_lt above)
    simp [below, above, low, outside]

/-! ## Bytes -/

variable {memory : Nat → UInt64} {address other : Nat}

def byteAt (memory : Nat → UInt64) (address : Nat) : UInt8 :=
  getLane (memory (address / 8)) (address % 8)

def writeByte (memory : Nat → UInt64) (address : Nat) (byte : UInt8) : Nat → UInt64 :=
  Function.update memory (address / 8) (setLane (memory (address / 8)) (address % 8) byte)

def writeBytes (memory : Nat → UInt64) : Nat → List UInt8 → Nat → UInt64
  | _, [] => memory
  | address, byte :: rest => writeBytes (writeByte memory address byte) (address + 1) rest

theorem byteAt_writeByte (byte : UInt8) : byteAt (writeByte memory address byte) other =
    if other = address then byte else byteAt memory other := by
  have inside : other % 8 < 8 := Nat.mod_lt _ (by decide)
  unfold byteAt writeByte
  by_cases word : other / 8 = address / 8
  · rw [word, Function.update_self, getLane_setLane _ _ inside]
    by_cases same : other = address
    · rw [if_pos same, if_pos (by rw [same])]
    · rw [if_neg same, if_neg (by omega)]
  · rw [Function.update_of_ne word, if_neg]
    rintro rfl
    exact word rfl

theorem byteAt_writeBytes (bytes : List UInt8) : byteAt (writeBytes memory address bytes) other =
    if address ≤ other then (bytes[other - address]?).getD (byteAt memory other)
    else byteAt memory other := by
  induction bytes generalizing memory address with
  | nil => simp [writeBytes]
  | cons byte rest ih =>
    rw [writeBytes, ih, byteAt_writeByte]
    by_cases same : other = address
    · subst same
      rw [if_neg (by omega), if_pos rfl, if_pos (Nat.le_refl _), Nat.sub_self]
      rfl
    rw [if_neg same]
    by_cases later : address ≤ other
    · obtain ⟨offset, rfl⟩ : ∃ offset, other = address + 1 + offset :=
        ⟨other - (address + 1), by omega⟩
      rw [if_pos (by omega), if_pos later, Nat.add_sub_cancel_left,
        show address + 1 + offset - address = offset + 1 by omega, List.getElem?_cons_succ]
    · rw [if_neg (by omega), if_neg later]

theorem writeBytes_of_outside (outside : ∀ offset < bytes.length, (address + offset) / 8 ≠ word) :
    writeBytes memory address bytes word = memory word := by
  induction bytes generalizing memory address with
  | nil => rfl
  | cons byte rest ih =>
    have first : address / 8 ≠ word := outside 0 (Nat.succ_pos _)
    rw [writeBytes, ih, writeByte, Function.update_of_ne (Ne.symm first)]
    intro offset inside
    rw [Nat.add_assoc, Nat.add_comm 1]
    exact outside (offset + 1) (Nat.succ_lt_succ inside)

end WordMemory

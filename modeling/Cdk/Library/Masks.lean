import Mathlib.Data.List.Basic

/-!
# Sets of bits in a machine word

A 64-bit mask is read bit by bit: two masks are equal when they have the same
bits, and inclusion, written with machine operations as `left & !right == 0`,
is inclusion of the sets of bits.
-/

namespace Mask

def has (mask : UInt64) (bit : Nat) : Bool := mask.toBitVec.getLsbD bit

@[simp] theorem has_zero (bit : Nat) : has 0 bit = false := by
  simp [has]

@[simp] theorem has_and (left right : UInt64) (bit : Nat) :
    has (left &&& right) bit = (has left bit && has right bit) := by
  simp [has]

@[simp] theorem has_or (left right : UInt64) (bit : Nat) :
    has (left ||| right) bit = (has left bit || has right bit) := by
  simp [has]

theorem has_not (mask : UInt64) (bit : Nat) :
    has (~~~mask) bit = (decide (bit < 64) && !has mask bit) := by
  simp [has]

theorem lt_of_has (set : has mask bit) : bit < 64 :=
  BitVec.lt_of_getLsbD set

@[simp] theorem has_and_not (left right : UInt64) (bit : Nat) :
    has (left &&& ~~~right) bit = (has left bit && !has right bit) := by
  rw [has_and, has_not]
  cases set : has left bit with
  | false => rfl
  | true => simp [lt_of_has set]

theorem ext (same : ∀ bit, has left bit = has right bit) : left = right := by
  apply UInt64.toBitVec_inj.mp
  apply BitVec.eq_of_getLsbD_eq
  intro bit _
  exact same bit

theorem eq_zero_iff (mask : UInt64) : mask = 0 ↔ ∀ bit, has mask bit = false := by
  constructor
  · rintro rfl bit
    exact has_zero bit
  · intro none
    apply ext
    intro bit
    rw [none, has_zero]

theorem ne_zero_iff (mask : UInt64) : mask ≠ 0 ↔ ∃ bit, has mask bit := by
  rw [ne_eq, eq_zero_iff, not_forall]
  simp only [Bool.not_eq_false]

theorem has_one_shiftLeft {shift : UInt64} (small : shift.toNat < 64) (bit : Nat) :
    has (1 <<< shift) bit = decide (shift.toNat = bit) := by
  rw [has, ← BitVec.testBit_toNat, UInt64.toNat_toBitVec, UInt64.toNat_shiftLeft,
    Nat.mod_eq_of_lt small, UInt64.toNat_one, Nat.one_shiftLeft,
    Nat.mod_eq_of_lt (Nat.pow_lt_pow_right (by decide) small), Nat.testBit_two_pow]

theorem and_ne_zero_iff (single : ∀ bit, has word bit = decide (place = bit)) :
    mask &&& word ≠ 0 ↔ has mask place := by
  rw [ne_zero_iff]
  simp only [has_and, single, Bool.and_eq_true, decide_eq_true_eq, exists_eq_right']

theorem has_foldl_or (mask : α → UInt64) (list : List α) (first : UInt64) (bit : Nat) :
    has (list.foldl (fun union value => union ||| mask value) first) bit ↔
      has first bit ∨ ∃ value ∈ list, has (mask value) bit := by
  induction list generalizing first with
  | nil => simp
  | cons value rest ih =>
    rw [List.foldl_cons, ih]
    simp only [has_or, Bool.or_eq_true, List.mem_cons, exists_eq_or_imp, or_assoc]

/-- Inclusion as the machine tests it. -/
theorem and_not_eq_zero_iff (left right : UInt64) : left &&& ~~~right = 0 ↔
    ∀ bit, has left bit → has right bit := by
  rw [eq_zero_iff]
  refine forall_congr' fun bit => ?_
  rw [has_and_not]
  cases has left bit <;> cases has right bit <;> simp

end Mask

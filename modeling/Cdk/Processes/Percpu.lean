import Cdk.Library.Bounded

/-!
# Slots of the CPUs

A CPU finds its private state by a slot, and its slot by its APIC id in a table of 256 entries.
A larger id has no entry there, and its CPU takes slot 0.
-/

namespace Cdk.Percpu

/-- CPUs at most. -/
def maxCpus : Nat := 8

/-- The CPUs that the firmware lists, by APIC id. -/
structure CpuTopology where
  apicIds : BoundedVec UInt32 maxCpus
  distinct : apicIds.items.Nodup

/-- The mark of an empty entry, `u32::MAX`. -/
def empty : UInt32 := 0xffffffff

/-- The two tables of slots. -/
structure Slots where
  slotToApic : Nat → UInt32
  apicToSlot : Nat → UInt32

def Slots.blank : Slots := ⟨fun _ => empty, fun _ => empty⟩

/-- Enter a CPU. -/
def storeCpu (slots : Slots) : UInt32 × Nat → Slots
  | (apicId, slot) =>
    { slotToApic := Function.update slots.slotToApic slot apicId
      apicToSlot :=
        if apicId.toNat < 256 then
          Function.update slots.apicToSlot apicId.toNat (UInt32.ofNat slot)
        else slots.apicToSlot }

def initTopology (topology : CpuTopology) : Slots :=
  topology.apicIds.items.zipIdx.foldl storeCpu .blank

namespace Slots

variable (slots : Slots)

/-- The slot of a CPU. -/
def slotForApic (apicId : UInt32) : Option Nat :=
  if 256 ≤ apicId.toNat then none
  else
    let slot := slots.apicToSlot apicId.toNat
    if slot = empty then none else some slot.toNat

def apicForSlot (slot : Nat) : Option UInt32 :=
  if maxCpus ≤ slot then none
  else if slots.slotToApic slot = empty then none else some (slots.slotToApic slot)

/-- The slot that the CPU with this APIC id uses. -/
def thisCpu (apicId : UInt32) : Nat := min ((slots.slotForApic apicId).getD 0) (maxCpus - 1)

end Slots

/-- A later CPU changes neither the entry of this slot nor that of its id. -/
theorem entries_of_listed {ids : List UInt32} (distinct : ids.Nodup)
    (listed : ids[slot]? = some apicId) :
    (ids.zipIdx.foldl storeCpu .blank).slotToApic slot = apicId ∧ (apicId.toNat < 256 →
      (ids.zipIdx.foldl storeCpu .blank).apicToSlot apicId.toNat = UInt32.ofNat slot) := by
  induction ids using List.reverseRecOn with
  | nil => cases listed
  | append_singleton ids last ih =>
    obtain ⟨distinct, -, new⟩ := List.nodup_append.mp distinct
    simp only [List.zipIdx_append, List.foldl_append, List.zipIdx_singleton, List.foldl_cons,
      List.foldl_nil, storeCpu, Nat.zero_add]
    rw [List.getElem?_append] at listed
    split at listed
    · rename_i before
      obtain ⟨sameApic, sameSlot⟩ := ih distinct listed
      have other : apicId.toNat ≠ last.toNat := fun equal =>
        new _ (List.mem_of_getElem? listed) _ List.mem_cons_self (UInt32.toNat_inj.mp equal)
      rw [Function.update_of_ne (Nat.ne_of_lt before)]
      refine ⟨sameApic, fun small => ?_⟩
      split_ifs
      · rw [Function.update_of_ne other, sameSlot small]
      · exact sameSlot small
    · rename_i behind
      obtain ⟨first, rfl⟩ := List.getElem?_eq_some_iff.mp listed
      obtain rfl : slot = ids.length := by
        rw [List.length_singleton] at first
        omega
      simp +contextual

/-- The tables are inverse to each other on the listed CPUs if and only if all APIC ids are below
256, and then no two of these CPUs share a slot. -/
theorem slots_unique
    (topology : CpuTopology) :
    ((∀ slot apicId, topology.apicIds.items[slot]? = some apicId →
        (initTopology topology).slotForApic apicId = some slot ∧
        (initTopology topology).apicForSlot slot = some apicId) ↔
      ∀ apicId ∈ topology.apicIds.items, apicId.toNat < 256) ∧
    ((∀ apicId ∈ topology.apicIds.items, apicId.toNat < 256) →
      Set.InjOn (initTopology topology).thisCpu {apicId | apicId ∈ topology.apicIds.items}) := by
  have inverse : (∀ apicId ∈ topology.apicIds.items, apicId.toNat < 256) → ∀ slot apicId,
      topology.apicIds.items[slot]? = some apicId → slot < maxCpus ∧
        (initTopology topology).slotForApic apicId = some slot ∧
        (initTopology topology).apicForSlot slot = some apicId := by
    intro below slot apicId listed
    have small := below apicId (List.mem_of_getElem? listed)
    have within := (List.getElem?_eq_some_iff.mp listed).1.trans_le topology.apicIds.fits
    obtain ⟨isApic, isSlot⟩ := entries_of_listed topology.distinct listed
    have value : (UInt32.ofNat slot).toNat = slot :=
      UInt32.toNat_ofNat_of_lt' (within.trans (by decide))
    have filled : ∀ number : UInt32, number.toNat < 256 → number ≠ empty := by
      rintro _ low rfl
      exact absurd low (by decide)
    refine ⟨within, ?_, ?_⟩
    · rw [Slots.slotForApic, if_neg (Nat.not_le.mpr small), initTopology, isSlot small,
        if_neg (filled _ (value.trans_lt (within.trans (by decide : maxCpus < 256)))), value]
    · rw [Slots.apicForSlot, if_neg (Nat.not_le.mpr within), initTopology, isApic,
        if_neg (filled _ small)]
  refine ⟨⟨?_, fun below slot apicId listed => (inverse below slot apicId listed).2⟩, ?_⟩
  · intro both apicId present
    obtain ⟨slot, listed⟩ := List.getElem?_of_mem present
    by_contra large
    have entry := (both slot apicId listed).1
    rw [Slots.slotForApic, if_pos (Nat.le_of_not_lt large)] at entry
    cases entry
  · intro below left leftPresent right rightPresent same
    obtain ⟨leftSlot, leftListed⟩ := List.getElem?_of_mem leftPresent
    obtain ⟨rightSlot, rightListed⟩ := List.getElem?_of_mem rightPresent
    obtain ⟨leftWithin, isLeft, -⟩ := inverse below _ _ leftListed
    obtain ⟨rightWithin, isRight, -⟩ := inverse below _ _ rightListed
    simp only [Slots.thisCpu, isLeft, isRight, Option.getD_some] at same
    obtain rfl : leftSlot = rightSlot := by omega
    exact Option.some.inj (leftListed.symm.trans rightListed)

/-- The second CPU has an id that the table cannot hold, and takes the slot of the first one. -/
theorem large_id_shares_slot : (initTopology ⟨⟨[0, 256], by decide⟩, by decide⟩).thisCpu 256 =
    (initTopology ⟨⟨[0, 256], by decide⟩, by decide⟩).thisCpu 0 := by
  decide

end Cdk.Percpu

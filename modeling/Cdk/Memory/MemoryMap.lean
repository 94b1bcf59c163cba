import Cdk.Memory.Accounting

/-!
# What the memory map makes allocatable

The second pass of `init_from_regions` frees every frame in which a usable region
has a byte.  The first pass computes `max_addr + FRAME_SIZE - 1`, and that sum
overflows exactly when some region reaches the last frame of the address space.  A
build without overflow checks tracks no frame at all when a region reaches into it.
-/

namespace Cdk.Memory

open Bitmap

variable {region : Region} {regions : List Region} {frame : Nat}

namespace Region

/-- The address is in the region. -/
def Holds (region : Region) (address : Nat) : Prop :=
  region.base.toNat ≤ address ∧ address < region.base.toNat + region.len.toNat

/-- A byte of the region is in the frame. -/
def Touches (region : Region) (frame : Nat) : Prop :=
  0 < region.len.toNat ∧ region.base.toNat < (frame + 1) * frameSize ∧
    frame * frameSize < region.base.toNat + region.len.toNat

instance : DecidablePred region.Touches :=
  fun _ => inferInstanceAs (Decidable (_ ∧ _ ∧ _))

/-- The region ends so far below the end of the address space that its bounds can be
rounded up to frames. -/
def Bounded (region : Region) : Prop := region.base.toNat + region.len.toNat + frameSize < 2 ^ 64

theorem skipped_eq_false : region.skipped = false ↔ region.usable ∧ 0 < region.len.toNat := by
  rw [skipped, Bool.or_eq_false_iff, Bool.not_eq_false', beq_eq_false_iff_ne, ne_eq,
    ← UInt64.toNat_inj, Nat.pos_iff_ne_zero]
  rfl

theorem firstFrame_eq : region.firstFrame = region.base.toNat / frameSize := by
  rw [firstFrame, UInt64.toNat_div]
  rfl

section

variable (bounded : region.base.toNat + region.len.toNat < 2 ^ 64) (nonempty : 0 < region.len.toNat)
include bounded nonempty

theorem lastFrame_eq :
    region.lastFrame = (region.base.toNat + region.len.toNat - 1) / frameSize := by
  have sum : (region.base + region.len).toNat = region.base.toNat + region.len.toNat := by
    rw [UInt64.toNat_add, Nat.mod_eq_of_lt bounded]
  have positive : (1 : UInt64) ≤ region.base + region.len := by
    rw [UInt64.le_iff_toNat_le, sum]
    exact nonempty.trans_le (Nat.le_add_left _ _)
  rw [lastFrame, saturatingSub, if_pos positive, UInt64.toNat_div,
    UInt64.toNat_sub_of_le _ _ positive,
    sum]
  rfl

theorem touches_iff :
    region.Touches frame ↔ region.firstFrame ≤ frame ∧ frame ≤ region.lastFrame := by
  rw [Touches, firstFrame_eq, lastFrame_eq bounded nonempty, frameSize]
  omega

end

end Region

/-! ## The size of the tracked memory -/

theorem toNat_saturatingAdd (left right : UInt64) :
    (saturatingAdd left right).toNat = min (left.toNat + right.toNat) (2 ^ 64 - 1) := by
  rw [saturatingAdd]
  split_ifs with fits
  · rw [UInt64.toNat_add, Nat.mod_eq_of_lt fits]
    omega
  · change 2 ^ 64 - 1 = _
    omega

/-- The first pass finds the greatest end of a region. -/
theorem maxAddr_lt_iff {bound : Nat} (positive : 0 < bound) :
    (maxAddr regions).toNat < bound ↔ ∀ region ∈ regions,
      min (region.base.toNat + region.len.toNat) (2 ^ 64 - 1) < bound := by
  induction regions using List.reverseRecOn with
  | nil => simpa [maxAddr] using positive
  | append_singleton early region step =>
    rw [List.forall_mem_append, List.forall_mem_singleton, ← step, ← toNat_saturatingAdd, maxAddr,
      maxAddr, List.foldl_append, List.foldl_cons, List.foldl_nil]
    dsimp only
    split_ifs with higher
    · rw [UInt64.lt_iff_toNat_lt] at higher
      omega
    · rw [UInt64.lt_iff_toNat_lt] at higher
      omega

/-- The sums that `init_from_regions` computes without a check: the highest address
rounded up to frames, and the end of each region that is freed. -/
def initOverflows (regions : List Region) : Bool :=
  decide (2 ^ 64 ≤ (maxAddr regions).toNat + frameSize) ||
    regions.any fun region =>
      !region.skipped && decide (2 ^ 64 ≤ region.base.toNat + region.len.toNat)

theorem maxAddr_rounds_iff :
    (maxAddr regions).toNat + frameSize < 2 ^ 64 ↔ ∀ region ∈ regions, region.Bounded := by
  have split : (maxAddr regions).toNat + frameSize < 2 ^ 64 ↔
      (maxAddr regions).toNat < 2 ^ 64 - frameSize := by
    rw [frameSize]
    omega
  rw [split, maxAddr_lt_iff (by decide)]
  refine forall₂_congr fun region _ => ?_
  rw [Region.Bounded, frameSize]
  omega

theorem initOverflows_eq_false :
    initOverflows regions = false ↔ ∀ region ∈ regions, region.Bounded := by
  rw [initOverflows, Bool.or_eq_false_iff, decide_eq_false_iff_not, not_le, maxAddr_rounds_iff]
  refine and_iff_left_of_imp fun bounded => ?_
  rw [List.any_eq_false]
  intro region member
  have small := bounded region member
  rw [Region.Bounded] at small
  have noWrap : ¬ 2 ^ 64 ≤ region.base.toNat + region.len.toNat := by omega
  rw [decide_eq_false noWrap, Bool.and_false]
  exact Bool.false_ne_true

theorem framesFor_eq :
    framesFor regions = min (((maxAddr regions).toNat + 4095) % 2 ^ 64 / 4096) maxFrames := by
  have wrapped :
      (maxAddr regions + 4096 - 1).toNat = ((maxAddr regions).toNat + 4095) % 2 ^ 64 := by
    rw [UInt64.toNat_sub, UInt64.toNat_add, show (1 : UInt64).toNat = 1 from rfl,
      show (4096 : UInt64).toNat = 4096 from rfl]
    omega
  rw [framesFor, UInt64.toNat_div, wrapped]
  rfl

/-- Where no frame wraps round, `max_addr` is rounded up; otherwise no frame is tracked. -/
theorem framesFor_cases (regions : List Region) :
    ((∀ region ∈ regions, region.base.toNat + region.len.toNat + 4095 < 2 ^ 64) ∧
      framesFor regions = min (((maxAddr regions).toNat + 4095) / 4096) maxFrames) ∨
    framesFor regions = 0 := by
  rw [framesFor_eq]
  by_cases wraps : (maxAddr regions).toNat + 4095 < 2 ^ 64
  · refine .inl ⟨?_, by rw [Nat.mod_eq_of_lt wraps]⟩
    have ends := (@maxAddr_lt_iff regions (2 ^ 64 - 4095) (by decide)).mp (by omega)
    intro region member
    have below := ends region member
    omega
  · refine .inr ?_
    have below := (maxAddr regions).toNat_lt
    have none : ((maxAddr regions).toNat + 4095) % 2 ^ 64 / 4096 = 0 := by omega
    rw [none, Nat.zero_min]

/-! ## The frames that are free after the start -/

namespace FrameAllocator

/-- After the start exactly the tracked frames are free in which a usable region has a
byte. -/
theorem free_initFromRegions : (new.initFromRegions regions).Free frame ↔
    frame < framesFor regions ∧
      ∃ region ∈ regions, region.usable ∧ region.Touches frame := by
  rw [(accounted_initFromRegions regions).free_iff]
  refine isUsed_initFromRegions.trans (and_congr_right fun tracked => ?_)
  rcases framesFor_cases regions with ⟨noWrap, _⟩ | none
  · refine exists_congr fun region => and_congr_right fun member => ?_
    rw [Region.skipped_eq_false, and_assoc]
    refine and_congr_right fun _ => ?_
    have ends := noWrap region member
    constructor
    · rintro ⟨nonempty, inside⟩
      exact (Region.touches_iff (by omega) nonempty).mpr inside
    · intro touches
      exact ⟨touches.1, (Region.touches_iff (by omega) touches.1).mp touches⟩
  · rw [none] at tracked
    omega

/-- The frame is made of usable memory only: each of its bytes lies in some usable region
and none in an unusable one. -/
def FrameUsable (regions : List Region) (frame : Nat) : Prop :=
  (∀ address, address / frameSize = frame →
    ∃ region ∈ regions, region.usable ∧ region.Holds address) ∧
  ∀ region ∈ regions, region.usable = false →
    ∀ address, address / frameSize = frame → ¬ region.Holds address

theorem lt_framesFor (bounded : ∀ region ∈ regions, region.Bounded) (inside : frame < maxFrames)
    (member : region ∈ regions) (touches : region.Touches frame) : frame < framesFor regions := by
  have rounds := maxAddr_rounds_iff.mpr bounded
  rw [frameSize] at rounds
  have reaches : ¬ (maxAddr regions).toNat < region.base.toNat + region.len.toNat := by
    intro short
    have positive : 0 < region.base.toNat + region.len.toNat := by omega
    have ends := (maxAddr_lt_iff positive).mp short region member
    have small := bounded region member
    rw [Region.Bounded] at small
    omega
  have touched := touches.2.2
  rw [frameSize] at touched
  rw [framesFor_eq, Nat.mod_eq_of_lt (by omega), lt_min_iff]
  exact ⟨by omega, inside⟩

/-- `init_from_regions` computes no overflowing sum and frees only frames that are made of
usable memory exactly for the memory maps that stay clear of the last frame of the address
space and in which every frame below the capacity that has a byte in a usable region is
made of usable memory. -/
theorem init_frees_usable_frames_iff
    (regions : List Region) :
    (initOverflows regions = false ∧
      ∀ frame, (new.initFromRegions regions).Free frame → FrameUsable regions frame) ↔
    (∀ region ∈ regions, region.Bounded) ∧ ∀ frame < maxFrames,
        (∃ region ∈ regions, region.usable ∧ region.Touches frame) → FrameUsable regions frame := by
  rw [initOverflows_eq_false]
  refine and_congr_right fun bounded => ?_
  constructor
  · rintro onlyUsable frame inside ⟨region, member, usable, touches⟩
    apply onlyUsable
    rw [free_initFromRegions]
    exact ⟨lt_framesFor bounded inside member touches, region, member, usable, touches⟩
  · intro whole frame free
    obtain ⟨tracked, touched⟩ := free_initFromRegions.mp free
    exact whole frame (tracked.trans_le (min_le_right _ _)) touched

/-- A region in the last frame of the address space makes the rounding overflow; a usable
region of 100 bytes makes the whole frame free; and a usable region that overlaps an
unusable one makes the unusable frame free. -/
theorem init_frees_unusable_memory : initOverflows [⟨0xfffffffffffff000, 0x1000, false⟩] ∧
    ((new.initFromRegions [⟨0, 100, true⟩]).Free 0 ∧ ¬ FrameUsable [⟨0, 100, true⟩] 0) ∧
    (new.initFromRegions [⟨0, 4096, true⟩, ⟨0, 4096, false⟩]).Free 0 ∧
      ¬ FrameUsable [⟨0, 4096, true⟩, ⟨0, 4096, false⟩] 0 := by
  refine ⟨by decide, ⟨?_, ?_⟩, ?_, ?_⟩
  · rw [free_initFromRegions]
    decide
  · rintro ⟨covered, _⟩
    obtain ⟨region, member, _, holds⟩ := covered 4095 (by decide)
    cases List.mem_singleton.mp member
    exact absurd holds.2 (by decide)
  · rw [free_initFromRegions]
    decide
  · rintro ⟨_, clean⟩
    exact clean ⟨0, 4096, false⟩ (by decide) rfl 0 (by decide) ⟨by decide, by decide⟩

end FrameAllocator
end Cdk.Memory

import Cdk.Memory.FrameAllocator

/-!
# The books of the frame allocator

In the states that the allocator reaches, the counter of free frames is the number
of clear bits below `total_frames`, and every bit above is set.  Each call then does
what a set of free frames would do: a frame or the lowest run of frames leaves the
set, or one frame returns to it.
-/

namespace Cdk.Memory
namespace FrameAllocator

open Bitmap Run

variable (allocator : FrameAllocator) {regions : List Region} {frame : Nat}

/-- The frame exists and is not used. -/
def Free (frame : Nat) : Prop :=
  frame < allocator.totalFrames ∧ allocator.isUsed frame = false

instance : DecidablePred allocator.Free :=
  fun frame => inferInstanceAs (Decidable (frame < _ ∧ allocator.isUsed frame = false))

/-- So many frames from the start on are free. -/
def FreeRun (start count : Nat) : Prop :=
  ∀ offset < count, allocator.Free (start + offset)

/-- The counter agrees with the bitmap, and no bit above the tracked frames is clear. -/
structure Accounted : Prop where
  total_le : allocator.totalFrames ≤ maxFrames
  counted : allocator.freeFrames = clearBelow allocator.bitmap allocator.totalFrames
  above : ∀ frame, allocator.totalFrames ≤ frame → allocator.isUsed frame

variable {allocator}

theorem Accounted.free_iff (accounted : allocator.Accounted) :
    allocator.Free frame ↔ isSet allocator.bitmap frame = false := by
  constructor
  · exact And.right
  · intro notUsed
    refine ⟨?_, notUsed⟩
    by_contra beyond
    exact Bool.false_ne_true (notUsed.symm.trans (accounted.above frame (not_lt.mp beyond)))

/-! ## The memory map -/

theorem isSet_freeRegion (total : Nat) (bitmap : Nat → UInt64) (region : Region) :
    isSet (freeRegion total bitmap region) frame =
      (isSet bitmap frame && !decide (region.skipped = false ∧ frame < total ∧
        region.firstFrame ≤ frame ∧ frame ≤ region.lastFrame)) := by
  have fold : ∀ frames : List Nat, ∀ bitmap : Nat → UInt64, isSet (frames.foldl
        (fun bitmap frame => if frame < total then clear bitmap frame else bitmap) bitmap) frame =
        (isSet bitmap frame && !decide (frame < total ∧ frame ∈ frames)) := by
    intro frames
    induction frames with
    | nil => simp
    | cons first rest step =>
      intro bitmap
      rw [List.foldl_cons, step]
      by_cases here : first = frame
      · subst here
        by_cases tracked : first < total <;> simp [tracked]
      · have other : frame ≠ first := fun same => here same.symm
        by_cases tracked : first < total <;> simp [tracked, here, other]
  rw [freeRegion]
  split_ifs with skipped
  · simp [skipped]
  rw [fold]
  congr 2
  rw [decide_eq_decide, List.mem_range'_1]
  simp only [Bool.not_eq_true] at skipped
  simp only [skipped, true_and, and_congr_right_iff]
  intro _
  omega

/-- A frame is free after the start exactly when the second pass frees it for some
region. -/
theorem isUsed_initFromRegions : (new.initFromRegions regions).isUsed frame = false ↔
    frame < framesFor regions ∧ ∃ region ∈ regions, region.skipped = false ∧
      region.firstFrame ≤ frame ∧ frame ≤ region.lastFrame := by
  have fold : ∀ bitmap : Nat → UInt64,
      isSet (regions.foldl (freeRegion (framesFor regions)) bitmap) frame = false ↔
        isSet bitmap frame = false ∨ frame < framesFor regions ∧
          ∃ region ∈ regions, region.skipped = false ∧
            region.firstFrame ≤ frame ∧ frame ≤ region.lastFrame := by
    generalize framesFor regions = total
    induction regions with
    | nil => simp
    | cons region rest step =>
      intro bitmap
      rw [List.foldl_cons, step, isSet_freeRegion]
      simp only [Bool.and_eq_false_iff, Bool.not_eq_false', decide_eq_true_eq, List.mem_cons,
        exists_eq_or_imp]
      tauto
  change isSet (regions.foldl _ ((List.range (framesFor regions)).foldl set _)) frame = false ↔ _
  rw [fold, isSet_foldl_set]
  have allUsed : isSet new.bitmap frame := isSet_of_full rfl
  simp [allUsed]

theorem accounted_initFromRegions (regions : List Region) :
    (new.initFromRegions regions).Accounted where
  total_le := min_le_right _ _
  counted := countClear_eq _ _
  above frame beyond := by
    by_contra notUsed
    have tracked := (isUsed_initFromRegions.mp (Bool.not_eq_true _ ▸ notUsed)).1
    exact absurd tracked (not_lt.mpr beyond)

/-! ## The calls -/

theorem Accounted.take (accounted : allocator.Accounted) {frames : List Nat}
    (distinct : frames.Nodup) (free : ∀ frame ∈ frames, allocator.Free frame)
    (count : taken = frames.length) (reserved : Nat) : Accounted
      { bitmap := frames.foldl set allocator.bitmap
        totalFrames := allocator.totalFrames
        freeFrames := allocator.freeFrames - taken
        reservedFrames := reserved } where
  total_le := accounted.total_le
  counted := by
    have fewer := clearBelow_foldl_set distinct (fun frame member => (free frame member).1)
      (fun frame member => (free frame member).2)
    change allocator.freeFrames - taken =
      clearBelow (frames.foldl set allocator.bitmap) allocator.totalFrames
    rw [accounted.counted, count]
    omega
  above frame beyond := by
    rw [isUsed, isSet_foldl_set]
    exact Bool.or_eq_true_iff.mpr (.inl (accounted.above frame beyond))

/-- What the loop of `reserve_range` does: it sets the bits of all the frames, and counts
those that were clear. -/
theorem foldl_reserveFrame (frames : List Nat) (distinct : frames.Nodup)
    (bitmap : Nat → UInt64) (taken : Nat) : frames.foldl reserveFrame (bitmap, taken) =
      ((frames.filter fun frame => !isSet bitmap frame).foldl set bitmap,
        taken + (frames.filter fun frame => !isSet bitmap frame).length) := by
  induction frames generalizing bitmap taken with
  | nil => rfl
  | cons frame rest step =>
    obtain ⟨fresh, distinctRest⟩ := List.nodup_cons.mp distinct
    rw [List.foldl_cons, reserveFrame]
    split_ifs with used
    · rw [step distinctRest]
      simp [used]
    have same : (rest.filter fun other => !isSet (set bitmap frame) other) =
        rest.filter fun other => !isSet bitmap other := by
      apply List.filter_congr
      intro other member
      have apart : frame ≠ other := fun same => fresh (same ▸ member)
      simp [apart]
    rw [step distinctRest, same]
    simp [used, Nat.add_assoc, Nat.add_comm]

/-- The frames that a call of `reserve_range` takes out of service. -/
def newlyReserved (allocator : FrameAllocator) (first last : Nat) : List Nat :=
  (allocator.rangeFrames first last).filter fun frame => !allocator.isUsed frame

theorem mem_rangeFrames : frame ∈ allocator.rangeFrames first last ↔
    first / frameSize ≤ frame ∧ frame < (last + frameSize - 1) / frameSize ∧
      frame < allocator.totalFrames := by
  simp only [rangeFrames, List.mem_range'_1]
  omega

theorem mem_newlyReserved : frame ∈ allocator.newlyReserved first last ↔
    frame ∈ allocator.rangeFrames first last ∧ allocator.isUsed frame = false := by
  simp [newlyReserved]

theorem nodup_rangeFrames (first last : Nat) : (allocator.rangeFrames first last).Nodup :=
  List.nodup_range' ..

theorem nodup_newlyReserved (first last : Nat) : (allocator.newlyReserved first last).Nodup :=
  (nodup_rangeFrames first last).filter _

theorem reserveRange_eq (allocator : FrameAllocator) (first last : Nat) :
    allocator.reserveRange first last = ((allocator.newlyReserved first last).length,
        { bitmap := (allocator.newlyReserved first last).foldl set allocator.bitmap
          totalFrames := allocator.totalFrames
          freeFrames := allocator.freeFrames - (allocator.newlyReserved first last).length
          reservedFrames :=
            allocator.reservedFrames + (allocator.newlyReserved first last).length }) := by
  rw [reserveRange, foldl_reserveFrame _ (nodup_rangeFrames first last)]
  simp only [Nat.zero_add]
  rfl

theorem bitmapWords_mul : bitmapWords * 64 = maxFrames := by
  norm_num [bitmapWords, maxFrames]

section

variable (accounted : allocator.Accounted)
include accounted

/-- `alloc` hands out the lowest free frame, or there is none and nothing changes. -/
theorem Accounted.alloc_cases :
    (∃ frame, allocator.Free frame ∧ (∀ lower < frame, ¬ allocator.Free lower) ∧
      allocator.alloc = (.ok (frame * frameSize), { allocator with
          bitmap := set allocator.bitmap frame
          freeFrames := allocator.freeFrames - 1 })) ∨ (∀ frame, ¬ allocator.Free frame) ∧
      allocator.alloc = (.error .outOfMemory, allocator) := by
  unfold alloc
  cases search : lowestClear? allocator.bitmap bitmapWords with
  | none =>
    refine .inr ⟨?_, rfl⟩
    intro frame free
    have inside : frame < bitmapWords * 64 := by
      rw [bitmapWords_mul]
      exact free.1.trans_le accounted.total_le
    exact Bool.false_ne_true (free.2.symm.trans (lowestClear?_eq_none search inside))
  | some frame =>
    obtain ⟨_, clearHere, setBelow⟩ := lowestClear?_eq_some search
    have free := accounted.free_iff.mpr clearHere
    refine .inl ⟨frame, free, ?_, if_neg (not_le.mpr free.1)⟩
    intro lower below freeLower
    exact Bool.false_ne_true (freeLower.2.symm.trans (setBelow lower below))

theorem FreeRun.length_le (run : allocator.FreeRun start count) : count ≤ allocator.freeFrames := by
  have free : ∀ frame ∈ List.range' start count, allocator.Free frame := by
    intro frame member
    obtain ⟨offset, inside, rfl⟩ := List.mem_range'.mp member
    simpa using run offset inside
  have fewer := clearBelow_foldl_set (List.nodup_range' ..)
    (fun frame member => (free frame member).1)
    (fun frame member => (free frame member).2)
  rw [← accounted.counted, List.length_range'] at fewer
  omega

theorem Accounted.freeRun_iff :
    allocator.FreeRun start count ↔ ClearRun allocator.bitmap start count :=
  forall₂_congr fun _ _ => accounted.free_iff

/-- `alloc_contiguous` hands out the lowest free run, or it asks for nothing or there is
no run, and then nothing changes. -/
theorem Accounted.allocContiguous_cases (count : Nat) :
    (∃ start, 1 ≤ count ∧ allocator.FreeRun start count ∧
      (∀ lower < start, ¬ allocator.FreeRun lower count) ∧
      allocator.allocContiguous count = (.ok (start * frameSize), { allocator with
          bitmap := (List.range' start count).foldl set allocator.bitmap
          freeFrames := allocator.freeFrames - count })) ∨
    (1 ≤ count → ∀ start, ¬ allocator.FreeRun start count) ∧
      allocator.allocContiguous count = (.error .outOfMemory, allocator) := by
  rw [allocContiguous]
  split_ifs with empty tooMany
  · exact .inr ⟨fun positive => absurd empty (Nat.pos_iff_ne_zero.mp positive), rfl⟩
  · refine .inr ⟨fun _ start run => ?_, rfl⟩
    exact absurd (run.length_le accounted) (not_le.mpr tooMany)
  have positive : 1 ≤ count := Nat.pos_iff_ne_zero.mpr empty
  -- A run of tracked frames starts at most `count` frames before the end.
  have limited : ∀ start, allocator.FreeRun start count →
      start ≤ allocator.totalFrames - count := by
    intro start run
    have last := (run (count - 1) (by omega)).1
    omega
  simp only [accounted.freeRun_iff] at limited ⊢
  cases search : clearRun? allocator.bitmap count (allocator.totalFrames - count)
    (allocator.totalFrames - count + 1) 0 with
  | none =>
    refine .inr ⟨fun _ start run => ?_, rfl⟩
    exact clearRun?_eq_none (by omega) search (Nat.zero_le start) (limited start run) run
  | some start =>
    obtain ⟨_, _, run, lowest⟩ := clearRun?_eq_some search
    refine .inl ⟨start, positive, run, fun lower => lowest lower (Nat.zero_le lower), ?_⟩
    rw [List.range'_eq_map_range, List.foldl_map]

end

variable (allocator)

/-- `free` returns a used frame, or nothing changes. -/
theorem free_cases (address : Nat) :
    (address / frameSize < allocator.totalFrames ∧ allocator.isUsed (address / frameSize) ∧
      allocator.free address = (.ok (), { allocator with
          bitmap := clear allocator.bitmap (address / frameSize)
          freeFrames := allocator.freeFrames + 1 })) ∨
    (∃ error, allocator.free address = (.error error, allocator)) := by
  rw [free]
  split_ifs with beyond notUsed
  · exact .inr ⟨_, rfl⟩
  · exact .inr ⟨_, rfl⟩
  · exact .inl ⟨not_le.mp beyond, by simpa using notUsed, rfl⟩

/-! ## Sequences of calls -/

/-- A call of the allocator. -/
inductive Call where
  | reserveRange (first last : Nat)
  | alloc
  | allocContiguous (count : Nat)
  | free (address : Nat)
  deriving Repr, DecidableEq

/-- One call. -/
def step : Call → FrameAllocator
  | .reserveRange first last => (allocator.reserveRange first last).2
  | .alloc => allocator.alloc.2
  | .allocContiguous count => (allocator.allocContiguous count).2
  | .free address => (allocator.free address).2

/-- The call hands out the frame. -/
def Hands (frame : Nat) : Call → Prop
  | .alloc => allocator.alloc.1 = .ok (frame * frameSize)
  | .allocContiguous count =>
    ∃ start, (allocator.allocContiguous count).1 = .ok (start * frameSize) ∧
      start ≤ frame ∧ frame < start + count
  | .reserveRange _ _ | .free _ => False

/-- The call frees the frame. -/
def Releases (frame : Nat) : Call → Prop
  | .free address => (allocator.free address).1 = .ok () ∧ address / frameSize = frame
  | _ => False

variable {allocator}

theorem Accounted.step (accounted : allocator.Accounted) (call : Call) :
    (allocator.step call).Accounted := by
  cases call with
  | reserveRange first last =>
    rw [FrameAllocator.step, reserveRange_eq]
    apply accounted.take (nodup_newlyReserved first last) _ rfl
    intro frame member
    obtain ⟨inRange, notUsed⟩ := mem_newlyReserved.mp member
    exact ⟨(mem_rangeFrames.mp inRange).2.2, notUsed⟩
  | alloc =>
    rw [FrameAllocator.step]
    rcases accounted.alloc_cases with ⟨frame, free, _, eq⟩ | ⟨_, eq⟩
    · rw [eq]
      exact accounted.take (List.nodup_singleton frame) (by simpa using free) rfl _
    · rw [eq]
      exact accounted
  | allocContiguous count =>
    rw [FrameAllocator.step]
    rcases accounted.allocContiguous_cases count with ⟨start, _, run, _, eq⟩ | ⟨_, eq⟩
    · rw [eq]
      apply accounted.take (List.nodup_range' ..) _ (List.length_range' ..).symm
      intro frame member
      obtain ⟨offset, inside, rfl⟩ := List.mem_range'.mp member
      simpa using run offset inside
    · rw [eq]
      exact accounted
  | free address =>
    rw [FrameAllocator.step]
    rcases allocator.free_cases address with ⟨tracked, used, eq⟩ | ⟨_, eq⟩
    · rw [eq]
      refine ⟨accounted.total_le, ?_, ?_⟩
      · change allocator.freeFrames + 1 =
          clearBelow (clear allocator.bitmap _) allocator.totalFrames
        rw [clearBelow_clear tracked used, accounted.counted]
      · intro frame beyond
        change isSet (clear allocator.bitmap _) frame
        rw [isSet_clear, decide_eq_false (tracked.trans_le beyond).ne, Bool.not_false,
          Bool.and_true]
        exact accounted.above frame beyond
    · rw [eq]
      exact accounted

theorem ok_mul_frameSize_inj :
    (.ok (left * frameSize) : Except AllocError Nat) = .ok (right * frameSize) ↔ left = right := by
  rw [Except.ok.injEq]
  exact Nat.mul_left_inj (by decide)

theorem Accounted.hands (accounted : allocator.Accounted) (hands : allocator.Hands frame call) :
    allocator.Free frame ∧ (allocator.step call).isUsed frame := by
  cases call with
  | reserveRange | free => exact hands.elim
  | alloc =>
    change allocator.alloc.1 = _ at hands
    rw [FrameAllocator.step]
    rcases accounted.alloc_cases with ⟨lowest, free, _, eq⟩ | ⟨_, eq⟩
    · rw [eq] at hands ⊢
      cases ok_mul_frameSize_inj.mp hands
      refine ⟨free, ?_⟩
      rw [isUsed, isSet_set, decide_eq_true rfl, Bool.or_true]
    · rw [eq] at hands
      cases hands
  | allocContiguous count =>
    obtain ⟨start, result, lower, upper⟩ := hands
    rw [FrameAllocator.step]
    rcases accounted.allocContiguous_cases count with ⟨lowest, _, run, _, eq⟩ | ⟨_, eq⟩
    · rw [eq] at result ⊢
      cases ok_mul_frameSize_inj.mp result
      have free := run (frame - start) (by omega)
      rw [Nat.add_sub_cancel' lower] at free
      refine ⟨free, ?_⟩
      rw [isUsed, isSet_foldl_set, decide_eq_true (List.mem_range'_1.mpr ⟨lower, upper⟩),
        Bool.or_true]
    · rw [eq] at result
      cases result

theorem Accounted.used_step (accounted : allocator.Accounted) (used : allocator.isUsed frame)
    (kept : ¬ allocator.Releases frame call) : (allocator.step call).isUsed frame := by
  rw [isUsed] at used
  cases call with
  | reserveRange first last =>
    rw [FrameAllocator.step, reserveRange_eq, isUsed, isSet_foldl_set, used, Bool.true_or]
  | alloc =>
    rw [FrameAllocator.step]
    rcases accounted.alloc_cases with ⟨lowest, _, _, eq⟩ | ⟨_, eq⟩
    · rw [eq, isUsed, isSet_set, used, Bool.true_or]
    · rw [eq]
      exact used
  | allocContiguous count =>
    rw [FrameAllocator.step]
    rcases accounted.allocContiguous_cases count with ⟨lowest, _, _, _, eq⟩ | ⟨_, eq⟩
    · rw [eq, isUsed, isSet_foldl_set, used, Bool.true_or]
    · rw [eq]
      exact used
  | free address =>
    rw [FrameAllocator.step]
    rcases allocator.free_cases address with ⟨_, _, eq⟩ | ⟨_, eq⟩
    · have apart : address / frameSize ≠ frame := fun same => kept ⟨by rw [eq], same⟩
      rw [eq, isUsed, isSet_clear, used, decide_eq_false apart, Bool.not_false, Bool.and_true]
    · rw [eq]
      exact used

def reached (regions : List Region) (calls : List Call) : FrameAllocator :=
  after step (new.initFromRegions regions) calls

theorem accounted_after (calls : List Call) (accounted : allocator.Accounted) :
    (after FrameAllocator.step allocator calls).Accounted :=
  always calls accounted fun _ call accounted => accounted.step call

theorem accounted_reached (regions : List Region) (calls : List Call) :
    (reached regions calls).Accounted :=
  accounted_after calls (accounted_initFromRegions regions)

section

variable (accounted : allocator.Accounted)
include accounted

theorem Accounted.used_after (used : allocator.isUsed frame)
    (kept : Run.Along FrameAllocator.step (fun allocator call => ¬ allocator.Releases frame call)
      allocator calls) :
    (after FrameAllocator.step allocator calls).isUsed frame := by
  have both := @invariant _ _ FrameAllocator.step
    (fun allocator call => ¬ allocator.Releases frame call)
    (fun allocator => allocator.Accounted ∧ allocator.isUsed frame) allocator calls
    ⟨accounted, used⟩
    (fun _ call holds kept => ⟨holds.1.step call, holds.1.used_step holds.2 kept⟩) kept
  exact both.2

theorem Accounted.alloc_ok_iff :
    (∃ base, allocator.alloc.1 = .ok base) ↔ 0 < allocator.freeFrames := by
  rw [accounted.counted, clearBelow_pos_iff]
  change _ ↔ ∃ frame, allocator.Free frame
  rcases accounted.alloc_cases with ⟨frame, free, _, eq⟩ | ⟨nothing, eq⟩
  · exact iff_of_true ⟨_, by rw [eq]⟩ ⟨frame, free⟩
  · refine iff_of_false ?_ fun ⟨frame, free⟩ => nothing frame free
    rw [eq]
    rintro ⟨base, result⟩
    cases result

theorem Accounted.allocContiguous_ok_iff (count : Nat) :
    (∃ base, (allocator.allocContiguous count).1 = .ok base) ↔
      1 ≤ count ∧ ∃ start, allocator.FreeRun start count := by
  rcases accounted.allocContiguous_cases count with ⟨start, positive, run, _, eq⟩ | ⟨nothing, eq⟩
  · exact iff_of_true ⟨_, by rw [eq]⟩ ⟨positive, start, run⟩
  · refine iff_of_false ?_ fun ⟨positive, start, run⟩ => nothing positive start run
    rw [eq]
    rintro ⟨base, result⟩
    cases result

end

/-- The free frames of the allocator that a memory map and calls lead to, as a set: the
counter is its size, `alloc` returns its least element exactly when there is one, and
`alloc_contiguous` the least run in it exactly when it asks for one and there is one; a
failed call changes nothing.  A frame that a call returns was free, and no later call
returns it before it is freed. -/
theorem frames_accounted_and_exclusive
    (regions : List Region)
    (calls : List Call) :
    let allocator := reached regions calls
    allocator.freeFrames =
      Nat.count (fun frame => allocator.isUsed frame = false) allocator.totalFrames ∧
    ((∃ base, allocator.alloc.1 = .ok base) ↔ 0 < allocator.freeFrames) ∧
    (∀ base, allocator.alloc.1 = .ok base →
      ∃ frame, base = frame * frameSize ∧ allocator.Free frame ∧
        ∀ lower < frame, ¬ allocator.Free lower) ∧
    (∀ error, allocator.alloc.1 = .error error → allocator.alloc.2 = allocator) ∧
    (∀ count, (∃ base, (allocator.allocContiguous count).1 = .ok base) ↔
      1 ≤ count ∧ ∃ start, allocator.FreeRun start count) ∧
    (∀ count base, (allocator.allocContiguous count).1 = .ok base →
      ∃ start, base = start * frameSize ∧ allocator.FreeRun start count ∧
        ∀ lower < start, ¬ allocator.FreeRun lower count) ∧
    (∀ count error, (allocator.allocContiguous count).1 = .error error →
      (allocator.allocContiguous count).2 = allocator) ∧
    (∀ frame call, allocator.Hands frame call → allocator.Free frame ∧ ∀ later next,
        Run.Along step (fun state call => ¬ state.Releases frame call) (allocator.step call) later →
        ¬ (after step (allocator.step call) later).Hands frame next) := by
  intro allocator
  have accounted : allocator.Accounted := accounted_reached regions calls
  refine ⟨accounted.counted, accounted.alloc_ok_iff, ?_, ?_,
    accounted.allocContiguous_ok_iff, ?_, ?_, ?_⟩
  · intro base result
    rcases accounted.alloc_cases with ⟨frame, free, lowest, eq⟩ | ⟨_, eq⟩
    · rw [eq] at result
      cases result
      exact ⟨frame, rfl, free, lowest⟩
    · rw [eq] at result
      cases result
  · intro error result
    rcases accounted.alloc_cases with ⟨frame, _, _, eq⟩ | ⟨_, eq⟩
    · rw [eq] at result
      cases result
    · rw [eq]
  · intro count base result
    rcases accounted.allocContiguous_cases count with ⟨start, _, run, lowest, eq⟩ | ⟨_, eq⟩
    · rw [eq] at result
      cases result
      exact ⟨start, rfl, run, lowest⟩
    · rw [eq] at result
      cases result
  · intro count error result
    rcases accounted.allocContiguous_cases count with ⟨_, _, _, _, eq⟩ | ⟨_, eq⟩
    · rw [eq] at result
      cases result
    · rw [eq]
  · intro frame call hands
    obtain ⟨free, used⟩ := accounted.hands hands
    refine ⟨free, ?_⟩
    intro later next kept again
    have next_accounted := accounted_after later (accounted.step call)
    have stillUsed := (accounted.step call).used_after used kept
    have freeAgain := (next_accounted.hands again).1
    exact Bool.false_ne_true (freeAgain.2.symm.trans stillUsed)

end FrameAllocator
end Cdk.Memory

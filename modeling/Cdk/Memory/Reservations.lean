import Cdk.Memory.MemoryMap

/-!
# Reserved frames

The bitmap does not tell a reserved frame from an allocated one; a ledger beside the allocator
does.  `free` consults no such record, so a reservation lasts exactly as long as nobody frees a
reserved frame.
-/

namespace Cdk.Memory

open Bitmap FrameAllocator

variable {regions : List Region} {frame : Nat}

/-- The allocator and the history of its frames. -/
structure Ledger where
  allocator : FrameAllocator
  reserved : Nat → Bool
  allocated : Nat → Bool

namespace Ledger

variable {ledger : Ledger}

/-- After reading the memory map. -/
def start (regions : List Region) : Ledger where
  allocator := new.initFromRegions regions
  reserved := fun frame =>
    !decide (∃ region ∈ regions, region.usable ∧ region.Touches frame)
  allocated := fun _ => false

/-- A call of `reserve_range` covers a frame. -/
def covers (first last frame : Nat) : Bool :=
  decide (first / frameSize ≤ frame ∧ frame < (last + frameSize - 1) / frameSize)

/-- The result covers the frame. -/
def handedOut (result : Except AllocError Nat) (count frame : Nat) : Bool :=
  match result with
  | .ok base => decide (base / frameSize ≤ frame ∧ frame < base / frameSize + count)
  | .error _ => false

/-- One call. -/
def step (ledger : Ledger) (call : Call) : Ledger where
  allocator := ledger.allocator.step call
  reserved := fun frame =>
    match call with
    | .reserveRange first last => ledger.reserved frame || covers first last frame
    | _ => ledger.reserved frame
  allocated := fun frame =>
    match call with
    | .alloc => ledger.allocated frame || handedOut ledger.allocator.alloc.1 1 frame
    | .allocContiguous count =>
      ledger.allocated frame || handedOut (ledger.allocator.allocContiguous count).1 count frame
    | .free address =>
      match (ledger.allocator.free address).1 with
      | .ok () => ledger.allocated frame && !decide (address / frameSize = frame)
      | .error _ => ledger.allocated frame
    | .reserveRange _ _ => ledger.allocated frame

def inService (ledger : Ledger) : Finset Nat :=
  (Finset.range ledger.allocator.totalFrames).filter fun frame =>
    ledger.allocator.Free frame ∨ ledger.allocated frame

/-- The call frees no reserved frame. -/
def FreesNoReserved (ledger : Ledger) : Call → Prop
  | .free address =>
    (ledger.allocator.free address).1 = .ok () → ledger.reserved (address / frameSize) = false
  | _ => True

/-! ## The invariant -/

/-- The bitmap and the ledger agree on the frame. -/
def Fine (ledger : Ledger) (frame : Nat) : Prop :=
  if frame < ledger.allocator.totalFrames then
    ledger.allocator.isUsed frame = (ledger.reserved frame || ledger.allocated frame)
  else ledger.allocated frame = false

/-- Every frame is fine, and the counter of reserved frames counts the frames that are out of
service. -/
structure Kept (ledger : Ledger) : Prop where
  accounted : ledger.allocator.Accounted
  fine : ∀ frame, ledger.Fine frame
  counted : ledger.allocator.reservedFrames + ledger.inService.card = ledger.allocator.totalFrames

theorem mem_inService : frame ∈ ledger.inService ↔ frame < ledger.allocator.totalFrames ∧
    (ledger.allocator.Free frame ∨ ledger.allocated frame) := by
  rw [inService, Finset.mem_filter, Finset.mem_range]

theorem Kept.used_iff (kept : ledger.Kept) (tracked : frame < ledger.allocator.totalFrames) :
    ledger.allocator.isUsed frame = (ledger.reserved frame || ledger.allocated frame) := by
  simpa only [Fine, if_pos tracked] using kept.fine frame

theorem Kept.of_free (kept : ledger.Kept) (free : ledger.allocator.Free frame) :
    ledger.reserved frame = false ∧ ledger.allocated frame = false := by
  rw [← Bool.or_eq_false_iff, ← kept.used_iff free.1]
  exact free.2

theorem kept_start (regions : List Region) : (start regions).Kept where
  accounted := accounted_initFromRegions regions
  fine frame := by
    unfold Fine
    split
    · rename_i tracked
      have clear : (new.initFromRegions regions).isUsed frame = false ↔
          ∃ region ∈ regions, region.usable ∧ region.Touches frame :=
        ⟨fun clear => (free_initFromRegions.mp ⟨tracked, clear⟩).2,
          fun touched => (free_initFromRegions.mpr ⟨tracked, touched⟩).2⟩
      by_cases touched : ∃ region ∈ regions, region.usable ∧ region.Touches frame
      · simpa [start, touched] using clear
      · simpa [start, touched] using clear
    · rfl
  counted := by
    have same : (start regions).inService.card = (new.initFromRegions regions).freeFrames := by
      rw [(accounted_initFromRegions regions).counted, clearBelow, Nat.count_eq_card_filter_range]
      congr 1
      ext frame
      rw [mem_inService, Finset.mem_filter, Finset.mem_range]
      simp [start, (accounted_initFromRegions regions).free_iff]
    rw [same]
    change framesFor regions - _ + _ = framesFor regions
    have within : (new.initFromRegions regions).freeFrames ≤ framesFor regions := by
      rw [(accounted_initFromRegions regions).counted]
      exact Nat.count_le _
    exact Nat.sub_add_cancel within

/-! ## Frames that change hands -/

/-- The two ledgers differ in frames that are free in one and allocated in the other. -/
structure Handed (before after : Ledger) (frames : List Nat) : Prop where
  total : after.allocator.totalFrames = before.allocator.totalFrames
  counter : after.allocator.reservedFrames = before.allocator.reservedFrames
  reserved : after.reserved = before.reserved
  free : ∀ frame ∈ frames, before.allocator.Free frame ∧
    before.reserved frame = false ∧ before.allocated frame = false
  used : ∀ frame, after.allocator.isUsed frame =
    (before.allocator.isUsed frame || decide (frame ∈ frames))
  allocated : ∀ frame, after.allocated frame = (before.allocated frame || decide (frame ∈ frames))

section

variable {before after : Ledger} {frames : List Nat}

variable (handed : Handed before after frames)
include handed

theorem Handed.fine_iff (frame : Nat) : before.Fine frame ↔ after.Fine frame := by
  by_cases listed : frame ∈ frames
  · obtain ⟨⟨tracked, notUsed⟩, notReserved, notAllocated⟩ := handed.free frame listed
    simp [Fine, handed.total, tracked, handed.used, handed.allocated, handed.reserved, listed,
      notUsed, notReserved, notAllocated]
  · simp [Fine, handed.total, handed.used, handed.allocated, handed.reserved, listed]

theorem Handed.inService_eq : after.inService = before.inService := by
  ext frame
  rw [mem_inService, mem_inService, handed.total]
  refine and_congr_right fun tracked => ?_
  by_cases listed : frame ∈ frames
  · simp [handed.allocated, listed, (handed.free frame listed).1]
  · simp [FrameAllocator.Free, handed.total, handed.used, handed.allocated, listed]

theorem Handed.kept_iff (accounted : before.allocator.Accounted ↔ after.allocator.Accounted) :
    before.Kept ↔ after.Kept := by
  constructor
  · intro kept
    refine ⟨accounted.mp kept.accounted, fun frame => (handed.fine_iff frame).mp (kept.fine frame),
      ?_⟩
    rw [handed.inService_eq, handed.counter, handed.total]
    exact kept.counted
  · intro kept
    refine ⟨accounted.mpr kept.accounted,
      fun frame => (handed.fine_iff frame).mpr (kept.fine frame), ?_⟩
    rw [← handed.inService_eq, ← handed.counter, ← handed.total]
    exact kept.counted

end

theorem handedOut_ok (start count frame : Nat) :
    handedOut (.ok (start * frameSize)) count frame = decide (frame ∈ List.range' start count) := by
  rw [handedOut, Nat.mul_div_cancel _ (by decide)]
  simp only [List.mem_range'_1]

theorem Kept.unchanged (kept : ledger.Kept) {next : Ledger}
    (allocator : next.allocator = ledger.allocator) (reserved : next.reserved = ledger.reserved)
    (allocated : next.allocated = ledger.allocated) : next.Kept := by
  cases next
  cases allocator
  cases reserved
  cases allocated
  exact kept

theorem Kept.alloc (kept : ledger.Kept) : (ledger.step .alloc).Kept := by
  have accounted := kept.accounted.step .alloc
  rcases kept.accounted.alloc_cases with ⟨lowest, free, _, eq⟩ | ⟨_, eq⟩
  · have handed : Handed ledger (ledger.step .alloc) (List.range' lowest 1) := by
      refine ⟨by simp [step, FrameAllocator.step, eq], by simp [step, FrameAllocator.step, eq], rfl,
        ?_, ?_, ?_⟩
      · intro frame member
        cases List.mem_singleton.mp member
        exact ⟨free, kept.of_free free⟩
      · intro frame
        simp [step, FrameAllocator.step, eq, isUsed, eq_comm]
      · intro frame
        simp only [step, eq, handedOut_ok]
    exact (handed.kept_iff (iff_of_true kept.accounted accounted)).mp kept
  · apply kept.unchanged
    all_goals simp [step, FrameAllocator.step, eq, handedOut]

theorem Kept.allocContiguous (kept : ledger.Kept) (count : Nat) :
    (ledger.step (.allocContiguous count)).Kept := by
  have accounted := kept.accounted.step (.allocContiguous count)
  rcases kept.accounted.allocContiguous_cases count with ⟨start, _, run, _, eq⟩ | ⟨_, eq⟩
  · have handed : Handed ledger (ledger.step (.allocContiguous count))
        (List.range' start count) := by
      refine ⟨by simp [step, FrameAllocator.step, eq], by simp [step, FrameAllocator.step, eq], rfl,
        ?_, ?_, ?_⟩
      · intro frame member
        obtain ⟨offset, inside, rfl⟩ := List.mem_range'.mp member
        have free := run offset inside
        rw [Nat.one_mul]
        exact ⟨free, kept.of_free free⟩
      · intro frame
        simp only [step, FrameAllocator.step, eq, isUsed, isSet_foldl_set]
      · intro frame
        simp only [step, eq, handedOut_ok]
    exact (handed.kept_iff (iff_of_true kept.accounted accounted)).mp kept
  · apply kept.unchanged
    all_goals simp [step, FrameAllocator.step, eq, handedOut]

theorem Kept.free (kept : ledger.Kept) (address : Nat)
    (allowed : ledger.FreesNoReserved (.free address)) : (ledger.step (.free address)).Kept := by
  have accounted := kept.accounted.step (.free address)
  rcases ledger.allocator.free_cases address with ⟨tracked, used, eq⟩ | ⟨error, eq⟩
  · have notReserved : ledger.reserved (address / frameSize) = false := allowed (by rw [eq])
    have wasAllocated : ledger.allocated (address / frameSize) := by
      simpa [used, notReserved] using (kept.used_iff tracked).symm
    have handed : Handed (ledger.step (.free address)) ledger [address / frameSize] := by
      refine ⟨by simp [step, FrameAllocator.step, eq], by simp [step, FrameAllocator.step, eq], rfl,
        ?_, ?_, ?_⟩
      · intro frame member
        cases List.mem_singleton.mp member
        refine ⟨?_, notReserved, by simp [step, eq]⟩
        simp [FrameAllocator.Free, step, FrameAllocator.step, eq, isUsed, tracked]
      · intro frame
        by_cases here : address / frameSize = frame
        · simp [← here, used]
        · simp [step, FrameAllocator.step, eq, isUsed, here, Ne.symm here]
      · intro frame
        by_cases here : address / frameSize = frame
        · simp [← here, wasAllocated]
        · simp [step, eq, here, Ne.symm here]
    exact (handed.kept_iff (iff_of_true accounted kept.accounted)).mpr kept
  · apply kept.unchanged
    all_goals simp [step, FrameAllocator.step, eq]

/-! ## Frames that are reserved -/

theorem mem_rangeFrames_iff_covers : frame ∈ ledger.allocator.rangeFrames first last ↔
    covers first last frame ∧ frame < ledger.allocator.totalFrames := by
  rw [mem_rangeFrames, covers, decide_eq_true_eq, and_assoc]

/-- The frames that `reserve_range` takes leave the service, and the counter counts them. -/
theorem Kept.reserveRange (kept : ledger.Kept) (first last : Nat) :
    (ledger.step (.reserveRange first last)).Kept := by
  have used : ∀ frame, (ledger.step (.reserveRange first last)).allocator.isUsed frame =
      (ledger.allocator.isUsed frame ||
        decide (frame ∈ ledger.allocator.newlyReserved first last)) := by
    intro frame
    simp only [step, FrameAllocator.step, reserveRange_eq, isUsed, isSet_foldl_set]
  have total : (ledger.step (.reserveRange first last)).allocator.totalFrames =
      ledger.allocator.totalFrames := by
    simp [step, FrameAllocator.step, reserveRange_eq]
  refine ⟨kept.accounted.step (.reserveRange first last), ?_, ?_⟩
  · intro frame
    have fine := kept.fine frame
    rw [Fine] at fine ⊢
    rw [total, used]
    split
    · rename_i tracked
      rw [if_pos tracked] at fine
      change _ = (ledger.reserved frame || covers first last frame || ledger.allocated frame)
      simp only [mem_newlyReserved, mem_rangeFrames_iff_covers, tracked, and_true]
      cases covered : covers first last frame <;> cases isUsed : ledger.allocator.isUsed frame <;>
        simp_all
    · rename_i untracked
      rw [if_neg untracked] at fine
      exact fine
  · have service : (ledger.step (.reserveRange first last)).inService =
        ledger.inService \ (ledger.allocator.newlyReserved first last).toFinset := by
      ext frame
      rw [Finset.mem_sdiff, mem_inService, mem_inService, total, List.mem_toFinset, and_assoc]
      refine and_congr_right fun tracked => ?_
      change (_ ∨ ledger.allocated frame) ↔ _
      have isUsed := kept.used_iff tracked
      simp only [FrameAllocator.Free, total, used, tracked, true_and, mem_newlyReserved]
      cases allocated : ledger.allocated frame <;> simp_all
    have within : (ledger.allocator.newlyReserved first last).toFinset ⊆ ledger.inService := by
      intro frame member
      obtain ⟨inRange, notUsed⟩ := mem_newlyReserved.mp (List.mem_toFinset.mp member)
      have tracked := (mem_rangeFrames.mp inRange).2.2
      exact mem_inService.mpr ⟨tracked, .inl ⟨tracked, notUsed⟩⟩
    have fewer := Finset.card_sdiff_add_card_eq_card within
    rw [List.toFinset_card_of_nodup (nodup_newlyReserved first last)] at fewer
    have before := kept.counted
    have counter : (ledger.step (.reserveRange first last)).allocator.reservedFrames =
        ledger.allocator.reservedFrames + (ledger.allocator.newlyReserved first last).length := by
      simp [step, FrameAllocator.step, reserveRange_eq]
    rw [counter, service, total]
    omega

theorem Kept.step (kept : ledger.Kept) (call : Call) (allowed : ledger.FreesNoReserved call) :
    (ledger.step call).Kept := by
  cases call with
  | reserveRange first last => exact kept.reserveRange first last
  | alloc => exact kept.alloc
  | allocContiguous count => exact kept.allocContiguous count
  | free address => exact kept.free address allowed

/-- As long as no call of `free` releases a reserved frame, no frame that was outside every
usable region or that a `reserve_range` covered is returned by an allocation, and
`total_frames - reserved_frames` is the number of frames that are free or allocated. -/
theorem reserved_never_handed_out
    (regions : List Region)
    (calls : List Call)
    (allowed : Run.Along step FreesNoReserved (start regions) calls) :
    let ledger := Run.after step (start regions) calls
    (∀ frame, ledger.reserved frame → ∀ call, ¬ ledger.allocator.Hands frame call) ∧
    ledger.allocator.totalFrames - ledger.allocator.reservedFrames = ledger.inService.card := by
  intro ledger
  have kept : ledger.Kept :=
    Run.invariant (kept_start regions) (fun _ call kept allowed => kept.step call allowed) allowed
  constructor
  · intro frame isReserved call hands
    have notReserved := (kept.of_free (kept.accounted.hands hands).1).1
    exact Bool.false_ne_true (notReserved.symm.trans isReserved)
  · have counted := kept.counted
    omega

/-- A run of the condition: the frame that is freed was allocated and never reserved. -/
theorem reserved_never_handed_out_sample : Run.Along step FreesNoReserved (start [⟨0, 8192, true⟩])
    [.reserveRange 0 4096, .alloc, .free 4096] ∧ (Run.after step (start [⟨0, 8192, true⟩])
    [.reserveRange 0 4096, .alloc, .free 4096]).inService.card = 1 := by
  have allowed : Run.Along step FreesNoReserved (start [⟨0, 8192, true⟩])
      [.reserveRange 0 4096, .alloc, .free 4096] :=
    ⟨trivial, trivial, fun _ => by decide +kernel, trivial⟩
  refine ⟨allowed, ?_⟩
  rw [← (reserved_never_handed_out [⟨0, 8192, true⟩] _ allowed).2]
  decide +kernel

/-- A reserved frame that is freed is handed out by the next `alloc`, and from then on the
counters leave it out of account. -/
theorem freed_reservation_handed_out :
    let ledger := Run.after step (start [⟨0, 8192, true⟩]) [.reserveRange 0 4096, .free 0]
    ledger.reserved 0 ∧ ledger.allocator.Hands 0 .alloc ∧
      ledger.allocator.totalFrames - ledger.allocator.reservedFrames = 1 ∧
      ledger.inService.card = 2 := by
  refine ⟨by decide +kernel, ?_, by decide +kernel, by decide +kernel⟩
  change (_ : Except AllocError Nat) = _
  decide +kernel

end Ledger
end Cdk.Memory

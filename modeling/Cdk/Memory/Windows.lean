import Cdk.Memory.UnifiedMemory

/-!
# The windows of unified memory

Every region has one identity window in the software IOMMU, and there are no others.  A
call does all of its work or gives back what it took, so that the free frames and those of
the regions always make up the same number.
-/

namespace Cdk.Memory

open FrameAllocator UmRegion BoundedVec UnifiedMemory

variable {allocator : FrameAllocator} {frame : Nat}

/-! ## Spans of frames -/

theorem FrameAllocator.isUsed_free :
    (allocator.free address).2.isUsed frame ↔ allocator.isUsed frame ∧
      ¬ (address / frameSize = frame ∧ frame < allocator.totalFrames) := by
  rw [free]
  split_ifs with beyond notUsed
  · refine (and_iff_left ?_).symm
    rintro ⟨rfl, tracked⟩
    omega
  · refine ⟨fun used => ⟨used, ?_⟩, And.left⟩
    rintro ⟨rfl, _⟩
    rw [used] at notUsed
    cases notUsed
  · simp only [isUsed, Bitmap.isSet_clear, Bool.and_eq_true, Bool.not_eq_true',
      decide_eq_false_iff_not]
    refine and_congr_right fun _ => not_congr ⟨?_, And.left⟩
    rintro rfl
    exact ⟨rfl, not_le.mp beyond⟩

theorem FrameAllocator.totalFrames_free (address : Nat) :
    (allocator.free address).2.totalFrames = allocator.totalFrames := by
  rcases allocator.free_cases address with ⟨_, _, eq⟩ | ⟨_, eq⟩ <;> rw [eq]

namespace UnifiedMemory

/-- The frames of a span are free afterwards, and nothing else changes. -/
theorem freeSpan_spec (accounted : allocator.Accounted) (start count : Nat) :
    let after := freeSpan allocator (start * frameSize) count
    after.Accounted ∧ after.totalFrames = allocator.totalFrames ∧
      ∀ frame, after.isUsed frame ↔ allocator.isUsed frame ∧
        ¬ (start ≤ frame ∧ frame < start + count ∧ frame < allocator.totalFrames) := by
  induction count with
  | zero =>
    refine ⟨accounted, rfl, fun frame => (and_iff_left ?_).symm⟩
    omega
  | succ count step =>
    obtain ⟨before, total, used⟩ := step
    rw [freeSpan, List.range_succ, List.foldl_append]
    refine ⟨before.step (.free _), (totalFrames_free _).trans total, ?_⟩
    intro frame
    refine isUsed_free.trans ?_
    change (freeSpan allocator _ count).isUsed frame ∧
      ¬ (_ ∧ frame < (freeSpan allocator _ count).totalFrames) ↔ _
    rw [used, total, ← Nat.add_mul, Nat.mul_div_cancel _ (by decide), and_assoc]
    refine and_congr_right fun _ => ?_
    omega

end UnifiedMemory

/-! ## Regions own their frames -/

namespace UmRegion

variable {region : UmRegion}

/-- The frame is one of the region. -/
def Covers (region : UmRegion) (frame : Nat) : Prop :=
  region.guestPhys / frameSize ≤ frame ∧ frame < region.guestPhys / frameSize + region.frameCount

/-- The record describes a span of whole frames. -/
structure Whole (region : UmRegion) : Prop where
  aligned : region.guestPhys / frameSize * frameSize = region.guestPhys
  sized : region.len = region.frameCount * frameSize

end UmRegion

/-- Every region has whole frames, which are used, and no two regions share a frame. -/
structure Owning (allocator : FrameAllocator) (regions : List UmRegion) : Prop where
  accounted : allocator.Accounted
  whole : ∀ region ∈ regions, region.Whole
  held : ∀ region ∈ regions, ∀ frame, region.Covers frame →
    frame < allocator.totalFrames ∧ allocator.isUsed frame
  disjoint : regions.Pairwise fun left right => ∀ frame, left.Covers frame → ¬ right.Covers frame

namespace Owning

variable {regions others : List UmRegion} {region : UmRegion}

theorem perm (owning : Owning allocator regions) (same : regions.Perm others) :
    Owning allocator others where
  accounted := owning.accounted
  whole region member := owning.whole region (same.mem_iff.mpr member)
  held region member := owning.held region (same.mem_iff.mpr member)
  disjoint := by
    refine (same.pairwise_iff ?_).mp owning.disjoint
    intro left right apart frame inRight inLeft
    exact apart frame inLeft inRight

theorem same_span (owning : Owning allocator (region :: regions))
    (phys : changed.guestPhys = region.guestPhys) (len : changed.len = region.len)
    (count : changed.frameCount = region.frameCount) : Owning allocator (changed :: regions) := by
  have covers : ∀ frame, changed.Covers frame ↔ region.Covers frame := by
    intro frame
    rw [Covers, Covers, phys, count]
  have whole := owning.whole region List.mem_cons_self
  have held := owning.held region List.mem_cons_self
  have disjoint := List.pairwise_cons.mp owning.disjoint
  refine ⟨owning.accounted, ?_, ?_, ?_⟩
  · rw [List.forall_mem_cons]
    refine ⟨⟨?_, ?_⟩, fun other member => owning.whole other (List.mem_cons_of_mem _ member)⟩
    · rw [phys]
      exact whole.aligned
    · rw [len, count]
      exact whole.sized
  · rw [List.forall_mem_cons]
    refine ⟨?_, fun other member => owning.held other (List.mem_cons_of_mem _ member)⟩
    intro frame inside
    exact held frame ((covers frame).mp inside)
  · refine List.pairwise_cons.mpr ⟨?_, disjoint.2⟩
    intro other member frame inside
    exact disjoint.1 other member frame ((covers frame).mp inside)

theorem take (owning : Owning allocator regions)
    (result : allocator.allocContiguous count = (.ok phys, after))
    (atPhys : region.guestPhys = phys) (len : region.len = count * frameSize)
    (frames : region.frameCount = count) : Owning after (region :: regions) := by
  have accounted : after.Accounted := by
    have next := owning.accounted.step (.allocContiguous count)
    rwa [FrameAllocator.step, result] at next
  rcases owning.accounted.allocContiguous_cases count with ⟨start, _, run, _, eq⟩ | ⟨_, eq⟩
  · rw [result] at eq
    cases eq
    have atStart : region.guestPhys / frameSize = start := by
      rw [atPhys, Nat.mul_div_cancel _ (by decide)]
    have free : ∀ frame, region.Covers frame → allocator.Free frame := by
      rintro frame ⟨lower, upper⟩
      rw [atStart, frames] at *
      have inRun := run (frame - start) (by omega)
      rwa [Nat.add_sub_cancel' lower] at inRun
    refine ⟨accounted, ?_, ?_, ?_⟩
    · rw [List.forall_mem_cons]
      refine ⟨⟨by rw [atStart, atPhys], by rw [len, frames]⟩, owning.whole⟩
    · rw [List.forall_mem_cons]
      constructor
      · intro frame inside
        refine ⟨(free frame inside).1, ?_⟩
        rw [isUsed, Bitmap.isSet_foldl_set, decide_eq_true, Bool.or_true]
        rw [Covers, atStart, frames] at inside
        exact List.mem_range'_1.mpr inside
      · intro other member frame inside
        obtain ⟨tracked, used⟩ := owning.held other member frame inside
        refine ⟨tracked, ?_⟩
        rw [isUsed] at used ⊢
        rw [Bitmap.isSet_foldl_set, used, Bool.true_or]
    · refine List.pairwise_cons.mpr ⟨?_, owning.disjoint⟩
      intro other member frame inside inOther
      have used := (owning.held other member frame inOther).2
      exact Bool.false_ne_true ((free frame inside).2.symm.trans used)
  · rw [result] at eq
    cases eq

theorem release (owning : Owning allocator (region :: regions)) :
    Owning (freeSpan allocator region.guestPhys region.frameCount) regions := by
  have whole := owning.whole region List.mem_cons_self
  have disjoint := List.pairwise_cons.mp owning.disjoint
  rw [← whole.aligned]
  obtain ⟨accounted, total, used⟩ := freeSpan_spec owning.accounted
    (region.guestPhys / frameSize) region.frameCount
  refine ⟨accounted, fun other member => owning.whole other (List.mem_cons_of_mem _ member), ?_,
    disjoint.2⟩
  intro other member frame inside
  obtain ⟨tracked, isUsed⟩ := owning.held other (List.mem_cons_of_mem _ member) frame inside
  rw [total, used]
  refine ⟨tracked, isUsed, ?_⟩
  rintro ⟨lower, upper, _⟩
  exact disjoint.1 other member frame ⟨lower, upper⟩ inside

end Owning

variable {after : FrameAllocator} {region : UmRegion} {regions others : List UmRegion}
  {frames count phys : Nat}

def UmRegion.window (region : UmRegion) : DmaWindow :=
  ⟨region.guestPhys, region.len, region.guestPhys⟩

/-- Regions without a common frame have windows without a common address. -/
theorem UmRegion.Whole.apart {left right : UmRegion} (whole : left.Whole) (other : right.Whole)
    (positive : 0 < left.frameCount) (alsoPositive : 0 < right.frameCount)
    (disjoint : ∀ frame, left.Covers frame → ¬ right.Covers frame) :
    Iommu.rangesOverlap left.guestPhys left.len right.guestPhys right.len = false := by
  obtain ⟨aligned, sized⟩ := whole
  obtain ⟨alsoAligned, alsoSized⟩ := other
  have first := disjoint (left.guestPhys / frameSize)
  have second := disjoint (right.guestPhys / frameSize)
  simp only [Covers, frameSize] at *
  simp only [Iommu.rangesOverlap, Bool.and_eq_false_iff, decide_eq_false_iff_not]
  omega

/-! ## The frames -/

namespace UnifiedMemory

theorem freeFrames_freeSpan (accounted : allocator.Accounted) (start : Nat)
    (held : ∀ frame, start ≤ frame → frame < start + count →
      frame < allocator.totalFrames ∧ allocator.isUsed frame) :
    (freeSpan allocator (start * frameSize) count).freeFrames = allocator.freeFrames + count := by
  induction count with
  | zero => rfl
  | succ count step =>
    obtain ⟨_, total, used⟩ := freeSpan_spec accounted start count
    have before := step fun frame lower upper => held frame lower (by omega)
    obtain ⟨tracked, isUsed⟩ := held (start + count) (by omega) (by omega)
    have stillUsed := (used (start + count)).mpr ⟨isUsed, by omega⟩
    rw [freeSpan, List.range_succ, List.foldl_append]
    change ((freeSpan allocator (start * frameSize) count).free
      (start * frameSize + count * frameSize)).2.freeFrames = _
    rw [← Nat.add_mul, FrameAllocator.free, Nat.mul_div_cancel _ (by decide),
      if_neg (by rw [total]; omega), if_neg (by rw [stillUsed]; decide)]
    dsimp only
    rw [before, Nat.add_assoc]

theorem free_freeSpan_iff (accounted : allocator.Accounted)
    (result : allocator.allocContiguous count = (.ok phys, after)) (frame : Nat) :
    (freeSpan after phys count).Free frame ↔ allocator.Free frame := by
  have taken := accounted.step (.allocContiguous count)
  rw [FrameAllocator.step, result] at taken
  rcases accounted.allocContiguous_cases count with ⟨start, _, run, _, eq⟩ | ⟨_, eq⟩
  · rw [result] at eq
    cases eq
    obtain ⟨_, total, used⟩ := freeSpan_spec taken start count
    rw [Free, Free, total, ← Bool.not_eq_true, ← Bool.not_eq_true, used]
    refine and_congr_right fun tracked => not_congr ?_
    simp only [isUsed, Bitmap.isSet_foldl_set, Bool.or_eq_true, decide_eq_true_eq,
      List.mem_range'_1]
    by_cases inside : start ≤ frame ∧ frame < start + count
    · have free := (run (frame - start) (by omega)).2
      rw [Nat.add_sub_cancel' inside.1, isUsed] at free
      simp [inside, tracked, free]
    · rw [or_iff_left inside]
      exact and_iff_left fun span => inside ⟨span.1, span.2.1⟩
  · rw [result] at eq
    cases eq

end UnifiedMemory

/-- Every region has frames, which it owns, and with the free frames they make up a number. -/
structure Tallied (allocator : FrameAllocator) (regions : List UmRegion) (frames : Nat) : Prop
    extends Owning allocator regions where
  positive : ∀ region ∈ regions, 0 < region.frameCount
  tally : allocator.freeFrames + (regions.map frameCount).sum = frames

namespace Tallied

theorem perm (tallied : Tallied allocator regions frames) (same : regions.Perm others) :
    Tallied allocator others frames where
  toOwning := tallied.toOwning.perm same
  positive region member := tallied.positive region (same.mem_iff.mpr member)
  tally := by rw [← (same.map _).sum_nat, tallied.tally]

theorem same_span (tallied : Tallied allocator (region :: regions) frames)
    (phys : changed.guestPhys = region.guestPhys) (len : changed.len = region.len)
    (count : changed.frameCount = region.frameCount) :
    Tallied allocator (changed :: regions) frames where
  toOwning := tallied.toOwning.same_span phys len count
  positive := by
    have positive := List.forall_mem_cons.mp tallied.positive
    exact List.forall_mem_cons.mpr ⟨count ▸ positive.1, positive.2⟩
  tally := by
    have tally := tallied.tally
    rwa [List.map_cons, ← count] at tally

theorem take (tallied : Tallied allocator regions frames)
    (result : allocator.allocContiguous count = (.ok phys, after))
    (atPhys : region.guestPhys = phys) (len : region.len = count * frameSize)
    (size : region.frameCount = count) : Tallied after (region :: regions) frames := by
  have owning := tallied.toOwning.take result atPhys len size
  rcases tallied.accounted.allocContiguous_cases count with ⟨start, positive, run, _, eq⟩ | ⟨_, eq⟩
  · rw [result] at eq
    cases eq
    have enough := run.length_le tallied.accounted
    have tally := tallied.tally
    refine ⟨owning, List.forall_mem_cons.mpr ⟨by omega, tallied.positive⟩, ?_⟩
    rw [List.map_cons, List.sum_cons, size]
    dsimp only
    omega
  · rw [result] at eq
    cases eq

theorem release (tallied : Tallied allocator (region :: regions) frames) :
    Tallied (freeSpan allocator region.guestPhys region.frameCount) regions frames := by
  refine ⟨tallied.toOwning.release, (List.forall_mem_cons.mp tallied.positive).2, ?_⟩
  have tally := tallied.tally
  have held := tallied.held region List.mem_cons_self
  rw [List.map_cons, List.sum_cons] at tally
  rw [← (tallied.whole region List.mem_cons_self).aligned,
    freeFrames_freeSpan tallied.accounted _ fun frame lower upper =>
      held frame ⟨lower, upper⟩]
  omega

theorem apart (tallied : Tallied allocator regions frames) : regions.Pairwise fun left right =>
    Iommu.rangesOverlap left.guestPhys left.len right.guestPhys right.len = false :=
  tallied.disjoint.imp_of_mem fun first second disjoint =>
    (tallied.whole _ first).apart (tallied.whole _ second) (tallied.positive _ first)
      (tallied.positive _ second) disjoint

end Tallied

/-! ## The windows -/

namespace Iommu

variable {windows : BoundedVec DmaWindow maxWindows}

/-- Every window maps addresses to themselves. -/
def Identity (windows : BoundedVec DmaWindow maxWindows) : Prop :=
  ∀ window ∈ windows.items, window.devicePhys = window.guestPhys

theorem Identity.translateDma (identity : Identity windows)
    (translated : translateDma windows iova = some dma) : dma = iova := by
  obtain ⟨window, found, rfl⟩ := Option.map_eq_some_iff.mp translated
  have covers := List.find?_some found
  simp only [Bool.and_eq_true, decide_eq_true_eq] at covers
  rw [identity window (List.mem_of_find?_eq_some found)]
  omega

theorem mapIdentity_mirrors (tallied : Tallied allocator (region :: regions) frames)
    (mirrors : windows.items.Perm (regions.map window)) (room : regions.length < maxWindows) :
    ∃ changed, mapIdentity windows region.guestPhys region.len = .ok changed ∧
      changed.items.Perm ((region :: regions).map window) := by
  obtain ⟨aligned, sized⟩ := tallied.whole region List.mem_cons_self
  have positive := tallied.positive region List.mem_cons_self
  have free : ¬ (windows.items.any fun window =>
      rangesOverlap region.guestPhys region.len window.guestPhys window.len) := by
    rw [Bool.not_eq_true, List.any_eq_false]
    intro window member
    obtain ⟨other, present, rfl⟩ := List.mem_map.mp (mirrors.mem_iff.mp member)
    exact Bool.not_eq_true _ ▸ (List.pairwise_cons.mp tallied.apart).1 other present
  have pushes : ∃ pushed, windows.push? region.window = some pushed := by
    rw [← Option.ne_none_iff_exists', Ne, push?_eq_none_iff, mirrors.length_eq, List.length_map]
    exact not_not.mpr room
  obtain ⟨pushed, added⟩ := pushes
  refine ⟨pushed, ?_, ?_⟩
  · rw [frameSize] at *
    rw [mapIdentity, if_neg (by omega), if_neg (by rw [frameSize]; omega), if_neg free]
    rw [show windows.push? ⟨region.guestPhys, region.len, _⟩ = some pushed from added]
  · rw [(push?_eq_some_iff.mp added).2]
    exact (List.perm_append_singleton _ _).trans (mirrors.cons _)

theorem unmap_mirrors (tallied : Tallied allocator (region :: regions) frames)
    (mirrors : windows.items.Perm ((region :: regions).map window)) :
    ∃ changed, unmap windows region.guestPhys = .ok changed ∧
      changed.items.Perm (regions.map window) := by
  have only : ∀ window ∈ windows.items, window.guestPhys = region.guestPhys →
      window = region.window := by
    intro window member same
    obtain ⟨other, present, rfl⟩ := List.mem_map.mp (mirrors.mem_iff.mp member)
    rcases List.mem_cons.mp present with rfl | later
    · rfl
    have apart := (List.pairwise_cons.mp tallied.apart).1 other later
    have sized := (tallied.whole region List.mem_cons_self).sized
    have alsoSized := (tallied.whole other present).sized
    have positive := tallied.positive region List.mem_cons_self
    have alsoPositive := tallied.positive other present
    change other.guestPhys = _ at same
    simp only [rangesOverlap, Bool.and_eq_false_iff, decide_eq_false_iff_not, frameSize] at *
    omega
  have present : region.window ∈ windows.items := mirrors.mem_iff.mpr List.mem_cons_self
  cases search : windows.items.findIdx? fun window => window.guestPhys == region.guestPhys with
  | none =>
    have absent := List.findIdx?_eq_none_iff.mp search _ present
    simp [window] at absent
  | some place =>
    obtain ⟨inside, starts, _⟩ := List.findIdx?_eq_some_iff_getElem.mp search
    obtain ⟨rest, removed⟩ := windows.swapRemove?_of_lt inside
    refine ⟨rest, by simp only [unmap, search, removed], ?_⟩
    have split := swapRemove?_perm removed
    rw [only _ (List.getElem_mem inside) (by simpa using starts)] at split
    exact (split.symm.trans mirrors).cons_inv

end Iommu

open Iommu

/-! ## The calls -/

namespace UnifiedMemory

variable {memory : UnifiedMemory} {id : Nat}

/-- The change applies to the record that `get` returns. -/
theorem modify_findIdx {items : List α} {item : α} (search : items.find? found = some item)
    (change : α → α) :
    ∃ early late, items = early ++ item :: late ∧ (∀ other ∈ early, found other = false) ∧
      items.modify (items.findIdx found) change = early ++ change item :: late := by
  obtain ⟨passes, early, late, rfl, skipped⟩ := List.find?_eq_some_iff_append.mp search
  simp only [Bool.not_eq_true'] at skipped
  have place : (early ++ item :: late).findIdx found = early.length := by
    rw [List.findIdx_append, List.findIdx_eq_length_of_false skipped]
    simp [List.findIdx_cons, passes]
  refine ⟨early, late, rfl, skipped, ?_⟩
  rw [place]
  simp [List.modify_eq_take_drop]

/-- An update of the record that `get` returns; afterwards it returns the new one. -/
theorem updateRegion_spec (found : memory.get id = some region) {change : UmRegion → UmRegion}
    (keeps : (change region).id = region.id) : ∃ early late,
    memory.regions.items = early ++ region :: late ∧
      (updateRegion memory.regions id change).items = early ++ change region :: late ∧
      ((early ++ change region :: late).find? fun region => region.id == id) =
        some (change region) := by
  obtain ⟨early, late, split, before, changed⟩ := modify_findIdx found change
  refine ⟨early, late, split, changed, List.find?_eq_some_iff_append.mpr ⟨?_, early, late, rfl, ?_⟩⟩
  · have matched := List.find?_some found
    rwa [← keeps] at matched
  · intro other member
    rw [before other member, Bool.not_false]

theorem get_spec (found : memory.get id = some region) :
    region ∈ memory.regions.items ∧ region.id = id :=
  ⟨List.mem_of_find?_eq_some found, by simpa using List.find?_some found⟩

/-- The regions, the windows and the free frames are as before. -/
structure Unchanged (memory next : UnifiedMemory) : Prop where
  regions : next.regions = memory.regions
  windows : next.windows = memory.windows
  freeFrames : next.allocator.freeFrames = memory.allocator.freeFrames
  free : ∀ frame, next.allocator.Free frame ↔ memory.allocator.Free frame

/-- Frames are accounted for, and the windows are those of the regions. -/
structure Matched (frames : Nat) (memory : UnifiedMemory) : Prop where
  tallied : Tallied memory.allocator memory.regions.items frames
  mirrors : memory.windows.items.Perm (memory.regions.items.map window)

/-- The call keeps the windows and the regions in step, and a failure changes nothing. -/
def Respects (frames : Nat) (memory : UnifiedMemory) (outcome : Except UmError α × UnifiedMemory) :
    Prop :=
  outcome.2.Matched frames ∧ (outcome.1.isOk = false → memory.Unchanged outcome.2)

namespace Matched

variable (matched : memory.Matched frames)
include matched

theorem same (result : Except UmError α) : memory.Respects frames (result, memory) :=
  ⟨matched, fun _ => ⟨rfl, rfl, rfl, fun _ => .rfl⟩⟩

theorem alloc (bytes : Nat) : memory.Respects frames (memory.alloc bytes) := by
  unfold UnifiedMemory.alloc
  split_ifs
  · exact matched.same _
  · exact matched.same _
  dsimp only
  split
  · exact matched.same _
  rename_i phys after result
  have taken : Tallied after (⟨memory.nextId, phys, framesForBytes bytes * frameSize,
      framesForBytes bytes, none⟩ :: memory.regions.items) frames :=
    matched.tallied.take result rfl rfl rfl
  split
  · have tally := matched.tallied.tally
    have restored := taken.release.tally
    refine ⟨⟨taken.release, matched.mirrors⟩, fun _ => ⟨rfl, rfl, ?_, ?_⟩⟩
    · dsimp only at restored ⊢
      omega
    · exact free_freeSpan_iff matched.tallied.accounted result
  · rename_i regions pushed
    obtain ⟨room, items⟩ := push?_eq_some_iff.mp pushed
    obtain ⟨windows, mapped, mirrors⟩ := mapIdentity_mirrors taken matched.mirrors
      (room.trans (by decide))
    have order := (List.perm_append_singleton (⟨memory.nextId, phys,
      framesForBytes bytes * frameSize, framesForBytes bytes, none⟩ : UmRegion)
      memory.regions.items).symm
    rw [← items] at order
    simp only [mapped]
    exact ⟨⟨taken.perm order, mirrors.trans (order.map _)⟩, nofun⟩

theorem free (id : Nat) : memory.Respects frames (memory.free id) := by
  unfold UnifiedMemory.free
  split
  · exact matched.same _
  split
  · exact matched.same _
  rename_i region rest removed
  have order := swapRemove?_perm removed
  have tallied := matched.tallied.perm order
  obtain ⟨windows, unmapped, mirrors⟩ :=
    unmap_mirrors tallied (matched.mirrors.trans (order.map _))
  simp only [unmapped]
  exact ⟨⟨tallied.release, mirrors⟩, nofun⟩

/-- The new window can be mapped as soon as the old one is gone. -/
theorem migrate (id : Nat) : memory.Respects frames (memory.migrate id) := by
  unfold UnifiedMemory.migrate
  split
  · exact matched.same _
  rename_i old found
  split
  · exact matched.same _
  rename_i phys after result
  have whole := matched.tallied.whole old (get_spec found).1
  obtain ⟨early, late, split, items, present⟩ := @updateRegion_spec _ _ _ found
    (fun region => { region with guestPhys := phys, gpuResourceId := none }) rfl
  set moved : UmRegion := { old with guestPhys := phys, gpuResourceId := none }
  have order : memory.regions.items.Perm (old :: (early ++ late)) := by
    rw [split]
    exact List.perm_middle
  have fits := memory.regions.fits
  rw [order.length_eq, List.length_cons] at fits
  have tallied := matched.tallied.perm order
  have taken : Tallied after (moved :: old :: (early ++ late)) frames :=
    tallied.take result rfl whole.sized rfl
  have released := (taken.perm (List.Perm.swap _ _ _)).release
  obtain ⟨fewer, unmapped, mirrored⟩ :=
    unmap_mirrors tallied (matched.mirrors.trans (order.map _))
  obtain ⟨windows, mapped, mirrors⟩ :=
    mapIdentity_mirrors released mirrored (by rw [maxWindows]; omega)
  have mapped : mapIdentity fewer phys old.len = .ok windows := mapped
  simp only [unmapped, settle, mapped, get, items, present]
  refine ⟨⟨?_, ?_⟩, nofun⟩
  · dsimp only
    rw [items]
    exact released.perm List.perm_middle.symm
  · dsimp only
    rw [items]
    exact mirrors.trans (List.perm_middle.symm.map _)

theorem attachGpu (id width height : Nat) (answers : GpuAnswers) :
    memory.Respects frames (memory.attachGpu id width height answers) := by
  unfold UnifiedMemory.attachGpu
  split
  · exact matched.same _
  rename_i region found
  dsimp only
  split
  · exact matched.same _
  split
  · exact matched.same _
  cases answers.umAttachResource with
  | error text =>
    exact ⟨⟨matched.tallied, matched.mirrors⟩, fun _ => ⟨rfl, rfl, rfl, fun _ => .rfl⟩⟩
  | ok =>
    obtain ⟨early, late, split, items, _⟩ := @updateRegion_spec _ _ _ found
      (fun region => { region with gpuResourceId := some memory.nextGpuRes }) rfl
    have tallied := matched.tallied
    have mirrors := matched.mirrors
    rw [split] at tallied mirrors
    refine ⟨⟨?_, ?_⟩, nofun⟩
    · dsimp only
      rw [items]
      refine Tallied.perm ?_ List.perm_middle.symm
      exact (tallied.perm List.perm_middle).same_span rfl rfl rfl
    · dsimp only
      rw [items]
      simpa [window] using mirrors

end Matched

def fails (memory : UnifiedMemory) : UmCall → Bool
  | .alloc bytes => !(memory.alloc bytes).1.isOk
  | .cpuFill id => !(memory.cpuFill id).1.isOk
  | .attachGpu id width height answers => !(memory.attachGpu id width height answers).1.isOk
  | .migrate id => !(memory.migrate id).1.isOk
  | .free id => !(memory.free id).1.isOk

theorem Matched.step (matched : memory.Matched frames) (call : UmCall) :
    (memory.step call).Matched frames ∧
      (memory.fails call → memory.Unchanged (memory.step call)) := by
  have respects {α : Type} {outcome : Except UmError α × UnifiedMemory}
      (respects : memory.Respects frames outcome) : outcome.2.Matched frames ∧
        ((!outcome.1.isOk) → memory.Unchanged outcome.2) :=
    ⟨respects.1, fun failed => respects.2 (by simpa using failed)⟩
  cases call with
  | alloc bytes => exact respects (matched.alloc bytes)
  | cpuFill id =>
    refine respects ?_
    unfold cpuFill
    split <;> exact matched.same _
  | attachGpu id width height answers => exact respects (matched.attachGpu id width height answers)
  | migrate id => exact respects (matched.migrate id)
  | free id => exact respects (matched.free id)

theorem matched_after (accounted : allocator.Accounted) (calls : List UmCall) :
    (Run.after step (boot allocator) calls).Matched allocator.freeFrames :=
  Run.always calls ⟨⟨⟨accounted, nofun, nofun, .nil⟩, nofun, rfl⟩, .nil⟩
    fun _ call matched => (matched.step call).1

theorem Matched.identity (matched : memory.Matched frames) : Iommu.Identity memory.windows := by
  intro window member
  obtain ⟨region, _, rfl⟩ := List.mem_map.mp (matched.mirrors.mem_iff.mp member)
  rfl

theorem Matched.translateDma (matched : memory.Matched frames) (iova dma : Nat) :
    translateDma memory.windows iova = some dma ↔ dma = iova ∧
      ∃ region ∈ memory.regions.items,
        region.guestPhys ≤ iova ∧ iova < region.guestPhys + region.len := by
  have covered : (∃ region ∈ memory.regions.items,
      region.guestPhys ≤ iova ∧ iova < region.guestPhys + region.len) ↔
      (Iommu.translateDma memory.windows iova).isSome := by
    rw [Iommu.translateDma, Option.isSome_map, List.find?_isSome]
    simp [matched.mirrors.mem_iff, window]
  rw [covered]
  constructor
  · intro translated
    exact ⟨matched.identity.translateDma translated, by rw [translated]; rfl⟩
  · rintro ⟨rfl, translated⟩
    obtain ⟨found, translated⟩ := Option.isSome_iff_exists.mp translated
    rw [translated, matched.identity.translateDma translated]

/-- Over every sequence of calls the windows are those of the regions, no two of them
overlap, the frames of the regions are used and with the free frames make up a fixed number,
`translate_dma` is the identity on the regions and fails elsewhere, and a call that fails
changes nothing. -/
theorem windows_match_regions
    (map : List Region)
    (earlier : List Call)
    (calls : List UmCall) :
    let memory := Run.after step (boot (reached map earlier)) calls
    memory.windows.items.Perm (memory.regions.items.map window) ∧
    (memory.windows.items.Pairwise fun left right =>
      rangesOverlap left.guestPhys left.len right.guestPhys right.len = false) ∧
    (∀ region ∈ memory.regions.items, ∀ frame, region.Covers frame →
      memory.allocator.isUsed frame) ∧
    memory.allocator.freeFrames + (memory.regions.items.map frameCount).sum =
      (reached map earlier).freeFrames ∧
    (∀ iova dma, translateDma memory.windows iova = some dma ↔ dma = iova ∧
      ∃ region ∈ memory.regions.items,
        region.guestPhys ≤ iova ∧ iova < region.guestPhys + region.len) ∧
    ∀ call, memory.fails call → memory.Unchanged (memory.step call) := by
  intro memory
  have matched : memory.Matched _ := matched_after (accounted_reached map earlier) calls
  refine ⟨matched.mirrors, ?_, ?_, matched.tallied.tally, matched.translateDma,
    fun call => (matched.step call).2⟩
  · refine (matched.mirrors.pairwise_iff ?_).mpr (List.pairwise_map.mpr matched.tallied.apart)
    intro left right apart
    simpa only [rangesOverlap, Bool.and_comm] using apart
  · intro region member frame inside
    exact (matched.tallied.held region member frame inside).2

end UnifiedMemory
end Cdk.Memory

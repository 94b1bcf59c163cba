import Cdk.Library.Bitmap
import Cdk.Library.Run

/-!
# The physical frame allocator

A bit of the bitmap is set while its frame of 4 KiB is allocated or reserved.  The allocator is
filled from the boot loader's memory map and then serves `reserve_range`, `alloc`,
`alloc_contiguous` and `free`.  Addresses that cannot overflow are natural numbers.
-/

namespace Cdk.Memory

open Bitmap

def frameSize : Nat := 4096

/-- The number of frames that the bitmap tracks. -/
def maxFrames : Nat := 128 * 1024

/-- The number of words of the bitmap.  Irreducible, so that no proof runs the search for a
clear bit over all of them. -/
@[irreducible] def bitmapWords : Nat := maxFrames / 64

/-- Why a call failed. -/
inductive AllocError where
  | outOfMemory
  | alreadyFree
  | outOfRange
  deriving Repr, DecidableEq

/-- The bitmap of used frames, and counters. -/
structure FrameAllocator where
  bitmap : Nat → UInt64
  totalFrames : Nat
  freeFrames : Nat
  reservedFrames : Nat

/-- A region of the memory map. -/
structure Region where
  base : UInt64
  len : UInt64
  usable : Bool
  deriving Repr, DecidableEq

/-! ## The memory map -/

/-- Addition of words that stops at the greatest word. -/
def saturatingAdd (left right : UInt64) : UInt64 :=
  if left.toNat + right.toNat < 2 ^ 64 then left + right else full

/-- Subtraction of words that stops at zero. -/
def saturatingSub (left right : UInt64) : UInt64 :=
  if right ≤ left then left - right else 0

/-- The end of the highest region. -/
def maxAddr (regions : List Region) : UInt64 :=
  regions.foldl (fun highest region =>
    let regionEnd := saturatingAdd region.base region.len
    if highest < regionEnd then regionEnd else highest) 0

/-- The number of frames to track: `(max_addr + FRAME_SIZE - 1) / FRAME_SIZE`, which wraps
round for an address in the last frame of the address space. -/
def framesFor (regions : List Region) : Nat :=
  min ((maxAddr regions + 4096 - 1) / 4096).toNat maxFrames

namespace Region

def firstFrame (region : Region) : Nat := (region.base / 4096).toNat

def lastFrame (region : Region) : Nat := (saturatingSub (region.base + region.len) 1 / 4096).toNat

/-- The second pass over the memory map skips unusable and empty regions. -/
def skipped (region : Region) : Bool := !region.usable || region.len == 0

end Region

namespace FrameAllocator

def new : FrameAllocator where
  bitmap := fun _ => full
  totalFrames := 0
  freeFrames := 0
  reservedFrames := 0

/-- Mark the frames of a usable region free. -/
def freeRegion (total : Nat) (bitmap : Nat → UInt64) (region : Region) : Nat → UInt64 :=
  if region.skipped then bitmap
  else
    (List.range' region.firstFrame (region.lastFrame + 1 - region.firstFrame)).foldl
      (fun bitmap frame => if frame < total then clear bitmap frame else bitmap) bitmap

variable (allocator : FrameAllocator)

/-- Fill the allocator from the memory map. -/
def initFromRegions (regions : List Region) : FrameAllocator :=
  let total := framesFor regions
  let reserved := (List.range total).foldl set allocator.bitmap
  let bitmap := regions.foldl (freeRegion total) reserved
  let free := countClear bitmap total
  { bitmap
    totalFrames := total
    freeFrames := free
    reservedFrames := total - free }

/-! ## The calls -/

def isUsed (frame : Nat) : Bool := isSet allocator.bitmap frame

/-- The frames that overlap `[start, end)` and exist. -/
def rangeFrames (first last : Nat) : List Nat :=
  let from_frame := first / frameSize
  List.range' from_frame
    (min ((last + frameSize - 1) / frameSize) allocator.totalFrames - from_frame)

/-- Take one frame out of service, and count it if it was free. -/
def reserveFrame (state : (Nat → UInt64) × Nat) (frame : Nat) : (Nat → UInt64) × Nat :=
  if isSet state.1 frame then state else (set state.1 frame, state.2 + 1)

/-- Take every frame that overlaps `[first, last)` out of service; the count of the frames
that were free is returned. -/
def reserveRange (first last : Nat) : Nat × FrameAllocator :=
  let (bitmap, taken) :=
    (allocator.rangeFrames first last).foldl reserveFrame (allocator.bitmap, 0)
  (taken,
    { allocator with
      bitmap
      freeFrames := allocator.freeFrames - taken
      reservedFrames := allocator.reservedFrames + taken })

/-- Take the lowest free frame. -/
def alloc : Except AllocError Nat × FrameAllocator :=
  match lowestClear? allocator.bitmap bitmapWords with
  | none => (.error .outOfMemory, allocator)
  | some frame =>
    -- The search stops at the first clear bit, also when it belongs to no frame.
    if allocator.totalFrames ≤ frame then (.error .outOfMemory, allocator)
    else
      (.ok (frame * frameSize),
        { allocator with
          bitmap := set allocator.bitmap frame
          freeFrames := allocator.freeFrames - 1 })

/-- Take the lowest run of free frames. -/
def allocContiguous (count : Nat) : Except AllocError Nat × FrameAllocator :=
  if count = 0 then (.error .outOfMemory, allocator)
  else if allocator.freeFrames < count then (.error .outOfMemory, allocator)
  else
    let limit := allocator.totalFrames - count
    match clearRun? allocator.bitmap count limit (limit + 1) 0 with
    | none => (.error .outOfMemory, allocator)
    | some start =>
      (.ok (start * frameSize),
        { allocator with
          bitmap := (List.range count).foldl (fun bitmap offset => set bitmap (start + offset))
            allocator.bitmap
          freeFrames := allocator.freeFrames - count })

/-- Give a frame back. -/
def free (address : Nat) : Except AllocError Unit × FrameAllocator :=
  let frame := address / frameSize
  if allocator.totalFrames ≤ frame then (.error .outOfRange, allocator)
  else if !allocator.isUsed frame then (.error .alreadyFree, allocator)
  else
    (.ok (),
      { allocator with
        bitmap := clear allocator.bitmap frame
        freeFrames := allocator.freeFrames + 1 })

end FrameAllocator

end Cdk.Memory

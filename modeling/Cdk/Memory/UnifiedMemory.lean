import Cdk.Memory.Accounting
import Cdk.Library.Bounded

/-!
# Unified memory

Regions of contiguous frames that the CPU and the virtio GPU share: a record, frames of the
allocator, a window in the software IOMMU, and what the GPU holds as the backing of resources.
`backings` records the last: the memory the device was given and not asked to give back.
-/

namespace Cdk.Memory

/-! ## The software IOMMU -/

/-- Why a window was refused. -/
inductive IommuError where
  | full
  | notFound
  | unaligned
  | overlap
  | zeroSize
  deriving Repr, DecidableEq

/-- A range that devices may reach. -/
structure DmaWindow where
  guestPhys : Nat
  len : Nat
  devicePhys : Nat
  deriving Repr, DecidableEq

namespace Iommu

def maxWindows : Nat := 16

def rangesOverlap (a aLen b bLen : Nat) : Bool := a < b + bLen && b < a + aLen

variable (windows : BoundedVec DmaWindow maxWindows)

/-- Open a window. -/
def mapIdentity (guestPhys len : Nat) : Except IommuError (BoundedVec DmaWindow maxWindows) :=
  if len = 0 then .error .zeroSize
  else if guestPhys % frameSize ≠ 0 ∨ len % frameSize ≠ 0 then .error .unaligned
  else if windows.items.any fun window =>
      rangesOverlap guestPhys len window.guestPhys window.len then
    .error .overlap
  else
    match windows.push? { guestPhys, len, devicePhys := guestPhys } with
    | some pushed => .ok pushed
    | none => .error .full

/-- Close a window. -/
def unmap (guestPhys : Nat) : Except IommuError (BoundedVec DmaWindow maxWindows) :=
  match windows.items.findIdx? fun window => window.guestPhys == guestPhys with
  | none => .error .notFound
  | some place =>
    match windows.swapRemove? place with
    | some (_, rest) => .ok rest
    | none => .error .notFound

/-- The device address of a guest address, through the first window that covers it. -/
def translateDma (iova : Nat) : Option Nat :=
  (windows.items.find? fun window =>
    window.guestPhys ≤ iova && iova < window.guestPhys + window.len).map fun window =>
      window.devicePhys + (iova - window.guestPhys)

/-- A failed call changes nothing. -/
def settle (result : Except IommuError (BoundedVec DmaWindow maxWindows)) :
    BoundedVec DmaWindow maxWindows :=
  match result with
  | .ok changed => changed
  | .error _ => windows

end Iommu

/-! ## The device -/

/-- What the device answers to the five commands of one bring-up: the type field of its
response, or the text with which the submission fails. -/
structure GpuAnswers where
  hwEnabled : Bool
  ready : Bool
  create : Except String Nat
  attach : Except String Nat
  scanout : Except String Nat
  transfer : Except String Nat
  flush : Except String Nat

namespace GpuAnswers

def accepted (response : Nat) : Bool := 0x1100 ≤ response && response < 0x1200

def command (text : String) (answer : Except String Nat) : Except String Unit := do
  let response ← answer
  if accepted response then .ok () else .error text

/-- The commands of an attachment. -/
def smoke2d (answers : GpuAnswers) : Except String Nat := do
  command "create_2d failed" answers.create
  command "attach_backing failed" answers.attach
  command "set_scanout failed" answers.scanout
  command "transfer_to_host failed" answers.transfer
  answers.flush

/-- Attach memory to the GPU. -/
def umAttachResource (answers : GpuAnswers) : Except String Unit :=
  if !answers.hwEnabled then .error "virtio-hw feature disabled"
  else if !answers.ready then .error "virtio-gpu hw not ready"
  else do
    let response ← answers.smoke2d
    if accepted response then .ok () else .error "um attach flush failed"

/-- The GPU has taken the memory. -/
def backed (answers : GpuAnswers) : Bool := answers.hwEnabled && answers.ready &&
    (command "create_2d failed" answers.create).toBool &&
    (command "attach_backing failed" answers.attach).toBool

end GpuAnswers

/-- Memory that the device was given as the backing of a resource, with the region for
which it was given. -/
structure Backing where
  resource : Nat
  region : Nat
  phys : Nat
  len : Nat
  deriving Repr, DecidableEq

/-! ## Regions -/

/-- Why a call failed. -/
inductive UmError where
  | zeroSize
  | tooLarge
  | outOfMemory
  | full
  | notFound
  | gpuAttach (text : String)
  deriving Repr, DecidableEq

/-- A region of unified memory. -/
structure UmRegion where
  id : Nat
  guestPhys : Nat
  len : Nat
  frameCount : Nat
  gpuResourceId : Option Nat
  deriving Repr, DecidableEq

/-- The records of the regions, the allocator, the windows, and what the device holds. -/
structure UnifiedMemory where
  allocator : FrameAllocator
  regions : BoundedVec UmRegion 8
  nextId : Nat
  windows : BoundedVec DmaWindow Iommu.maxWindows
  nextGpuRes : Nat
  backings : List Backing

namespace UnifiedMemory

def maxRegionBytes : Nat := 16 * 1024 * 1024

def framesForBytes (bytes : Nat) : Nat :=
  if bytes = 0 then 0 else (bytes + frameSize - 1) / frameSize

def freeSpan (allocator : FrameAllocator) (phys count : Nat) : FrameAllocator :=
  (List.range count).foldl (fun allocator i => (allocator.free (phys + i * frameSize)).2) allocator

/-- The state at the start. -/
def boot (allocator : FrameAllocator) : UnifiedMemory where
  allocator
  regions := .empty
  nextId := 1
  windows := .empty
  nextGpuRes := 100
  backings := []

variable (memory : UnifiedMemory)

def get (id : Nat) : Option UmRegion :=
  memory.regions.items.find? fun region => region.id == id

/-- Allocate a region and its window. -/
def alloc (bytes : Nat) : Except UmError UmRegion × UnifiedMemory :=
  if bytes = 0 then (.error .zeroSize, memory)
  else if maxRegionBytes < bytes then (.error .tooLarge, memory)
  else
    let count := framesForBytes bytes
    match memory.allocator.allocContiguous count with
    | (.error _, _) => (.error .outOfMemory, memory)
    | (.ok phys, allocator) =>
      let rolledBack := freeSpan allocator phys count
      let len := count * frameSize
      let region : UmRegion :=
        { id := memory.nextId, guestPhys := phys, len, frameCount := count, gpuResourceId := none }
      -- The id is used up even when the window cannot be mapped.
      let nextId := min (memory.nextId + 1) (2 ^ 32 - 1)
      match memory.regions.push? region with
      | none => (.error .full, { memory with allocator := rolledBack })
      | some regions =>
        match Iommu.mapIdentity memory.windows phys len with
        | .error _ => (.error .full, { memory with allocator := rolledBack, nextId })
        | .ok windows => (.ok region, { memory with allocator, regions, nextId, windows })

/-- Free a region and its window. -/
def free (id : Nat) : Except UmError Unit × UnifiedMemory :=
  match memory.regions.items.findIdx? fun region => region.id == id with
  | none => (.error .notFound, memory)
  | some place =>
    match memory.regions.swapRemove? place with
    | none => (.error .notFound, memory)
    | some (region, regions) =>
      (.ok (),
        { memory with
          regions
          windows := Iommu.settle memory.windows (Iommu.unmap memory.windows region.guestPhys)
          allocator := freeSpan memory.allocator region.guestPhys region.frameCount })

/-- Fill a region from the CPU: the bytes of the region, which no other function here
reads. -/
def cpuFill (id : Nat) : Except UmError Unit × UnifiedMemory :=
  match memory.get id with
  | none => (.error .notFound, memory)
  | some _ => (.ok (), memory)

/-- Change a region. -/
def updateRegion (regions : BoundedVec UmRegion 8) (id : Nat) (change : UmRegion → UmRegion) :
    BoundedVec UmRegion 8 :=
  ⟨regions.items.modify (regions.items.findIdx fun region => region.id == id) change, by
    rw [List.length_modify]
    exact regions.fits⟩

/-- Multiplication of machine words that stops at the greatest word. -/
def saturatingMul (left right : Nat) : Nat := min (left * right) (2 ^ 64 - 1)

/-- Attach a region to the GPU. -/
def attachGpu (id width height : Nat) (answers : GpuAnswers) : Except UmError Nat × UnifiedMemory :=
  match memory.get id with
  | none => (.error .notFound, memory)
  | some region =>
    let need := saturatingMul (saturatingMul width height) 4
    if need = 0 ∨ region.len < need then (.error .tooLarge, memory)
    else
      match Iommu.translateDma memory.windows region.guestPhys with
      | none => (.error (.gpuAttach "iommu: um region not mapped"), memory)
      | some dma =>
        let resource := memory.nextGpuRes
        let asked :=
          { memory with
            nextGpuRes := (resource + 1) % 2 ^ 32
            backings :=
              if answers.backed then
                { resource, region := id, phys := dma, len := need } :: memory.backings
              else memory.backings }
        match answers.umAttachResource with
        | .error text => (.error (.gpuAttach text), asked)
        | .ok () =>
          (.ok resource,
            { asked with
              regions := updateRegion memory.regions id fun region =>
                { region with gpuResourceId := some resource } })

/-- Move a region to new frames. -/
def migrate (id : Nat) : Except UmError UmRegion × UnifiedMemory :=
  match memory.get id with
  | none => (.error .notFound, memory)
  | some old =>
    match memory.allocator.allocContiguous old.frameCount with
    | (.error _, _) => (.error .outOfMemory, memory)
    | (.ok phys, allocator) =>
      let unmapped := Iommu.settle memory.windows (Iommu.unmap memory.windows old.guestPhys)
      match Iommu.mapIdentity unmapped phys old.len with
      | .error _ =>
        (.error .full,
          { memory with
            windows := Iommu.settle unmapped (Iommu.mapIdentity unmapped old.guestPhys old.len)
            allocator := freeSpan allocator phys old.frameCount })
      | .ok windows =>
        let moved : UnifiedMemory :=
          { memory with
            windows
            regions := updateRegion memory.regions id fun region =>
              { region with guestPhys := phys, gpuResourceId := none }
            allocator := freeSpan allocator old.guestPhys old.frameCount }
        match moved.get id with
        | none => (.error .notFound, moved)
        | some updated => (.ok updated, moved)

/-- A call, with what the device answers. -/
inductive UmCall where
  | alloc (bytes : Nat)
  | cpuFill (id : Nat)
  | attachGpu (id width height : Nat) (answers : GpuAnswers)
  | migrate (id : Nat)
  | free (id : Nat)

/-- One call. -/
def step : UmCall → UnifiedMemory
  | .alloc bytes => (memory.alloc bytes).2
  | .cpuFill id => (memory.cpuFill id).2
  | .attachGpu id width height answers => (memory.attachGpu id width height answers).2
  | .migrate id => (memory.migrate id).2
  | .free id => (memory.free id).2

end UnifiedMemory
end Cdk.Memory

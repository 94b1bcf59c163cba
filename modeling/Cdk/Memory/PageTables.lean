import Cdk.Memory.FrameAllocator

/-!
# Page tables of four levels

Physical memory is a function from word addresses (the byte address over eight) to words, and a
frame is named by its number; entry `idx` of the table in a frame is the word
`512 * frame + idx`.  The walk reads bits 12 to 47 of a virtual address.
-/

namespace Cdk.Memory

/-- Physical memory, word by word. -/
abbrev PhysMemory := Nat → UInt64

/-- Bytes of a page. -/
def pageSize : Nat := 4096

/-- The word of an entry. -/
def entryPtr (table : Nat) (idx : Fin 512) : Nat := 512 * table + idx

/-- Memory with one frame zeroed. -/
def zeroFrame (memory : PhysMemory) (frame : Nat) : PhysMemory := fun word =>
  if word / 512 = frame then 0 else memory word

/-! ## Entries and flags -/

namespace X86Flags

def present : UInt64 := 1
def writable : UInt64 := 2
def userAccessible : UInt64 := 4
def noCache : UInt64 := 0x10
def noExecute : UInt64 := 0x8000000000000000

/-- All bits of the other flags are set. -/
def contains (flags other : UInt64) : Bool := flags &&& other == other

end X86Flags

open X86Flags Function

namespace PageTableEntry

/-- The bits of an entry that hold an address. -/
def addressBits : UInt64 := 0x000ffffffffff000

/-- Whether the whole entry is zero. -/
def isUnused (entry : UInt64) : Bool := entry == 0

/-- The frame that an entry points to. -/
def addr (entry : UInt64) : Nat := (entry &&& addressBits).toNat / 4096

/-- An entry for a frame. -/
def setAddr (frame : Nat) (flags : UInt64) : UInt64 := UInt64.ofNat (4096 * frame) ||| flags

/-- The entry with other flags. -/
def setFlags (entry flags : UInt64) : UInt64 := (entry &&& addressBits) ||| flags

end PageTableEntry

/-- How a page is to be mapped. -/
structure MapFlags where
  writable : Bool
  user : Bool
  noExec : Bool
  noCache : Bool
  deriving Repr, DecidableEq

namespace MapFlags

/-- Data of the user. -/
def userRw : MapFlags where
  writable := true
  user := true
  noExec := true
  noCache := false

/-- The flags of a leaf. -/
def toX86Leaf (flags : MapFlags) : UInt64 :=
  let bits := present
  let bits := if flags.writable then bits ||| X86Flags.writable else bits
  let bits := if flags.user then bits ||| userAccessible else bits
  let bits := if flags.noCache then bits ||| X86Flags.noCache else bits
  if flags.noExec then bits ||| noExecute else bits

/-- The flags of a table. -/
def interior : UInt64 := present ||| X86Flags.writable

/-- The flags of the tables above a leaf. -/
def interiorFor (flags : MapFlags) : UInt64 :=
  if flags.user then interior ||| userAccessible else interior

end MapFlags

/-- Why a call is refused. -/
inductive PagingError where
  | outOfMemory
  | unalignedAddress
  | unalignedPhysical
  | alreadyMapped
  | notMapped
  | outsideUserRegion
  | userSlotInUse
  | notUserAccessible
  | notWritable
  /-- No value of the source's type: `PhysAddr::new` stops the kernel when an address has
  one of the bits 52 to 63. -/
  | physAddrTooLarge
  deriving Repr, DecidableEq

/-- `PhysAddr::new`, for the base address of a frame. -/
def physAddrNew (frame : Nat) : Except PagingError Nat :=
  if frame < 2 ^ 40 then .ok frame else .error .physAddrTooLarge

/-! ## Frame sources -/

/-- What the page tables need of a frame allocator.  A frame is also zeroed when it is handed
out, which `allocZeroed` does. -/
structure FrameSource (σ : Type) where
  alloc : σ → Option Nat × σ

/-- Physical memory and the state of the frame source. -/
structure Machine (σ : Type) where
  memory : PhysMemory
  source : σ

variable {σ : Type} (source : FrameSource σ)

/-- Take a frame from the source and zero it. -/
def allocZeroed (machine : Machine σ) : Option Nat × Machine σ :=
  match source.alloc machine.source with
  | (none, rest) => (none, { machine with source := rest })
  | (some frame, rest) =>
    (some frame, { memory := zeroFrame machine.memory frame, source := rest })

/-! ## The user region -/

/-- Where the user region begins. -/
def userBase : Nat := 0x8000000000

/-- Where the user region ends. -/
def userTop : Nat := 0x10000000000

/-- Whether `[start, start + len)` lies in the user region; the end is added with a check. -/
def isUserRange (start len : Nat) : Bool :=
  if start + len < UInt64.size then decide (userBase ≤ start ∧ start + len ≤ userTop) else false

/-! ## Walks -/

/-- The entries that an address selects, one for each level. -/
structure VirtIndices where
  pml4 : Fin 512
  pdpt : Fin 512
  pd : Fin 512
  pt : Fin 512
  deriving Repr, DecidableEq

/-- Nine bits of an address. -/
def nineBits (addr shift : Nat) : Fin 512 := ⟨addr / 2 ^ shift % 512, Nat.mod_lt _ (by decide)⟩

/-- The indices of an address. -/
def VirtIndices.ofAddr (addr : Nat) : VirtIndices where
  pml4 := nineBits addr 39
  pdpt := nineBits addr 30
  pd := nineBits addr 21
  pt := nineBits addr 12

/-- A hierarchy of page tables: the frame of the top table, and a counter of `usize`. -/
structure PageTableManager where
  pml4 : Nat
  mappedPages : UInt64
  deriving Repr, DecidableEq

namespace PageTableManager

open PageTableEntry

/-- Adopt a top table by its address, of which the page offset is masked out. -/
def fromPml4Phys (pml4Phys : Nat) : PageTableManager where
  pml4 := pml4Phys / 4096
  mappedPages := 0

/-- One level down. -/
def descend (memory : PhysMemory) (parent : Nat) (childIdx : Fin 512) : Except PagingError Nat :=
  let entry := memory (entryPtr parent childIdx)
  if isUnused entry then .error .notMapped else .ok (addr entry)

/-- One level down, where the user may go. -/
def descendUser (memory : PhysMemory) (parent : Nat) (childIdx : Fin 512) :
    Except PagingError Nat :=
  let entry := memory (entryPtr parent childIdx)
  if isUnused entry then .error .notMapped
  else if !contains entry userAccessible then .error .notUserAccessible
  else .ok (addr entry)

/-- One level down; a table that is missing is created, and one that the user is to reach is
opened. -/
def getOrCreate (machine : Machine σ) (parent : Nat) (childIdx : Fin 512) (flags : UInt64) :
    Except PagingError Nat × Machine σ :=
  let ptr := entryPtr parent childIdx
  let entry := machine.memory ptr
  if isUnused entry then
    match allocZeroed source machine with
    | (none, machine) => (.error .outOfMemory, machine)
    | (some child, machine) =>
      match physAddrNew child with
      | .error error => (.error error, machine)
      | .ok child =>
        (.ok child,
          { machine with memory := update machine.memory ptr (setAddr child flags) })
  else if contains flags userAccessible then
    (.ok (addr entry),
      { machine with
        memory := update machine.memory ptr (setFlags entry (entry ||| userAccessible)) })
  else (.ok (addr entry), machine)

variable (tables : PageTableManager)

/-- Map a page, and create the tables above it. -/
def map (machine : Machine σ) (virt phys : Nat) (flags : MapFlags) :
    Except PagingError Unit × PageTableManager × Machine σ :=
  if virt % pageSize ≠ 0 then (.error .unalignedAddress, tables, machine)
  else if phys % pageSize ≠ 0 then (.error .unalignedPhysical, tables, machine)
  else
    let idx := VirtIndices.ofAddr virt
    let interior := flags.interiorFor
    match getOrCreate source machine tables.pml4 idx.pml4 interior with
    | (.error error, machine) => (.error error, tables, machine)
    | (.ok pdpt, machine) =>
      match getOrCreate source machine pdpt idx.pdpt interior with
      | (.error error, machine) => (.error error, tables, machine)
      | (.ok pd, machine) =>
        match getOrCreate source machine pd idx.pd interior with
        | (.error error, machine) => (.error error, tables, machine)
        | (.ok pt, machine) =>
          let ptr := entryPtr pt idx.pt
          if !isUnused (machine.memory ptr) then (.error .alreadyMapped, tables, machine)
          else
            match physAddrNew (phys / pageSize) with
            | .error error => (.error error, tables, machine)
            | .ok frame =>
              (.ok (), { tables with mappedPages := tables.mappedPages + 1 },
                { machine with
                  memory := update machine.memory ptr (setAddr frame flags.toX86Leaf) })

variable (memory : PhysMemory)

/-- The address of the page that an address is mapped to. -/
def translate (virt : Nat) :
    Except PagingError Nat := do
  let idx := VirtIndices.ofAddr virt
  let pdpt ← descend memory tables.pml4 idx.pml4
  let pd ← descend memory pdpt idx.pdpt
  let pt ← descend memory pd idx.pd
  let entry := memory (entryPtr pt idx.pt)
  if isUnused entry then .error .notMapped else .ok (addr entry * pageSize)

/-- `translate` for a page that the user may access at every level. -/
def translateUser (virt : Nat) :
    Except PagingError Nat := do
  if !isUserRange virt 1 then .error .outsideUserRegion
  else
    let idx := VirtIndices.ofAddr virt
    let pdpt ← descendUser memory tables.pml4 idx.pml4
    let pd ← descendUser memory pdpt idx.pdpt
    let pt ← descendUser memory pd idx.pd
    let frame ← descendUser memory pt idx.pt
    .ok (frame * pageSize)

/-- `translateUser` for a page whose leaf is writable. -/
def translateUserWritable (virt : Nat) :
    Except PagingError Nat := do
  let phys ← translateUser tables memory virt
  let idx := VirtIndices.ofAddr virt
  let pdpt ← descend memory tables.pml4 idx.pml4
  let pd ← descend memory pdpt idx.pdpt
  let pt ← descend memory pd idx.pd
  if contains (memory (entryPtr pt idx.pt)) X86Flags.writable then .ok phys
  else .error .notWritable

end PageTableManager

end Cdk.Memory

import Cdk.Library.PointerTree
import Cdk.Memory.PageTables
import Mathlib.Data.Nat.Bitwise
import Mathlib.Tactic.IntervalCases

/-!
# Walks over page tables

The page tables are a tree of pointers in physical memory: a used entry points to the frame
of a table or of a page.  `translate` is the walk along the four indices of an address, and
`map` is a walk that creates what is missing, followed by one write of a leaf.
-/

namespace Cdk.Memory

open PointerTree VirtIndices PageTableEntry X86Flags Function

/-! ## Bits of entries -/

namespace PageTableEntry

theorem or_and_of_disjoint {left right bits : UInt64} (disjoint : right &&& bits = 0) :
    (left ||| right) &&& bits = left &&& bits := by
  apply UInt64.toNat_inj.mp
  rw [UInt64.toNat_and, UInt64.toNat_or, Nat.and_or_distrib_right, ← UInt64.toNat_and right,
    disjoint]
  simp

theorem toNat_addressBits : addressBits.toNat = (2 ^ 40 - 1) <<< 12 := by decide

variable {frame : Nat}

theorem toNat_and_addressBits (small : frame < 2 ^ 40) :
    (UInt64.ofNat (4096 * frame) &&& addressBits).toNat = 4096 * frame := by
  have fits : 4096 * frame < UInt64.size := by
    simp only [UInt64.size]
    omega
  rw [UInt64.toNat_and, UInt64.toNat_ofNat_of_lt' fits, toNat_addressBits]
  have shifted : 4096 * frame = frame <<< 12 := by
    rw [Nat.shiftLeft_eq]
    omega
  apply Nat.eq_of_testBit_eq
  intro place
  rw [Nat.testBit_and, shifted, Nat.testBit_shiftLeft, Nat.testBit_shiftLeft,
    Nat.testBit_two_pow_sub_one]
  by_cases inside : place - 12 < 40
  · grind
  · have high : frame < 2 ^ (place - 12) :=
      small.trans_le (Nat.pow_le_pow_right (by decide) (by omega))
    rw [Nat.testBit_lt_two_pow high]
    simp

theorem addr_setAddr {flags : UInt64} (small : frame < 2 ^ 40)
    (noAddress : flags &&& addressBits = 0) : addr (setAddr frame flags) = frame := by
  rw [addr, setAddr, or_and_of_disjoint noAddress, toNat_and_addressBits small]
  omega

theorem frame_and_flag (small : frame < 2 ^ 40) (noAddress : flag &&& addressBits = 0) :
    UInt64.ofNat (4096 * frame) &&& flag = 0 := by
  have inside : UInt64.ofNat (4096 * frame) &&& addressBits = UInt64.ofNat (4096 * frame) := by
    apply UInt64.toNat_inj.mp
    rw [toNat_and_addressBits small, UInt64.toNat_ofNat_of_lt']
    simp only [UInt64.size]
    omega
  rw [← inside, UInt64.and_assoc, UInt64.and_comm addressBits, noAddress, UInt64.and_zero]

theorem setAddr_and {flags flag : UInt64} (small : frame < 2 ^ 40)
    (noAddress : flag &&& addressBits = 0) : setAddr frame flags &&& flag = flags &&& flag := by
  rw [setAddr, UInt64.or_comm, or_and_of_disjoint (frame_and_flag small noAddress)]

theorem contains_setAddr (small : frame < 2 ^ 40) (noAddress : flag &&& addressBits = 0) :
    contains (setAddr frame flags) flag = contains flags flag := by
  rw [contains, setAddr_and small noAddress, contains]

theorem isUnused_eq_false_of_contains (nonzero : flag ≠ 0) (contains : contains entry flag) :
    isUnused entry = false := by
  apply Bool.eq_false_iff.mpr
  intro unused
  rw [eq_of_beq unused] at contains
  have zero : (0 : UInt64) &&& flag = flag := eq_of_beq contains
  rw [UInt64.zero_and] at zero
  exact nonzero zero.symm

theorem setFlags_or (entry flag : UInt64) : setFlags entry (entry ||| flag) = entry ||| flag := by
  apply UInt64.toBitVec_inj.mp
  ext place
  simp only [setFlags, UInt64.toBitVec_or, UInt64.toBitVec_and, BitVec.getElem_or,
    BitVec.getElem_and]
  grind

theorem addr_or_user (entry : UInt64) : addr (entry ||| userAccessible) = addr entry := by
  rw [addr, or_and_of_disjoint (by decide), addr]

theorem contains_or_self (entry flag : UInt64) : contains (entry ||| flag) flag := by
  have same : (entry ||| flag) &&& flag = flag := by
    apply UInt64.toBitVec_inj.mp
    ext place
    simp only [UInt64.toBitVec_or, UInt64.toBitVec_and, BitVec.getElem_or, BitVec.getElem_and]
    grind
  rw [contains, same, beq_self_eq_true]

end PageTableEntry

namespace MapFlags

variable (flags : MapFlags)

theorem interiorFor_disjoint : flags.interiorFor &&& addressBits = 0 := by
  unfold interiorFor
  split <;> decide

theorem contains_interiorFor : contains flags.interiorFor present ∧
    contains flags.interiorFor userAccessible = flags.user := by
  unfold interiorFor
  cases flags.user <;> decide

end MapFlags

/-! ## The tree -/

theorem entryPtr_div (table : Nat) (idx : Fin 512) : entryPtr table idx / 512 = table := by
  rw [entryPtr]
  omega

/-- Page tables as a pointer tree. -/
def layout : Layout Nat UInt64 Nat (Fin 512) where
  locate := entryPtr
  decode entry := if PageTableEntry.isUnused entry then none else some (PageTableEntry.addr entry)
  locate_inj := by
    intro node other index place same
    have nodes := congrArg (· / 512) same
    simp only [entryPtr_div] at nodes
    subst nodes
    refine ⟨rfl, Fin.ext ?_⟩
    simp only [entryPtr] at same
    omega

theorem decode_zero : layout.decode 0 = none := rfl

theorem decode_of_contains (nonzero : flag ≠ 0) (contains : contains entry flag) :
    layout.decode entry = some (addr entry) := by
  have used := isUnused_eq_false_of_contains nonzero contains
  simp only [layout, used, Bool.false_eq_true, if_false]

theorem decode_setAddr (small : frame < 2 ^ 40) (noAddress : flags &&& addressBits = 0)
    (present : contains flags present) :
    layout.decode (setAddr frame flags) = some frame := by
  rw [decode_of_contains (by decide : X86Flags.present ≠ 0), addr_setAddr small noAddress]
  rw [contains_setAddr small (by decide), present]

theorem decode_or_user (used : isUnused entry = false) :
    layout.decode (setFlags entry (entry ||| userAccessible)) = layout.decode entry := by
  have stays := isUnused_eq_false_of_contains (by decide) (contains_or_self entry userAccessible)
  simp only [layout, setFlags_or, used, stays, Bool.false_eq_true, if_false, addr_or_user]

theorem zeroFrame_outside (outside : ∀ idx, address ≠ layout.locate frame idx) :
    zeroFrame memory frame address = memory address := by
  apply if_neg
  intro inside
  apply outside ⟨address % 512, Nat.mod_lt _ (by decide)⟩
  simp only [layout, entryPtr]
  omega

theorem zeroFrame_entry (memory : PhysMemory) (frame : Nat) (idx : Fin 512) :
    zeroFrame memory frame (layout.locate frame idx) = 0 :=
  if_pos (entryPtr_div frame idx)

/-! ## Addresses as paths -/

def tablePath (virt : Nat) : List (Fin 512) :=
  [(ofAddr virt).pml4, (ofAddr virt).pdpt, (ofAddr virt).pd]

def pagePath (virt : Nat) : List (Fin 512) := tablePath virt ++ [(ofAddr virt).pt]

theorem isUserRange_iff : isUserRange start len ↔ userBase ≤ start ∧ start + len ≤ userTop := by
  unfold isUserRange
  split
  · exact decide_eq_true_iff
  next large =>
    simp only [Bool.false_eq_true, false_iff, not_and]
    intro _ fits
    simp only [userTop] at fits
    simp only [UInt64.size] at large
    omega

namespace PageTableManager

variable {tables : PageTableManager} {memory : PhysMemory} {virt : Nat}

theorem descend_eq (parent : Nat) (idx : Fin 512) : descend memory parent idx =
    (layout.decode (memory (layout.locate parent idx))).elim (.error .notMapped) .ok := by
  simp only [descend, layout]
  split <;> rfl

theorem elim_bind_except (found : Option α) (next : α → Except PagingError β) :
    (found.elim (.error error) .ok >>= next) = found.elim (.error error) next := by
  cases found <;> rfl

theorem elim_option_bind {default : γ} (found : Option α) (step : α → Option β) (next : β → γ) :
    (found.bind step).elim default next = found.elim default fun value =>
      (step value).elim default next := by
  cases found <;> rfl

variable (tables : PageTableManager)

/-- The walk of `translate`. -/
theorem translate_eq (memory : PhysMemory) (virt : Nat) : tables.translate memory virt =
    (follow layout memory tables.pml4 (pagePath virt)).elim (.error .notMapped)
      fun frame => .ok (frame * pageSize) := by
  simp only [translate, descend_eq, pagePath, tablePath, List.cons_append,
    List.nil_append, follow_cons, follow_nil, elim_bind_except, elim_option_bind,
    Option.elim_some]
  congr 1
  funext pdpt
  congr 1
  funext pd
  congr 1
  funext pt
  simp only [layout]
  split <;> rfl

variable {σ : Type} (source : FrameSource σ)

/-- What one step of the creating walk does: it keeps the child of a used entry, finds no
frame, or hangs a blank table into the unused entry. -/
theorem getOrCreate_cases (machine : Machine σ) (parent : Nat) (idx : Fin 512) (flags : UInt64) :
    (∃ child entry, layout.decode (machine.memory (layout.locate parent idx)) = some child ∧
      layout.decode entry = some child ∧ (contains flags userAccessible →
        contains entry userAccessible) ∧
      (entry = machine.memory (layout.locate parent idx) ∨
        entry = machine.memory (layout.locate parent idx) ||| userAccessible) ∧
      getOrCreate source machine parent idx flags = (.ok child, { machine with
            memory := update machine.memory (layout.locate parent idx) entry })) ∨
    machine.memory (layout.locate parent idx) = 0 ∧
      ((∃ rest, source.alloc machine.source = (none, rest) ∧
        getOrCreate source machine parent idx flags =
          (.error .outOfMemory, { machine with source := rest })) ∨
      ∃ child rest, source.alloc machine.source = (some child, rest) ∧ (2 ^ 40 ≤ child ∧
          getOrCreate source machine parent idx flags =
            (.error .physAddrTooLarge, ⟨zeroFrame machine.memory child, rest⟩) ∨
        child < 2 ^ 40 ∧ getOrCreate source machine parent idx flags = (.ok child,
              ⟨update (zeroFrame machine.memory child) (layout.locate parent idx)
                (setAddr child flags), rest⟩))) := by
  cases unused : isUnused (machine.memory (layout.locate parent idx)) with
  | false =>
    left
    have decoded : layout.decode (machine.memory (layout.locate parent idx)) =
        some (addr (machine.memory (layout.locate parent idx))) := by
      simp only [layout] at unused ⊢
      rw [if_neg (by rw [unused]; exact Bool.false_ne_true)]
    unfold getOrCreate
    cases user : contains flags userAccessible with
    | false =>
      refine ⟨_, machine.memory (layout.locate parent idx), decoded, decoded, nofun, .inl rfl, ?_⟩
      rw [update_eq_self]
      simp only [layout] at unused ⊢
      simp only [unused, Bool.false_eq_true, if_false]
    | true =>
      refine ⟨_, _, decoded, (decode_or_user unused).trans decoded, fun _ => ?_,
        .inr (setFlags_or _ _), ?_⟩
      · rw [setFlags_or]
        exact contains_or_self _ _
      · simp only [layout] at unused ⊢
        simp only [unused, Bool.false_eq_true, if_false, if_true]
  | true =>
    right
    refine ⟨eq_of_beq unused, ?_⟩
    unfold getOrCreate allocZeroed physAddrNew
    simp only [layout] at unused ⊢
    simp only [unused, if_true]
    obtain ⟨handed, rest⟩ := source.alloc machine.source
    cases handed with
    | none => exact .inl ⟨rest, rfl, rfl⟩
    | some child =>
      right
      refine ⟨child, rest, rfl, ?_⟩
      by_cases small : child < 2 ^ 40
      · right
        simp only [if_pos small]
        exact ⟨small, trivial⟩
      · left
        simp only [if_neg small]
        exact ⟨Nat.le_of_not_lt small, trivial⟩

/-- The creating walk along a path. -/
def createTables (flags : UInt64) :
    Machine σ → Nat → List (Fin 512) → Except PagingError Nat × Machine σ
  | machine, table, [] => (.ok table, machine)
  | machine, table, idx :: rest =>
    match getOrCreate source machine table idx flags with
    | (.error error, machine) => (.error error, machine)
    | (.ok child, machine) => createTables flags machine child rest

/-- Map a page in its last table. -/
def writeLeaf (machine : Machine σ) (pt : Nat) (idx : Fin 512) (phys : Nat) (flags : MapFlags) :
    Except PagingError Unit × PageTableManager × Machine σ :=
  if !isUnused (machine.memory (entryPtr pt idx)) then (.error .alreadyMapped, tables, machine)
  else
    match physAddrNew (phys / pageSize) with
    | .error error => (.error error, tables, machine)
    | .ok frame =>
      (.ok (), { tables with mappedPages := tables.mappedPages + 1 },
        { machine with
          memory := update machine.memory (entryPtr pt idx)
            (setAddr frame flags.toX86Leaf) })

theorem map_eq (machine : Machine σ) (virt phys : Nat) (flags : MapFlags) :
    tables.map source machine virt phys flags =
      if virt % pageSize ≠ 0 then (.error .unalignedAddress, tables, machine)
      else if phys % pageSize ≠ 0 then (.error .unalignedPhysical, tables, machine)
      else
        match createTables source flags.interiorFor machine tables.pml4 (tablePath virt) with
        | (.error error, machine) => (.error error, tables, machine)
        | (.ok pt, machine) =>
          writeLeaf tables machine pt (ofAddr virt).pt phys flags := by
  unfold map
  split
  · rfl
  split
  · rfl
  simp only [tablePath, createTables]
  obtain ⟨pdpt | pdpt, after⟩ := getOrCreate source machine tables.pml4 _ flags.interiorFor
  · rfl
  dsimp only
  obtain ⟨pd | pd, after⟩ := getOrCreate source after pdpt _ flags.interiorFor
  · rfl
  dsimp only
  obtain ⟨pt | pt, after⟩ := getOrCreate source after pd _ flags.interiorFor
  · rfl
  · rfl

end PageTableManager

end Cdk.Memory

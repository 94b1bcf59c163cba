import Cdk.Memory.PageGrowth

/-!
# The walk of the processor

The processor reads more of an entry than the software walk does: an entry without the
present bit maps nothing, whatever else it holds, and in the two middle levels the size bit
makes an entry a page of 1 GiB or of 2 MiB.  Over entries that are unused, or present and
without the size bit, the two walks agree.
-/

namespace Cdk.Memory

open PointerTree PageTableManager PageTableEntry X86Flags

namespace X86Flags

/-- The size bit. -/
def hugePage : UInt64 := 0x80

end X86Flags

namespace Processor

variable (memory : PhysMemory) (virt : Nat)

/-- The entry for an address in a table of some level. -/
def entry (level table : Nat) : UInt64 := memory (entryPtr table (nineBits virt (12 + 9 * level)))

/-- The entry is a page itself.  In a PT the bit has another meaning. -/
def isLarge (level : Nat) (entry : UInt64) : Bool :=
  contains entry hugePage && level != 0

/-- The frame that the processor uses for an address, from a table with some levels from it
on; nothing for a page fault. -/
def walk : Nat → Nat → Option Nat
  | 0, frame => some frame
  | level + 1, table =>
    let found := entry memory virt level table
    if !contains found present then none
    else if isLarge level found then
      -- The bit is reserved in a PML4.
      if level = 3 then none
      else some (addr found / 512 ^ level * 512 ^ level + virt / 4096 % 512 ^ level)
    else walk level (addr found)

/-- The processor reads an entry of the table in the frame. -/
def Reads : Nat → Nat → Nat → Prop
  | 0, _, _ => False
  | level + 1, table, frame =>
    frame = table ∨ contains (entry memory virt level table) present ∧
      isLarge level (entry memory virt level table) = false ∧
      Reads level (addr (entry memory virt level table)) frame

/-- On the path of the address every entry is unused, or present and no large page. -/
def Plain : Nat → Nat → Prop
  | 0, _ => True
  | level + 1, table =>
    isUnused (entry memory virt level table) ∨
      contains (entry memory virt level table) present ∧
      isLarge level (entry memory virt level table) = false ∧
      Plain level (addr (entry memory virt level table))

instance decidablePlain : ∀ level table, Decidable (Plain memory virt level table)
  | 0, _ => isTrue trivial
  | level + 1, table =>
    have := decidablePlain level (addr (entry memory virt level table))
    inferInstanceAs (Decidable (_ ∨ _ ∧ _ ∧ _))

instance decidableReads : ∀ level table frame, Decidable (Reads memory virt level table frame)
  | 0, _, _ => isFalse id
  | level + 1, table, frame =>
    have := decidableReads level (addr (entry memory virt level table)) frame
    inferInstanceAs (Decidable (_ ∨ _ ∧ _ ∧ _))

/-- The indices of an address below a level. -/
def path : Nat → List (Fin 512)
  | 0 => []
  | level + 1 => nineBits virt (12 + 9 * level) :: path level

/-- The indices of an address below a level, without the one in the PT. -/
def tablesPath : Nat → List (Fin 512)
  | 0 | 1 => []
  | level + 2 => nineBits virt (12 + 9 * (level + 1)) :: tablesPath (level + 1)

variable {memory virt} {level table : Nat}

theorem follow_eq_walk (plain : Plain memory virt level table) :
    follow layout memory table (path virt level) = walk memory virt level table := by
  induction level generalizing table with
  | zero => rfl
  | succ level ih =>
    rw [path, follow_cons, walk]
    obtain unused | ⟨present, small, rest⟩ := plain
    · have zero : entry memory virt level table = 0 := eq_of_beq unused
      rw [show memory (layout.locate table _) = entry memory virt level table from rfl, zero,
        decode_zero]
      rfl
    · rw [show memory (layout.locate table _) = entry memory virt level table from rfl,
        decode_of_contains (by decide) present, Option.bind_some, ih rest]
      simp only [present, small, Bool.not_true, Bool.false_eq_true, if_false]

theorem reads_of_met (plain : Plain memory virt (level + 1) table)
    (met : Met memory table (tablesPath virt (level + 1)) frame) :
    Reads memory virt (level + 1) table frame := by
  induction level generalizing table with
  | zero =>
    obtain ⟨early, late, split, walk⟩ := met
    obtain ⟨rfl, -⟩ := List.append_eq_nil_iff.mp split.symm
    exact .inl (Option.some.inj walk).symm
  | succ level ih =>
    obtain ⟨early, late, split, walk⟩ := met
    cases early with
    | nil => exact .inl (Option.some.inj walk).symm
    | cons idx early =>
      obtain ⟨rfl, rest⟩ := List.cons.inj split
      rw [follow_cons, show memory (layout.locate table _) = entry memory virt (level + 1) table
        from rfl] at walk
      obtain unused | ⟨present, small, below⟩ := plain
      · rw [show entry memory virt (level + 1) table = 0 from eq_of_beq unused, decode_zero] at walk
        cases walk
      · rw [decode_of_contains (by decide) present, Option.bind_some] at walk
        exact .inr ⟨present, small, ih below ⟨early, late, rest, walk⟩⟩

end Processor

/-! ## The frames that are handed out -/

section Logged

variable {σ : Type} (source : FrameSource σ)

/-- A frame source that writes down the frames it hands out. -/
def FrameSource.logged : FrameSource (σ × List Nat) where
  alloc state :=
    let (frame, rest) := source.alloc state.1
    (frame, rest, state.2 ++ frame.toList)

/-- A machine whose frame source has written down some frames. -/
def Machine.logging (machine : Machine σ) (log : List Nat) : Machine (σ × List Nat) :=
  ⟨machine.memory, machine.source, log⟩

variable {source}

/-- The log grows by the frames that are handed out. -/
theorem Hands.log
    {state last : σ × List Nat}
    {frames : List Nat}
    (hands : Hands source.logged state frames last) :
    last.2 = state.2 ++ frames := by
  induction hands with
  | done state => rw [List.append_nil]
  | exhausted none _ ih =>
    obtain ⟨nothing, rfl⟩ := Prod.mk.inj none
    simpa [nothing] using ih
  | next handed _ ih =>
    obtain ⟨something, rfl⟩ := Prod.mk.inj handed
    simpa [something] using ih

theorem allocZeroed_logging (machine : Machine σ) (log : List Nat) :
    allocZeroed source.logged (machine.logging log) =
      ((allocZeroed source machine).1,
        (allocZeroed source machine).2.logging (log ++ (allocZeroed source machine).1.toList)) := by
  have logs : source.logged.alloc (machine.logging log).source =
      ((source.alloc machine.source).1, (source.alloc machine.source).2,
        log ++ (source.alloc machine.source).1.toList) := rfl
  rw [allocZeroed, allocZeroed, logs]
  rcases source.alloc machine.source with ⟨_ | child, rest⟩
  · simp [Machine.logging]
  · simp [Machine.logging]

/-- Logging changes nothing else about a step of a walk. -/
theorem getOrCreate_logging
    (machine : Machine σ)
    (log : List Nat)
    (parent : Nat)
    (idx : Fin 512)
    (flags : UInt64) :
    ∃ log', getOrCreate source.logged (machine.logging log) parent idx flags =
      ((getOrCreate source machine parent idx flags).1,
        (getOrCreate source machine parent idx flags).2.logging log') := by
  have same : (machine.logging log).memory = machine.memory := rfl
  by_cases unused : isUnused (machine.memory (entryPtr parent idx)) = true
  · simp only [getOrCreate, same, if_pos unused, allocZeroed_logging]
    rcases allocZeroed source machine with ⟨_ | child, rest⟩
    · exact ⟨_, rfl⟩
    dsimp only
    rcases physAddrNew child with error | child
    · exact ⟨_, rfl⟩
    · exact ⟨_, rfl⟩
  · simp only [getOrCreate, same, if_neg unused]
    by_cases user : contains flags userAccessible = true
    · simp only [if_pos user]
      exact ⟨log, rfl⟩
    · simp only [if_neg user]
      exact ⟨log, rfl⟩

theorem createTables_logging
    (flags : UInt64)
    (machine : Machine σ)
    (log : List Nat)
    (parent : Nat)
    (rest : List (Fin 512)) :
    ∃ log', createTables source.logged flags (machine.logging log) parent rest =
      ((createTables source flags machine parent rest).1,
        (createTables source flags machine parent rest).2.logging log') := by
  induction rest generalizing machine log parent with
  | nil => exact ⟨log, rfl⟩
  | cons idx rest ih =>
    obtain ⟨log', step⟩ := getOrCreate_logging machine log parent idx flags
    rw [createTables, createTables, step]
    rcases getOrCreate source machine parent idx flags with ⟨error | child, between⟩
    · exact ⟨log', rfl⟩
    · exact ih between log' child

/-- Logging changes nothing else about `map`. -/
theorem map_logging
    (tables : PageTableManager)
    (machine : Machine σ)
    (log : List Nat)
    (virt phys : Nat)
    (flags : MapFlags) :
    ∃ log', tables.map source.logged (machine.logging log) virt phys flags =
      ((tables.map source machine virt phys flags).1,
        (tables.map source machine virt phys flags).2.1,
        (tables.map source machine virt phys flags).2.2.logging log') := by
  rw [map_eq, map_eq]
  split
  · exact ⟨log, rfl⟩
  split
  · exact ⟨log, rfl⟩
  obtain ⟨log', walk⟩ :=
    createTables_logging flags.interiorFor machine log tables.pml4 (tablePath virt)
  rw [walk]
  rcases createTables source flags.interiorFor machine tables.pml4 (tablePath virt) with
    ⟨error | pt, after⟩
  · exact ⟨log', rfl⟩
  refine ⟨log', ?_⟩
  have same : (after.logging log').memory = after.memory := rfl
  by_cases used : (!isUnused (after.memory (entryPtr pt (VirtIndices.ofAddr virt).pt))) = true
  · simp only [writeLeaf, same, if_pos used]
  · simp only [writeLeaf, same, if_neg used]
    rcases physAddrNew (phys / pageSize) with error | frame
    · rfl
    · rfl

end Logged

namespace PageTableManager

/-- The frames that `map` is handed. -/
def mapAllocates {σ : Type} (tables : PageTableManager) (source : FrameSource σ)
    (machine : Machine σ) (virt phys : Nat) (flags : MapFlags) : List Nat :=
  (tables.map source.logged (machine.logging []) virt phys flags).2.2.source.2

/-- Over entries that are unused, or present and no large pages, an adopted hierarchy is read
as the processor reads it, and `map` writes only into its tables and into frames that it is
handed. -/
theorem walk_agrees_with_processor
    {σ : Type}
    (source : FrameSource σ)
    (machine : Machine σ)
    (pml4Phys virt : Nat)
    (plain : Processor.Plain machine.memory virt 4 (fromPml4Phys pml4Phys).pml4) :
    (fromPml4Phys pml4Phys).translate machine.memory virt =
      ((Processor.walk machine.memory virt 4 (fromPml4Phys pml4Phys).pml4).elim
        (.error .notMapped) fun frame => .ok (frame * pageSize)) ∧
    ∀ phys flags word,
      ((fromPml4Phys pml4Phys).map source machine virt phys flags).2.2.memory word ≠
        machine.memory word →
      Processor.Reads machine.memory virt 4 (fromPml4Phys pml4Phys).pml4 (word / 512) ∨
        word / 512 ∈ (fromPml4Phys pml4Phys).mapAllocates source machine virt phys flags := by
  constructor
  · rw [translate_eq, ← Processor.follow_eq_walk plain]
    rfl
  · intro phys flags word changed
    obtain ⟨log, logged⟩ :=
      @map_logging σ source (fromPml4Phys pml4Phys) machine [] virt phys flags
    obtain ⟨new, -, handed, writes⟩ := map_writes logged
    obtain met | isNew := writes word changed
    · exact .inl (Processor.reads_of_met plain met)
    · right
      rw [mapAllocates, logged, handed.log, Machine.logging, List.nil_append]
      exact isNew

/-- A hierarchy that maps page 0 of the address space, by four tables, to frame 9. -/
def smallPages : PhysMemory := fun word =>
  if word = 512 then 0x2003 else if word = 1024 then 0x3003 else if word = 1536 then 0x4003
  else if word = 2048 then 0x9003 else 0

/-- A source with a list of frames. -/
def listedFrames : FrameSource (List Nat) where
  alloc
    | [] => (none, [])
    | frame :: rest => (some frame, rest)

/-- The first page after the 2 MiB of the hierarchy's only PT: `map` is handed frame 7 for
another PT, and not frame 8. -/
theorem walk_agrees_with_processor_sample :
    Processor.Plain smallPages 0x200000 4 1 ∧
    (fromPml4Phys 0x1000).translate smallPages 0x200000 =
      ((Processor.walk smallPages 0x200000 4 1).elim (.error .notMapped) fun frame =>
        .ok (frame * pageSize)) ∧
    (fromPml4Phys 0x1000).mapAllocates listedFrames ⟨smallPages, [7, 8]⟩ 0x200000 0x5000 .userRw =
      [7] ∧
    ∀ word ∈ [1537, 3584],
      Processor.Reads smallPages 0x200000 4 1 (word / 512) ∨
        word / 512 ∈ (fromPml4Phys 0x1000).mapAllocates listedFrames ⟨smallPages, [7, 8]⟩
          0x200000 0x5000 .userRw := by
  have plain : Processor.Plain smallPages 0x200000 4 1 := by
    decide +kernel
  have agrees :=
    walk_agrees_with_processor listedFrames ⟨smallPages, [7, 8]⟩ 0x1000 0x200000 plain
  have changed : ∀ word ∈ [1537, 3584],
      ((fromPml4Phys 0x1000).map listedFrames ⟨smallPages, [7, 8]⟩ 0x200000 0x5000
        .userRw).2.2.memory word ≠ smallPages word := by
    decide +kernel
  refine ⟨plain, agrees.1, by decide +kernel, ?_⟩
  intro word listed
  exact agrees.2 0x5000 .userRw word (changed word listed)

/-- A hierarchy that maps the first 2 MiB as one page, to frame 512. -/
def largePage : PhysMemory := fun word =>
  if word = 512 then 0x2003 else if word = 1024 then 0x3003 else if word = 1536 then 0x200083
  else 0

/-- The condition is not necessary: the data in a page of 2 MiB may happen to read as the entry
that the page's own frame would have. -/
example :
    let memory := Function.update largePage (512 * 512) 0x200003
    ¬ Processor.Plain memory 0 4 1 ∧
      (fromPml4Phys 0x1000).translate memory 0 = .ok 0x200000 ∧
      Processor.walk memory 0 4 1 = some 0x200 := by
  decide +kernel

/-- A page of 2 MiB is not seen, and `map` takes the memory behind it for a page table and
writes into it; and an entry that is not present is taken for a mapping. -/
theorem large_page_taken_for_table :
    (fromPml4Phys 0x1000).translate largePage 0 = .error .notMapped ∧
    Processor.walk largePage 0 4 1 = some 512 ∧
    ((fromPml4Phys 0x1000).map listedFrames ⟨largePage, [7]⟩ 0 0x9000 .userRw).2.2.memory
        (512 * 512) ≠ largePage (512 * 512) ∧
    ¬ Processor.Reads largePage 0 4 1 512 ∧
    512 ∉ (fromPml4Phys 0x1000).mapAllocates listedFrames ⟨largePage, [7]⟩ 0 0x9000 .userRw ∧
    (fromPml4Phys 0x1000).translate (Function.update smallPages 2048 0x9002) 0 = .ok 0x9000 ∧
    Processor.walk (Function.update smallPages 2048 0x9002) 0 4 1 = none := by
  decide +kernel

end PageTableManager

end Cdk.Memory

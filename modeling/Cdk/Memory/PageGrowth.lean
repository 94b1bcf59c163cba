import Cdk.Memory.PageWalks

/-!
# What a creating walk changes

The creating walk of `map` writes only into the tables that it meets and into the frames that
it was handed.  Nothing is assumed of the tables: they may be shared, and the source of frames may
hand out a frame that is in use.
-/

namespace Cdk.Memory

open PointerTree PageTableManager Function

variable {σ : Type} (source : FrameSource σ)

/-- A sequence of allocations: the frames that were handed out, and the state after them. -/
inductive Hands : σ → List Nat → σ → Prop
  | done (state : σ) : Hands state [] state
  | exhausted {state rest last : σ} {frames : List Nat}
    (none : source.alloc state = (none, rest)) (more : Hands rest frames last) :
    Hands state frames last
  | next {state rest last : σ} {frame : Nat} {frames : List Nat}
    (handed : source.alloc state = (some frame, rest)) (more : Hands rest frames last) :
    Hands state (frame :: frames) last

theorem Hands.append {source : FrameSource σ} {state between last : σ} {frames more : List Nat}
    (first : Hands source state frames between) (second : Hands source between more last) :
    Hands source state (frames ++ more) last := by
  induction first with
  | done => exact second
  | exhausted none _ step => exact .exhausted none (step second)
  | next handed _ step => exact .next handed (step second)

/-- The frames that the source hands out next. -/
def supplies : Nat → σ → List Nat
  | 0, _ => []
  | count + 1, state =>
    match source.alloc state with
    | (none, _) => []
    | (some frame, rest) => frame :: supplies count rest

/-! ## The creating walk -/

section Create

variable {source} {count : Nat} {machine : Machine σ}

theorem supplies_some {frame : Nat} {rest : σ}
    (handed : source.alloc machine.source = (some frame, rest)) :
    supplies source (count + 1) machine.source = frame :: supplies source count rest := by
  rw [supplies, handed]

/-- Flags of an interior entry. -/
structure Interior (flags : UInt64) : Prop where
  noAddress : flags &&& PageTableEntry.addressBits = 0
  present : X86Flags.contains flags X86Flags.present

theorem interior_interiorFor (flags : MapFlags) : Interior flags.interiorFor :=
  ⟨flags.interiorFor_disjoint, flags.contains_interiorFor.1⟩

theorem supplies_sublist (state : σ) :
    (supplies source count state).Sublist (supplies source (count + 1) state) := by
  induction count generalizing state with
  | zero => exact List.nil_sublist _
  | succ count step =>
    rw [supplies, supplies]
    split
    · exact List.Sublist.slnil
    · exact (step _).cons_cons _

end Create

/-! ## What the creating walk writes -/

section Writes

variable {source} {memory : PhysMemory} {machine after : Machine σ} {parent : Nat}
  {idx : Fin 512} {rest : List (Fin 512)} {flags : UInt64} {result : Except PagingError Nat}

/-- A table that the walk along a path meets. -/
def Met (memory : PhysMemory) (root : Nat) (path : List (Fin 512)) (table : Nat) : Prop :=
  ∃ early late, path = early ++ late ∧ follow layout memory root early = some table

theorem Met.head (memory : PhysMemory) (root : Nat) (path : List (Fin 512)) :
    Met memory root path root :=
  ⟨[], path, rfl, rfl⟩

theorem Met.cons {child table : Nat}
    (decoded : layout.decode (memory (layout.locate parent idx)) = some child)
    (met : Met memory child rest table) : Met memory parent (idx :: rest) table := by
  obtain ⟨early, late, rfl, found⟩ := met
  refine ⟨idx :: early, late, rfl, ?_⟩
  rw [follow_cons, decoded, Option.bind_some, found]

/-- The words that changed lie in frames with a property, or in the frames that were handed
out; and so does the table that the walk ends in. -/
structure WritesIn (source : FrameSource σ) (allowed : Nat → Prop) (before after : Machine σ)
    (result : Except PagingError Nat) (frames : List Nat) : Prop where
  handed : Hands source before.source frames after.source
  words : ∀ word, after.memory word ≠ before.memory word →
    allowed (word / 512) ∨ word / 512 ∈ frames
  ends : ∀ table, result = .ok table → allowed table ∨ table ∈ frames

/-- The entries of the frames point to the frames only. -/
def Closed (memory : PhysMemory) (frames : List Nat) : Prop :=
  ∀ frame ∈ frames, ∀ idx child,
    layout.decode (memory (layout.locate frame idx)) = some child → child ∈ frames

variable {entry : UInt64}

theorem update_ne {address word : Nat}
    (changed : update memory address entry word ≠ memory word) : word = address := by
  by_contra other
  exact changed (update_of_ne other _ _)

theorem zeroFrame_ne {frame word : Nat} (changed : zeroFrame memory frame word ≠ memory word) :
    word / 512 = frame := by
  by_contra other
  exact changed (if_neg other)

/-- A step before a walk, and the frames that it was handed. -/
theorem WritesIn.prepend
    {allowed wider : Nat → Prop}
    {before between : Machine σ}
    {new frames : List Nat}
    (walk : WritesIn source wider between after result frames)
    (handed : Hands source before.source new between.source)
    (writes : ∀ word, between.memory word ≠ before.memory word →
      allowed (word / 512) ∨ word / 512 ∈ new)
    (narrow : ∀ frame, wider frame → allowed frame ∨ frame ∈ new) :
    WritesIn source allowed before after result (new ++ frames) := by
  have widen : ∀ frame, wider frame ∨ frame ∈ frames →
      allowed frame ∨ frame ∈ new ++ frames := by
    rintro frame (wide | later)
    · exact (narrow frame wide).imp_right (List.mem_append_left _)
    · exact .inr (List.mem_append_right _ later)
  refine ⟨handed.append walk.handed, ?_, fun table same => widen _ (walk.ends table same)⟩
  intro word changed
  by_cases late : after.memory word = between.memory word
  · exact (writes word (late ▸ changed)).imp_right (List.mem_append_left _)
  · exact widen _ (walk.words word late)

/-- A blank table that was hung into an entry, and the words that this changed. -/
theorem hang_writes {child word : Nat}
    (changed : update (zeroFrame memory child) (layout.locate parent idx) entry word ≠
      memory word) : word / 512 = parent ∨ word / 512 = child := by
  by_cases here : word = layout.locate parent idx
  · left
    rw [here]
    exact entryPtr_div parent idx
  · right
    rw [update_of_ne here] at changed
    exact zeroFrame_ne changed

variable {frames : List Nat}

theorem Closed.update (closed : Closed memory frames) {child : Nat}
    (decoded : layout.decode (memory (layout.locate parent idx)) = some child)
    (keeps : layout.decode entry = some child) :
    Closed (update memory (layout.locate parent idx) entry) frames := by
  intro frame mem place other found
  apply closed frame mem place other
  by_cases same : layout.locate frame place = layout.locate parent idx
  · rw [same, update_self, keeps] at found
    rw [same, decoded, found]
  · rwa [update_of_ne same] at found

theorem Closed.hang (closed : Closed memory frames) {child : Nat}
    (decoded : layout.decode entry = some child) :
    Closed (Function.update (zeroFrame memory child) (layout.locate parent idx) entry)
      (child :: frames) := by
  intro frame mem place other found
  by_cases same : layout.locate frame place = layout.locate parent idx
  · rw [same, update_self, decoded] at found
    exact Option.some.inj found ▸ List.mem_cons_self
  rw [update_of_ne same] at found
  by_cases blank : frame = child
  · rw [blank, zeroFrame_entry, decode_zero] at found
    cases found
  have old : zeroFrame memory child (layout.locate frame place) =
      memory (layout.locate frame place) :=
    zeroFrame_outside fun _ same => blank (layout.locate_inj same).1
  rw [old] at found
  exact List.mem_cons_of_mem _
    (closed frame ((List.mem_cons.mp mem).resolve_left blank) place other found)

/-- The walk stays in allowed tables until it meets a closed set of frames, to which it adds
every frame that it is handed. -/
theorem createTables_writes_in (interior : Interior flags) {allowed : Nat → Prop}
    (closed : Closed machine.memory frames)
    (start : parent ∈ frames ∨ ∀ table, Met machine.memory parent rest table → allowed table)
    (out : createTables source flags machine parent rest = (result, after)) :
    ∃ new ⊆ supplies source rest.length machine.source,
      WritesIn source (fun frame => allowed frame ∨ frame ∈ frames) machine after result new := by
  induction rest generalizing machine parent frames with
  | nil =>
    cases out
    refine ⟨[], List.nil_subset _, .done _, fun word changed => absurd rfl changed, ?_⟩
    rintro _ ⟨⟩
    exact .inl (start.symm.imp_left fun met => met parent (Met.head _ _ _))
  | cons idx rest step =>
    rw [createTables] at out
    have starts : allowed parent ∨ parent ∈ frames :=
      start.symm.imp_left fun met => met parent (Met.head _ _ _)
    obtain ⟨child, entry, decoded, keeps, -, -, found⟩ | ⟨-, noFrame | frame⟩ :=
      getOrCreate_cases source machine parent idx flags
    · rw [found] at out
      have start' : child ∈ frames ∨ ∀ table,
          Met (update machine.memory (layout.locate parent idx) entry) child rest table →
            allowed table := by
        refine start.imp (fun inside => closed parent inside idx child decoded) ?_
        rintro met table ⟨early, late, rfl, walk⟩
        rw [follow_relabel (keeps.trans decoded.symm)] at walk
        exact met table (Met.cons decoded ⟨early, late, rfl, walk⟩)
      obtain ⟨new, few, walk⟩ := step (closed.update decoded keeps) start' out
      have none : Hands source machine.source [] machine.source := .done _
      refine ⟨_, List.Subset.trans few (supplies_sublist _).subset,
        walk.prepend none ?_ fun _ => .inl⟩
      intro word changed
      have located : word / 512 = parent := by
        rw [update_ne changed]
        exact entryPtr_div parent idx
      exact .inl (located ▸ starts)
    · obtain ⟨left, handed, found⟩ := noFrame
      rw [found] at out
      cases out
      refine ⟨[], List.nil_subset _, .exhausted handed (.done _),
        fun word changed => absurd rfl changed, ?_⟩
      rintro _ ⟨⟩
    · obtain ⟨child, left, handed, ⟨-, found⟩ | ⟨small, found⟩⟩ := frame
      all_goals
        rw [found] at out
        rw [List.length_cons, supplies_some handed]
      · cases out
        refine ⟨[child], ?_, .next handed (.done _), fun word changed => .inr ?_, ?_⟩
        · exact List.cons_subset_cons _ (List.nil_subset _)
        · exact List.mem_singleton.mpr (zeroFrame_ne changed)
        · rintro _ ⟨⟩
      obtain ⟨new, few, walk⟩ :=
        step (closed.hang (decode_setAddr small interior.noAddress interior.present))
          (.inl List.mem_cons_self) out
      refine ⟨child :: new, List.cons_subset_cons _ few, ?_⟩
      refine walk.prepend (.next handed (.done _)) ?_ ?_
      · intro word changed
        obtain atParent | atChild := hang_writes changed
        · exact .inl (atParent ▸ starts)
        · exact .inr (List.mem_singleton.mpr atChild)
      · rintro frame (holds | mem)
        · exact .inl (.inl holds)
        · obtain rfl | old := List.mem_cons.mp mem
          · exact .inr List.mem_cons_self
          · exact .inl (.inr old)

/-- The creating walk writes only into the tables that the walk meets, and into frames that it
is handed. -/
theorem createTables_writes
    (interior : Interior flags)
    (out : createTables source flags machine parent rest = (result, after)) :
    ∃ new ⊆ supplies source rest.length machine.source,
      WritesIn source (Met machine.memory parent rest) machine after result new := by
  have closed : Closed machine.memory [] := nofun
  have walk := createTables_writes_in interior closed (.inr fun _ => id) out
  simpa only [List.not_mem_nil, or_false] using walk

/-- `map` writes only into the tables above the page, and into the frames that it is handed. -/
theorem map_writes
    {tables tables' : PageTableManager}
    {virt phys : Nat}
    {flags : MapFlags}
    {result : Except PagingError Unit}
    (out : tables.map source machine virt phys flags = (result, tables', after)) :
    ∃ new ⊆ supplies source 3 machine.source, Hands source machine.source new after.source ∧
      ∀ word, after.memory word ≠ machine.memory word →
        Met machine.memory tables.pml4 (tablePath virt) (word / 512) ∨ word / 512 ∈ new := by
  have nothing : ∃ new ⊆ supplies source 3 machine.source,
      Hands source machine.source new machine.source ∧
        ∀ word, machine.memory word ≠ machine.memory word →
          Met machine.memory tables.pml4 (tablePath virt) (word / 512) ∨ word / 512 ∈ new :=
    ⟨[], List.nil_subset _, .done _, fun word changed => absurd rfl changed⟩
  rw [map_eq] at out
  split at out
  · cases out
    exact nothing
  split at out
  · cases out
    exact nothing
  rcases walk : createTables source flags.interiorFor machine tables.pml4 (tablePath virt) with
    ⟨error | pt, created⟩
  all_goals
    rw [walk] at out
    obtain ⟨new, few, handed, writes, ends⟩ :=
      createTables_writes (interior_interiorFor flags) walk
  · cases out
    exact ⟨new, few, handed, writes⟩
  dsimp only [writeLeaf] at out
  split at out
  · cases out
    exact ⟨new, few, handed, writes⟩
  split at out
  · cases out
    exact ⟨new, few, handed, writes⟩
  cases out
  refine ⟨new, few, handed, fun word changed => ?_⟩
  by_cases here : word = layout.locate pt (VirtIndices.ofAddr virt).pt
  · rw [here, show layout.locate pt _ / 512 = pt from entryPtr_div pt _]
    exact ends pt rfl
  · exact writes word fun same => changed ((update_of_ne here _ _).trans same)

end Writes

end Cdk.Memory

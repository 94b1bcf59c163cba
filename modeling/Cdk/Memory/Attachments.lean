import Cdk.Memory.Windows

/-!
# What the device holds of unified memory

A backing that the device was given lies in the region for which it was given, until
that region is freed or moved: neither tells the device.
-/

namespace Cdk.Memory

open FrameAllocator Run BoundedVec

variable {frame : Nat}

/-- The backing lies in the region. -/
def Backing.Within (backing : Backing) (region : UmRegion) : Prop :=
  region.guestPhys ≤ backing.phys ∧ backing.phys + backing.len ≤ region.guestPhys + region.len

instance (backing : Backing) (region : UmRegion) : Decidable (backing.Within region) :=
  inferInstanceAs (Decidable (_ ∧ _))

namespace UnifiedMemory

variable {memory : UnifiedMemory} {id : Nat}

/-- The regions own their frames, and what the device holds lies in the region for which
it was given. -/
structure Sound (memory : UnifiedMemory) : Prop where
  owning : Owning memory.allocator memory.regions.items
  identity : Iommu.Identity memory.windows
  backed : ∀ backing ∈ memory.backings, ∃ region ∈ memory.regions.items,
    region.id = backing.region ∧ backing.Within region

/-- What a removal at the place of an id takes away is what `get` returns. -/
theorem get_of_swapRemove
    (search : (memory.regions.items.findIdx? fun region => region.id == id) = some place)
    (removed : memory.regions.swapRemove? place = some (region, rest)) :
    memory.get id = some region := by
  obtain ⟨early, late, atPlace, split, _⟩ := swapRemove?_eq_some removed
  obtain ⟨inside, matches_id, before⟩ := List.findIdx?_eq_some_iff_getElem.mp search
  rw [get, List.find?_eq_some_iff_append]
  refine ⟨?_, early, late, split, ?_⟩
  · simpa [split, ← atPlace] using matches_id
  · intro other member
    obtain ⟨index, below, rfl⟩ := List.getElem_of_mem member
    have unmatched := before index (atPlace ▸ below)
    simpa [split, List.getElem_append_left below] using unmatched

/-- No backing lies in the region. -/
def Detached (memory : UnifiedMemory) (id : Nat) : Prop :=
  ∀ region, memory.get id = some region → ∀ backing ∈ memory.backings, ¬ backing.Within region

instance : Decidable (memory.Detached id) :=
  inferInstanceAs (Decidable (∀ region ∈ memory.get id, ∀ backing ∈ memory.backings,
    ¬ backing.Within region))

/-- The call takes no memory from under a backing. -/
def LeavesBackings (memory : UnifiedMemory) : UmCall → Prop
  | .free id => memory.Detached id
  | .migrate id => (∃ region, (memory.migrate id).1 = .ok region) → memory.Detached id
  | _ => True

/-! ## What a call keeps -/

theorem alloc_keeps (bytes : Nat) : (memory.alloc bytes).2.backings = memory.backings ∧
    ∀ region ∈ memory.regions.items, region ∈ (memory.alloc bytes).2.regions.items := by
  unfold alloc
  split_ifs
  · exact ⟨rfl, fun _ => id⟩
  · exact ⟨rfl, fun _ => id⟩
  dsimp only
  split
  · exact ⟨rfl, fun _ => id⟩
  split
  · exact ⟨rfl, fun _ => id⟩
  rename_i pushed
  split
  · exact ⟨rfl, fun _ => id⟩
  · refine ⟨rfl, fun region member => ?_⟩
    rw [(push?_eq_some_iff.mp pushed).2]
    exact List.mem_append_left _ member

theorem free_keeps (id : Nat) : (memory.free id).2.backings = memory.backings ∧
    ∀ region ∈ memory.regions.items,
      memory.get id = some region ∨ region ∈ (memory.free id).2.regions.items := by
  unfold free
  split
  · exact ⟨rfl, fun _ => .inr⟩
  rename_i search
  split
  · exact ⟨rfl, fun _ => .inr⟩
  rename_i removed
  refine ⟨rfl, fun region member => ?_⟩
  rcases List.mem_cons.mp ((swapRemove?_perm removed).mem_iff.mp member) with
    rfl | kept
  · exact .inl (get_of_swapRemove search removed)
  · exact .inr kept

theorem migrate_keeps (id : Nat) : (memory.migrate id).2.backings = memory.backings ∧
    ∀ region ∈ memory.regions.items,
      (∃ moved, (memory.migrate id).1 = .ok moved) ∧ memory.get id = some region ∨
        region ∈ (memory.migrate id).2.regions.items := by
  unfold migrate
  split
  · exact ⟨rfl, fun _ => .inr⟩
  rename_i old found
  split
  · exact ⟨rfl, fun _ => .inr⟩
  rename_i phys after result
  dsimp only
  split
  · exact ⟨rfl, fun _ => .inr⟩
  obtain ⟨early, late, split, items, present⟩ := @updateRegion_spec _ _ _ found
    (fun region => { region with guestPhys := phys, gpuResourceId := none }) rfl
  simp only [UnifiedMemory.get, items, present, true_and]
  intro region member
  rw [split, List.mem_append, List.mem_cons] at member
  rw [List.mem_append, List.mem_cons]
  rcases member with first | rfl | last
  · exact .inr (.inl first)
  · exact .inl ⟨⟨_, rfl⟩, found⟩
  · exact .inr (.inr (.inr last))

/-- What the device is given lies in the region. -/
theorem Sound.attachGpu (matched : memory.Matched frames) (sound : memory.Sound)
    (id width height : Nat) (answers : GpuAnswers) :
    ∀ backing ∈ (memory.attachGpu id width height answers).2.backings,
      ∃ region ∈ (memory.attachGpu id width height answers).2.regions.items,
        region.id = backing.region ∧ backing.Within region := by
  unfold UnifiedMemory.attachGpu
  split
  · exact sound.backed
  rename_i region found
  obtain ⟨member, owner⟩ := get_spec found
  dsimp only
  split
  · exact sound.backed
  rename_i fits
  split
  · exact sound.backed
  rename_i dma translated
  have atPhys := ((matched.translateDma _ _).mp translated).1
  have within : ∀ backing ∈ (if answers.backed then
      { resource := memory.nextGpuRes, region := id, phys := dma,
        len := saturatingMul (saturatingMul width height) 4 : Backing } :: memory.backings
      else memory.backings),
      ∃ region ∈ memory.regions.items, region.id = backing.region ∧
        backing.Within region := by
    intro backing held
    split_ifs at held
    · rcases List.mem_cons.mp held with rfl | old
      · refine ⟨region, member, owner, atPhys.ge, ?_⟩
        rw [atPhys]
        dsimp only
        omega
      · exact sound.backed backing old
    · exact sound.backed backing held
  cases answers.umAttachResource with
  | error text => exact within
  | ok =>
    obtain ⟨early, late, split, changed, _⟩ := @updateRegion_spec _ _ _ found
      (fun region => { region with gpuResourceId := some memory.nextGpuRes }) rfl
    intro backing held
    obtain ⟨holder, old, isOwner, inside⟩ := within backing held
    dsimp only
    rw [changed]
    rw [split] at old
    rcases List.mem_append.mp old with first | rest
    · exact ⟨holder, List.mem_append_left _ first, isOwner, inside⟩
    · rcases List.mem_cons.mp rest with rfl | last
      · exact ⟨_, List.mem_append_right _ List.mem_cons_self, isOwner, inside⟩
      · exact ⟨holder, List.mem_append_right _ (List.mem_cons_of_mem _ last), isOwner, inside⟩

theorem Sound.step (matched : memory.Matched frames) (sound : memory.Sound) (call : UmCall)
    (leaves : memory.LeavesBackings call) : (memory.step call).Sound := by
  have next := (matched.step call).1
  refine ⟨next.tallied.toOwning, next.identity, ?_⟩
  have kept {changed : UnifiedMemory} (same : changed.backings = memory.backings)
      (keeps : ∀ region ∈ memory.regions.items,
        (∀ backing ∈ memory.backings, ¬ backing.Within region) ∨ region ∈ changed.regions.items) :
      ∀ backing ∈ changed.backings, ∃ region ∈ changed.regions.items,
        region.id = backing.region ∧ backing.Within region := by
    rw [same]
    intro backing held
    obtain ⟨region, member, owner, within⟩ := sound.backed backing held
    exact ⟨region, (keeps region member).resolve_left fun none => none backing held within,
      owner, within⟩
  cases call with
  | alloc bytes =>
    exact kept (alloc_keeps bytes).1 fun region member => .inr ((alloc_keeps bytes).2 region member)
  | cpuFill id =>
    refine kept ?_ ?_ <;> simp only [UnifiedMemory.step, cpuFill] <;> split
    · rfl
    · rfl
    · exact fun _ => .inr
    · exact fun _ => .inr
  | attachGpu id width height answers => exact sound.attachGpu matched id width height answers
  | migrate id =>
    refine kept (migrate_keeps id).1 fun region member => ?_
    exact ((migrate_keeps id).2 region member).imp_left fun moved => leaves moved.1 region moved.2
  | free id =>
    refine kept (free_keeps id).1 fun region member => ?_
    exact ((free_keeps id).2 region member).imp_left fun freed => leaves region freed

end UnifiedMemory

/-- A byte of the backing is in the frame. -/
def Backing.Reaches (backing : Backing) (frame : Nat) : Prop :=
  ∃ offset < backing.len, (backing.phys + offset) / frameSize = frame

theorem Backing.Within.covers {backing : Backing} {region : UmRegion}
    (within : backing.Within region) (whole : region.Whole) (reaches : backing.Reaches frame) :
    region.Covers frame := by
  obtain ⟨offset, inside, rfl⟩ := reaches
  obtain ⟨lower, upper⟩ := within
  have sized := whole.sized
  have aligned := whole.aligned
  rw [UmRegion.Covers]
  rw [frameSize] at *
  omega

namespace UnifiedMemory

/-- As long as no region is freed or moved of which the device holds a backing, every frame
of what the device was given is used and belongs to the region for which it was given. -/
theorem device_memory_stays_owned
    (map : List Region)
    (earlier : List Call)
    (calls : List UmCall)
    (leaves : Run.Along step LeavesBackings (boot (reached map earlier)) calls) :
    let memory := after step (boot (reached map earlier)) calls
    ∀ backing ∈ memory.backings, ∀ frame, backing.Reaches frame → ¬ memory.allocator.Free frame ∧
        ∃ region ∈ memory.regions.items, region.id = backing.region ∧ region.Covers frame := by
  intro memory backing held frame reaches
  have start := matched_after (accounted_reached map earlier)
  have sound : memory.Sound := (@invariant _ _ _ _
    (fun memory => memory.Matched (reached map earlier).freeFrames ∧ memory.Sound) _ _
    ⟨start [], (start []).tallied.toOwning, (start []).identity, nofun⟩
    (fun _ call state leaves => ⟨(state.1.step call).1, state.2.step state.1 call leaves⟩) leaves).2
  obtain ⟨region, member, owner, within⟩ := sound.backed backing held
  have covers := within.covers (sound.owning.whole region member) reaches
  have used := (sound.owning.held region member frame covers).2
  refine ⟨?_, region, member, owner, covers⟩
  intro free
  exact Bool.false_ne_true (free.2.symm.trans used)

/-- The answers of a device that accepts every command. -/
def willing : GpuAnswers where
  hwEnabled := true
  ready := true
  create := .ok 0x1100
  attach := .ok 0x1100
  scanout := .ok 0x1100
  transfer := .ok 0x1100
  flush := .ok 0x1100

/-- Two regions of one frame; the second one is freed while the device holds the first. -/
theorem device_memory_stays_owned_sample :
    let memory := boot (reached [⟨0, 8192, true⟩] [])
    let calls : List UmCall := [.alloc 4096, .alloc 4096, .attachGpu 1 1 1 willing, .free 2]
    Run.Along step LeavesBackings memory calls ∧
      ⟨100, 1, 0, 4⟩ ∈ (after step memory calls).backings ∧
      ¬ (after step memory calls).allocator.Free 0 := by
  intro memory calls
  have leaves : Run.Along step LeavesBackings memory calls :=
    ⟨trivial, trivial, trivial, (by decide +kernel : Detached _ 2), trivial⟩
  have given : ⟨100, 1, 0, 4⟩ ∈ (after step memory calls).backings := by decide +kernel
  refine ⟨leaves, given, ?_⟩
  exact (device_memory_stays_owned _ _ calls leaves _ given 0 ⟨0, by decide, by decide⟩).1

/-- A region that is freed, or moved, while the device holds it: its first frame is free
again, and the device still holds it. -/
theorem freed_memory_stays_on_device :
    let memory := boot (reached [⟨0, 8192, true⟩] [])
    let freed := after step memory [.alloc 4096, .attachGpu 1 1 1 willing, .free 1]
    let moved := after step memory [.alloc 4096, .attachGpu 1 1 1 willing, .migrate 1]
    (⟨100, 1, 0, 4⟩ ∈ freed.backings ∧ freed.allocator.Free 0) ∧
      ⟨100, 1, 0, 4⟩ ∈ moved.backings ∧ moved.allocator.Free 0 := by
  decide +kernel

end UnifiedMemory
end Cdk.Memory

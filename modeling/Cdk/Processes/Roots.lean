import Cdk.Processes.Cpus

/-!
# Page tables that are freed

When the run of the processes is over, the supervising thread may remove a process
and free its page tables.  That the run is over is read off the process table, and a
CPU is off the page tables of its process only some steps after the table says that
the process has ended.
-/

namespace Cdk.Processes

open ProcessTable ProcessState Function

/-! ## The table -/

namespace ProcessTable

variable {table : ProcessTable} {op : Op} {cpu : Cpu} {slot : SlotId}

/-- No selected process is left to run. -/
def Over (table : ProcessTable) : Prop := ∀ slot, (table.slots slot).scheduled →
    live (table.slots slot).state = false

/-- What runs was selected. -/
def RunsScheduled (table : ProcessTable) : Prop :=
  ∀ slot, (table.slots slot).state = .running → (table.slots slot).scheduled

theorem over_of_outstanding (isDone : table.outstanding = (0, [])) : table.Over := by
  obtain ⟨noneActive, noneBlocked⟩ := Prod.mk.inj isDone
  rw [List.countP_eq_zero] at noneActive
  rw [blockedScheduled, List.map_eq_nil_iff, List.filter_eq_nil_iff] at noneBlocked
  intro slot scheduled
  have active := noneActive slot (List.mem_finRange slot)
  have blocked := noneBlocked slot (List.mem_finRange slot)
  cases state : (table.slots slot).state <;> simp_all [live]

theorem Over.not_dispatched (isOver : table.Over) : (table.dispatchNext cpu).2 ≠ some process := by
  unfold dispatchNext
  split_ifs
  · nofun
  cases runs : table.nextRunnable cpu with
  | none => nofun
  | some slot =>
    obtain ⟨scheduled, ready⟩ := runnable_of_nextRunnable runs
    have notLive := isOver slot scheduled
    simp [ready, live] at notLive

section

variable (consistent : table.Consistent) (runsScheduled : table.RunsScheduled)
include consistent runsScheduled

theorem RunsScheduled.idle (isOver : table.Over) (cpu : Cpu) : table.current cpu = none := by
  cases current : table.current cpu with
  | none => rfl
  | some pid =>
    obtain ⟨slot, _, running, _⟩ := consistent.current_runs current
    have notLive := isOver slot (runsScheduled slot running)
    simp [running, live] at notLive

theorem RunsScheduled.step
    (noSelect : ∀ which homes, op ≠ .select which homes) : (table.step op).RunsScheduled := by
  intro slot running
  have move := step_moves consistent op slot
  generalize (table.step op).slots slot = process at move running ⊢
  cases move with
  | kept | marked | charged => exact runsScheduled slot running
  | chosen _ isSelect => exact absurd isSelect (noSelect _ _)
  | ran _ scheduled => exact scheduled
  | left leaving => exact absurd running (Op.leaving_spec leaving _).2.2.1
  | created | preempted | unblocked | reaped => cases running

/-- When nothing is left to run, a new selection finds no running process. -/
theorem RunsScheduled.select (isOver : table.Over) (which : Select) (homes : List Nat) :
    (table.step (.select which homes)).RunsScheduled := by
  intro slot running
  have notRunning : (table.slots slot).state ≠ .running := by
    intro isRunning
    have notLive := isOver slot (runsScheduled slot isRunning)
    simp [isRunning, live] at notLive
  have ready := (runnable_of_starts consistent notRunning running).2
  have move := step_moves consistent (.select which homes) slot
  generalize (table.step (.select which homes)).slots slot = process at move running ⊢
  cases move with
  | kept | chosen =>
    rw [show (table.slots slot).state = _ from running] at ready
    cases ready
  | ran isRun => rcases isRun with isOther | ⟨_, _, _, isOther⟩ <;> cases isOther
  | created isOther | marked isOther | charged isOther | preempted isOther | left isOther
  | unblocked isOther | reaped isOther => cases isOther

end

theorem exists_slot_of_takeForReap (taken : (table.takeForReap pid).2 = .ok process) :
    ∃ slot, (table.slots slot).state ≠ .free ∧ process = table.slots slot := by
  unfold takeForReap at taken
  cases found : table.find pid with
  | none => simp [found] at taken
  | some slot =>
    simp only [found] at taken
    split_ifs at taken
    exact ⟨slot, (of_find_eq_some found).1, (Except.ok.inj taken).symm⟩

/-- Creating and removing processes starts none. -/
theorem Over.step (consistent : table.Consistent) (isOver : table.Over)
    (isChange : (∃ pid entry stackTop pml4Phys, op = .insert pid entry stackTop pml4Phys) ∨
      ∃ pid, op = .takeForReap pid) : (table.step op).Over := by
  intro slot
  have move := step_moves consistent op slot
  generalize (table.step op).slots slot = process at move ⊢
  have foreign : op.cpu = none := by
    rcases isChange with ⟨_, _, _, _, rfl⟩ | ⟨_, rfl⟩ <;> rfl
  cases move with
  | kept | marked => exact isOver slot
  | created | reaped => nofun
  | chosen _ isSelect =>
    subst isSelect
    rcases isChange with ⟨_, _, _, _, isOther⟩ | ⟨_, isOther⟩ <;> cases isOther
  | ran isRun =>
    rcases isRun with rfl | ⟨_, _, _, rfl⟩ <;> cases foreign
  | charged isTick | preempted isTick =>
    subst isTick
    cases foreign
  | left leaving =>
    rw [Op.cpu_of_leaving leaving] at foreign
    cases foreign
  | unblocked isUnblock =>
    rcases isChange with ⟨_, _, _, _, rfl⟩ | ⟨_, rfl⟩ <;> cases isUnblock

/-- No process has the page tables of the kernel. -/
def OwnSpaces (kernelRoot : UInt64) (table : ProcessTable) : Prop :=
  ∀ slot, (table.slots slot).state ≠ .free → (table.slots slot).pml4Phys ≠ kernelRoot

theorem OwnSpaces.step {kernelRoot : UInt64} (consistent : table.Consistent)
    (ownSpaces : table.OwnSpaces kernelRoot)
    (own : ∀ pid entry stackTop pml4Phys, op = .insert pid entry stackTop pml4Phys →
      pml4Phys ≠ kernelRoot) : (table.step op).OwnSpaces kernelRoot := by
  intro slot occupied
  obtain ⟨_, _, _, _, isInsert, isReady⟩ | ⟨before, -, sameSpace, -⟩ :=
    (step_moves consistent op slot).created_or_survives occupied consistent
  · rw [isReady]
    exact own _ _ _ _ isInsert
  · exact sameSpace ▸ ownSpaces slot before

end ProcessTable

/-! ## The machine -/

/-- The CPU has not entered ring 3. -/
def Place.onKernelRoot : Place → Bool
  | .kernel | .dispatched _ | .started _ | .located _ _ | .restored _ => true
  | _ => false

/-- The CPU has given its process away and is on its way back to the kernel. -/
def Place.departs : Place → Bool
  | .blocking _ | .leaving => true
  | _ => false

universe u

/-- The supervising thread looks whether the run is over. -/
def Label.isCheck {Vector : Type u} : Label Vector → Bool
  | .checkDone => true
  | _ => false

namespace Machine

variable {Vector : Type u} {setting : Setting Vector} {machine next : Machine Vector}
  {label : Label Vector} {cpu other : Cpu}

/-- When the end of a run is noticed, every CPU is back in the kernel. -/
def Settled (machine : Machine Vector) (label : Label Vector) : Prop :=
  label.isCheck → machine.table.outstanding = (0, []) → ∀ cpu, (machine.place cpu).departs = false

instance (machine : Machine Vector) (label : Label Vector) : Decidable (machine.Settled label) :=
  inferInstanceAs (Decidable (label.isCheck → machine.table.outstanding = (0, []) →
    ∀ cpu, (machine.place cpu).departs = false))

/-- A CPU is on the kernel's page tables, or it has kept their root for later. -/
def OnRoot (setting : Setting Vector) (machine : Machine Vector) (cpu : Cpu) : Prop :=
  if (machine.place cpu).onKernelRoot then machine.root cpu = setting.kernelRoot
  else machine.resume cpu = setting.kernelRoot

/-- The loaded page tables belong to where the CPUs are. -/
structure Roots (setting : Setting Vector) (machine : Machine Vector) : Prop where
  shape : machine.Shape
  onRoot : ∀ cpu, machine.OnRoot setting cpu
  ownSpaces : machine.table.OwnSpaces setting.kernelRoot
  runsScheduled : machine.table.RunsScheduled
  quiet : machine.supervisor ≠ .running → (∀ cpu, machine.place cpu = .kernel) ∧ machine.table.Over
  destroying : ∀ pml4Phys, machine.supervisor = .destroying pml4Phys → pml4Phys ≠ setting.kernelRoot

theorem start_roots (setting : Setting Vector) (registers : Cpu → Vector) :
    (start setting registers).Roots setting where
  shape := start_shape setting registers
  onRoot _ := rfl
  ownSpaces _ occupied := absurd rfl occupied
  runsScheduled _ running := nomatch running
  quiet _ := ⟨fun _ => rfl, nofun⟩
  destroying _ isDestroying := nomatch isDestroying

theorem Roots.isRunning (roots : machine.Roots setting) (cpu : Cpu)
    (notInKernel : machine.place cpu ≠ .kernel) : machine.supervisor = .running := by
  by_contra notRunning
  exact notInKernel ((roots.quiet notRunning).1 cpu)

/-- When nothing is left to run, a CPU without a process is in the kernel or on its way. -/
theorem place_of_over (roots : machine.Roots setting) (isOver : machine.table.Over)
    (settled : (machine.place cpu).departs = false) : machine.place cpu = .kernel := by
  have idle := roots.runsScheduled.idle roots.shape.consistent isOver cpu
  have noSlot : machine.table.currentSlot cpu = none := by
    rw [currentSlot, idle]
    rfl
  have fits := roots.shape.fits cpu
  cases place : machine.place cpu with
  | kernel => rfl
  | blocking | leaving =>
    rw [place] at settled
    cases settled
  | dispatched | started | restored =>
    rw [place, Fits, idle] at fits
    cases fits
  | located =>
    rw [place, Fits, idle] at fits
    cases fits.1
  | user | loading =>
    rw [place, Fits, noSlot] at fits
    obtain ⟨_, isCurrent⟩ := fits
    cases isCurrent
  | saving | restoring =>
    rw [place, Fits, noSlot] at fits
    cases fits

/-! ### Steps -/

theorem onRoot_moveTo_self {place : Place} : (machine.moveTo cpu place).OnRoot setting cpu ↔
    if place.onKernelRoot then machine.root cpu = setting.kernelRoot
    else machine.resume cpu = setting.kernelRoot := by
  rw [OnRoot, moveTo_place_self]
  rfl

variable {op : Op}

section

variable (roots : machine.Roots setting)
include roots

theorem ownSpaces_of_cpu (notCreated : op.created = none) :
    (machine.table.step op).OwnSpaces setting.kernelRoot := by
  apply roots.ownSpaces.step roots.shape.consistent
  rintro pid entry stackTop pml4Phys rfl
  cases notCreated

/-- A step of one CPU during a run. -/
theorem Roots.of_cpu (shape : next.Shape) (isRunning : machine.supervisor = .running)
    (sameSupervisor : next.supervisor = machine.supervisor)
    (isTable : next.table = machine.table ∨
      ∃ op, op.created = none ∧ (∀ which homes, op ≠ .select which homes) ∧
        next.table = machine.table.step op)
    (others : ∀ other, other ≠ cpu → next.place other = machine.place other ∧
      next.root other = machine.root other ∧ next.resume other = machine.resume other)
    (own : next.OnRoot setting cpu) : next.Roots setting where
  shape := shape
  onRoot other := by
    by_cases isCpu : other = cpu
    · exact isCpu ▸ own
    · obtain ⟨samePlace, sameRoot, sameResume⟩ := others other isCpu
      rw [OnRoot, samePlace, sameRoot, sameResume]
      exact roots.onRoot other
  ownSpaces := by
    rcases isTable with same | ⟨op, notCreated, -, isStep⟩
    · exact same ▸ roots.ownSpaces
    · exact isStep ▸ ownSpaces_of_cpu roots notCreated
  runsScheduled := by
    rcases isTable with same | ⟨op, -, noSelect, isStep⟩
    · exact same ▸ roots.runsScheduled
    · exact isStep ▸ roots.runsScheduled.step roots.shape.consistent noSelect
  quiet notRunning := absurd (sameSupervisor.trans isRunning) notRunning
  destroying pml4Phys isDestroying := roots.destroying pml4Phys (sameSupervisor ▸ isDestroying)

theorem Roots.tick (inUser : machine.place cpu = .user)
    (shape : (machine.setTable (machine.table.step (.tick cpu frame slice budget))).Shape) :
    (machine.setTable (machine.table.step (.tick cpu frame slice budget))).Roots setting :=
  roots.of_cpu shape (roots.isRunning cpu (by simp [inUser])) rfl
    (.inr ⟨.tick cpu frame slice budget, rfl, nofun, rfl⟩) (fun _ _ => ⟨rfl, rfl, rfl⟩)
    (roots.onRoot cpu)

end

/-- A CPU leaves ring 3. -/
theorem Roots.leave {place : Place} (roots : machine.Roots setting)
    (inUser : machine.place cpu = .user) (isOwn : op.cpu = some cpu)
    (shape : (next.moveTo cpu place).Shape) (isTable : next.table = machine.table.step op)
    (same : next.supervisor = machine.supervisor ∧ next.place = machine.place ∧
      next.root = machine.root ∧ next.resume = machine.resume)
    (isOut : place.onKernelRoot = false) : (next.moveTo cpu place).Roots setting := by
  obtain ⟨sameSupervisor, samePlace, sameRoot, sameResume⟩ := same
  obtain ⟨notCreated, noSelect⟩ := Op.of_cpu isOwn
  refine roots.of_cpu shape (roots.isRunning cpu (by simp [inUser])) sameSupervisor
    (.inr ⟨op, notCreated, noSelect, isTable⟩) (fun other different => ?_)
    (onRoot_moveTo_self.mpr ?_)
  · rw [moveTo_place_of_ne different, samePlace]
    exact ⟨rfl, congrFun sameRoot other, congrFun sameResume other⟩
  · have own := roots.onRoot cpu
    rw [isOut, sameResume]
    rwa [OnRoot, inUser] at own

theorem Advance.roots (advance : Advance setting machine cpu next) (roots : machine.Roots setting) :
    next.Roots setting := by
  have shape := advance.shape roots.shape
  have own := roots.onRoot cpu
  unfold OnRoot at own
  have isRunning : ∀ {place}, machine.place cpu = place → place ≠ .kernel →
      machine.supervisor = .running := by
    rintro _ rfl
    exact roots.isRunning cpu
  -- Most steps leave the table and the roots alone.
  have plain : ∀ {changed : Machine Vector} {old place : Place}, machine.place cpu = old →
      old ≠ .kernel → old.onKernelRoot = place.onKernelRoot →
      changed.table = machine.table ∧ changed.supervisor = machine.supervisor ∧
        changed.place = machine.place ∧ changed.root = machine.root ∧
        changed.resume = machine.resume →
      (changed.moveTo cpu place).Shape → (changed.moveTo cpu place).Roots setting := by
    rintro changed _ place rfl notInKernel sameRoot
      ⟨sameTable, isSupervisor, isPlace, isRoot, isResume⟩
    refine fun shape => roots.of_cpu shape (roots.isRunning cpu notInKernel) isSupervisor
      (.inl sameTable) (fun other different => ?_) (onRoot_moveTo_self.mpr ?_)
    · rw [moveTo_place_of_ne different, isPlace]
      exact ⟨rfl, congrFun isRoot other, congrFun isResume other⟩
    · rwa [isRoot, isResume, ← sameRoot]
  cases advance with
  | still => exact roots
  | skipped isPlace | located isPlace | notRestored isPlace | notSaved isPlace =>
    exact plain isPlace nofun rfl ⟨rfl, rfl, rfl, rfl, rfl⟩ shape
  | @marked process isPlace =>
    rw [isPlace] at own
    exact roots.of_cpu shape (isRunning isPlace nofun) rfl
      (.inr ⟨.markStarted process.pid, rfl, nofun, rfl⟩)
      (fun _ different => ⟨moveTo_place_of_ne different, rfl, rfl⟩) (onRoot_moveTo_self.mpr own)
  | restored isPlace | switched isPlace =>
    exact plain isPlace nofun rfl (restore_same ..) shape
  | saved isPlace | savedBlocked isPlace => exact plain isPlace nofun rfl (save_same ..) shape
  | entered isPlace =>
    rw [isPlace] at own
    exact roots.of_cpu shape (isRunning isPlace nofun) rfl (.inl rfl)
      (fun _ different => ⟨moveTo_place_of_ne different, update_of_ne different ..,
        update_of_ne different ..⟩)
      (onRoot_moveTo_self.mpr ((update_self ..).trans own))
  | loaded isPlace =>
    rw [isPlace] at own
    exact roots.of_cpu shape (isRunning isPlace nofun) rfl (.inl rfl)
      (fun _ different => ⟨moveTo_place_of_ne different, update_of_ne different .., rfl⟩)
      (onRoot_moveTo_self.mpr own)
  | left isPlace =>
    rw [isPlace] at own
    exact roots.of_cpu shape (isRunning isPlace nofun) rfl (.inl rfl)
      (fun _ different => ⟨moveTo_place_of_ne different, update_of_ne different .., rfl⟩)
      (onRoot_moveTo_self.mpr ((update_self ..).trans own))

theorem step_roots (roots : machine.Roots setting) (fresh : machine.Fresh setting label)
    (settled : machine.Settled label) : (machine.step setting label).Roots setting := by
  have shape := step_shape roots.shape fresh
  have act := step_act setting machine label
  generalize machine.step setting label = next at act shape ⊢
  cases act with
  | still => exact roots
  | @spawned pid entry stackTop pml4Phys isIdle =>
    obtain ⟨inKernel, isOver⟩ := roots.quiet (by simp [isIdle])
    have consistent := roots.shape.consistent
    refine ⟨shape, roots.onRoot, ?_, ?_, fun _ => ⟨inKernel, ?_⟩, nofun⟩
    · apply roots.ownSpaces.step consistent
      intro other _ _ _ isInsert
      cases isInsert
      exact (fresh _ rfl).2
    · exact roots.runsScheduled.step consistent nofun
    · exact isOver.step consistent (.inl ⟨_, _, _, _, rfl⟩)
  | @reset pid isResetting =>
    obtain ⟨inKernel, isOver⟩ := roots.quiet (by simp [isResetting])
    unfold reset at shape ⊢
    cases found : machine.table.find pid with
    | none | some slot =>
      rw [found] at shape
      exact ⟨shape, roots.onRoot, roots.ownSpaces, roots.runsScheduled,
        fun _ => ⟨inKernel, isOver⟩, nofun⟩
  | @selected which homes isIdle =>
    obtain ⟨_, isOver⟩ := roots.quiet (by simp [isIdle])
    refine ⟨shape, roots.onRoot, ownSpaces_of_cpu roots rfl, ?_, fun isOver => absurd rfl isOver,
      nofun⟩
    exact roots.runsScheduled.select roots.shape.consistent isOver which homes
  | @unblocked pid result isRunning =>
    exact roots.of_cpu shape isRunning rfl (.inr ⟨.unblock pid result, rfl, nofun, rfl⟩)
      (fun _ _ => ⟨rfl, rfl, rfl⟩) (roots.onRoot 0)
  | ended isRunning isDone =>
    have isOver := over_of_outstanding isDone
    have inKernel : ∀ cpu, machine.place cpu = .kernel := fun cpu =>
      place_of_over roots isOver (settled rfl isDone cpu)
    exact ⟨shape, roots.onRoot, roots.ownSpaces, roots.runsScheduled,
      fun _ => ⟨inKernel, isOver⟩, nofun⟩
  | @reaped pid process isIdle taken =>
    obtain ⟨inKernel, isOver⟩ := roots.quiet (by simp [isIdle])
    have consistent := roots.shape.consistent
    refine ⟨shape, roots.onRoot, ownSpaces_of_cpu roots rfl, ?_, fun _ => ⟨inKernel, ?_⟩, ?_⟩
    · exact roots.runsScheduled.step consistent nofun
    · exact isOver.step consistent (.inr ⟨pid, rfl⟩)
    · intro pml4Phys isDestroying
      obtain ⟨slot, occupied, rfl⟩ := exists_slot_of_takeForReap taken
      rw [← Supervisor.destroying.inj isDestroying]
      exact roots.ownSpaces slot occupied
  | destroyed isDestroying =>
    exact ⟨shape, roots.onRoot, roots.ownSpaces, roots.runsScheduled,
      fun _ => roots.quiet (by simp [isDestroying]), nofun⟩
  | @dispatched cpu process inKernel isProcess =>
    have isRunning : machine.supervisor = .running := by
      by_contra notRunning
      exact (roots.quiet notRunning).2.not_dispatched isProcess
    have own := roots.onRoot cpu
    rw [OnRoot, inKernel] at own
    exact roots.of_cpu shape isRunning rfl (.inr ⟨.dispatchNext cpu, rfl, nofun, rfl⟩)
      (fun _ different => ⟨moveTo_place_of_ne different, rfl, rfl⟩) (onRoot_moveTo_self.mpr own)
  | advanced advance => exact advance.roots roots
  | @failed cpu process isRestored =>
    have own := roots.onRoot cpu
    rw [OnRoot, isRestored] at own
    exact roots.of_cpu shape (roots.isRunning cpu (by simp [isRestored])) rfl
      (.inr ⟨.putBack cpu, rfl, nofun, rfl⟩)
      (fun _ different => ⟨moveTo_place_of_ne different, rfl, rfl⟩) (onRoot_moveTo_self.mpr own)
  | @computed cpu vector inUser =>
    exact roots.of_cpu shape (roots.isRunning cpu (by simp [inUser])) rfl (.inl rfl)
      (fun _ _ => ⟨rfl, rfl, rfl⟩) (roots.onRoot cpu)
  | continued inUser => exact roots.tick inUser shape
  | @switched cpu frame slice budget _ _ _ inUser =>
    exact @Roots.leave _ _ _ _ cpu (.tick cpu frame slice budget) _ roots inUser rfl shape rfl
      ⟨rfl, rfl, rfl, rfl⟩ rfl
  | @killed cpu frame slice budget ticks pid inUser isKill =>
    have ticked := roots.tick inUser (roots.shape.tick inUser fun _ _ _ isSwitch =>
      nomatch isKill.symm.trans isSwitch)
    exact @Roots.leave _ _ _ _ cpu (.killCurrent cpu) _ ticked inUser rfl shape rfl
      ⟨rfl, rfl, rfl, rfl⟩ rfl
  | @blocked cpu frame _ inUser | @blockedNone cpu frame inUser =>
    exact @Roots.leave _ _ _ _ cpu (.blockCurrent cpu frame) _ roots inUser rfl shape rfl
      ⟨rfl, rfl, rfl, rfl⟩ rfl
  | finished inUser isEnd =>
    refine roots.leave inUser ?_ shape rfl ⟨rfl, rfl, rfl, rfl⟩ rfl
    rcases isEnd with ⟨code, rfl⟩ | ⟨fault, rfl⟩ <;> rfl

/-! ### Runs -/

/-- Page tables are freed while no CPU has them loaded, provided that no CPU is on its
way back to the kernel whenever the end of a run is noticed. -/
theorem freed_root_not_loaded
    (setting : Setting Vector)
    (registers : Cpu → Vector)
    (labels : List (Label Vector))
    (along : Run.Along (step setting)
      (fun machine label => machine.Fresh setting label ∧ machine.Settled label)
      (start setting registers) labels)
    (pml4Phys : UInt64)
    (isDestroying : ((start setting registers).after setting labels).supervisor =
      .destroying pml4Phys)
    (cpu : Cpu) :
    ((start setting registers).after setting labels).root cpu ≠ pml4Phys := by
  have roots : ((start setting registers).after setting labels).Roots setting :=
    Run.invariant (start_roots setting registers)
      (fun _ _ roots allowed => step_roots roots allowed.1 allowed.2) along
  have inKernel := (roots.quiet (by simp [isDestroying])).1 cpu
  have onRoot := roots.onRoot cpu
  rw [OnRoot, inKernel] at onRoot
  rw [show ((start setting registers).after setting labels).root cpu = _ from onRoot]
  exact (roots.destroying pml4Phys isDestroying).symm

/-- A process is dispatched on CPU 1 and exits. -/
def exitingRun : List (Label Nat) :=
  [.spawn 1 0x8000 0x9000 0x3000, .reset, .select .allReady [1], .dispatch 1,
    .advance 1, .advance 1, .advance 1, .advance 1, .exit 1 0]

/-- CPU 1 returns to the kernel before the end of the run is noticed. -/
theorem freed_root_not_loaded_sample : Run.Along (step sampleKernel)
      (fun machine label => machine.Fresh sampleKernel label ∧ machine.Settled label)
      (start sampleKernel fun _ => 0) (exitingRun ++ [.advance 1, .checkDone, .takeForReap 1]) ∧
    ((start sampleKernel fun _ => 0).after sampleKernel
      (exitingRun ++ [.advance 1, .checkDone, .takeForReap 1])).supervisor = .destroying 0x3000 ∧
    ((start sampleKernel fun _ => 0).after sampleKernel
      (exitingRun ++ [.advance 1, .checkDone, .takeForReap 1])).root 1 ≠ 0x3000 :=
  ⟨by decide +kernel, by decide +kernel,
    freed_root_not_loaded sampleKernel _ _ (by decide +kernel) 0x3000 (by decide +kernel) 1⟩

/-- The process has ended in the table, its CPU still has its page tables loaded, and the
supervising thread frees them. -/
theorem loaded_root_freed : ((start sampleKernel fun _ => 0).after sampleKernel
      (exitingRun ++ [.checkDone, .takeForReap 1])).supervisor = .destroying 0x3000 ∧
    ((start sampleKernel fun _ => 0).after sampleKernel
      (exitingRun ++ [.checkDone, .takeForReap 1])).root 1 = 0x3000 ∧
    ((start sampleKernel fun _ => 0).after sampleKernel
      (exitingRun ++ [.checkDone, .takeForReap 1])).place 1 = .leaving := by
  decide +kernel

/-- A CPU in ring 3 runs a process that is running in the table, and on this CPU only. -/
theorem ring3_process_exclusive
    {registers : Cpu → Vector}
    (fresh : Run.Along (step setting) (·.Fresh setting ·) (start setting registers) labels) :
    let machine := (start setting registers).after setting labels
    machine.place cpu = .user → ∃ slot, machine.table.currentSlot cpu = some slot ∧
      (machine.table.slots slot).state = .running ∧
        ∀ other, machine.table.currentSlot other = some slot → other = cpu := by
  intro machine inUser
  have shape : machine.Shape :=
    Run.invariant (start_shape setting registers) (fun _ _ => step_shape) fresh
  have fits := shape.fits cpu
  rw [inUser] at fits
  obtain ⟨slot, isCurrent⟩ := fits
  obtain ⟨running, isPid⟩ := shape.consistent.currentSlot_eq_some_iff.mp isCurrent
  refine ⟨slot, isCurrent, running, fun other isOther => ?_⟩
  exact shape.consistent.cpu_unique (shape.consistent.currentSlot_eq_some_iff.mp isOther).2 isPid

/-- Two processes are in ring 3 on two CPUs. -/
def ring3Run : List (Label Nat) :=
  [.spawn 1 0x8000 0x9000 0x3000, .reset, .spawn 2 0x8000 0x9000 0x4000, .reset,
    .select .allReady [1, 2], .dispatch 1, .dispatch 2] ++
    List.replicate 4 (.advance 1) ++ List.replicate 4 (.advance 2)

theorem ring3_process_exclusive_sample :
    let machine := (start sampleKernel fun _ => 0).after sampleKernel ring3Run
    machine.place 1 = .user ∧ machine.place 2 = .user ∧
      ∃ slot, machine.table.currentSlot 1 = some slot ∧
        (machine.table.slots slot).state = .running ∧
        ∀ other, machine.table.currentSlot other = some slot → other = 1 :=
  ⟨by decide +kernel, by decide +kernel,
    ring3_process_exclusive (by decide +kernel) (by decide +kernel)⟩

end Machine
end Cdk.Processes

import Cdk.Processes.Cpus

/-!
# Vector registers follow the process

The vector state of a process is in the save area of its slot or, newer than that, in
the registers of one CPU: the CPU that runs it, or the CPU that took it off and still
has to save.  A process that another CPU takes up before the save gets an old state.
-/

namespace Cdk.Processes

universe u

def Place.owes : Place → Option SlotId
  | .saving old _ _ => some old
  | .blocking found => found
  | _ => none

/-- The next step of the CPU is the last one before ring 3. -/
def Place.enters : Place → Bool
  | .restored _ | .loading _ => true
  | _ => false

namespace Machine

open ProcessTable Function

variable {Vector : Type u} {setting : Setting Vector} {machine next : Machine Vector}
  {label : Label Vector} {cpu other : Cpu} {slot : SlotId}

/-- The CPU has the vector registers of the slot, or must save them. -/
def Carries (machine : Machine Vector) (cpu : Cpu) (slot : SlotId) : Prop :=
  (machine.place cpu).owes = some slot ∨
    machine.place cpu = .user ∧ machine.table.currentSlot cpu = some slot

/-- No process runs, and none is removed, while a CPU still has to save its registers. -/
def Apart (machine : Machine Vector) : Prop := ∀ cpu slot, (machine.place cpu).owes = some slot →
    (machine.table.slots slot).state = .ready ∨ (machine.table.slots slot).state = .blocked

instance (machine : Machine Vector) : Decidable machine.Apart :=
  inferInstanceAs (Decidable (∀ cpu slot, (machine.place cpu).owes = some slot →
    (machine.table.slots slot).state = .ready ∨ (machine.table.slots slot).state = .blocked))

/-- Vector registers are those that the process had last. -/
structure Vectors (setting : Setting Vector) (machine : Machine Vector) : Prop where
  shape : machine.Shape
  resting : ∀ slot, ProcessTable.ProcessState.live (machine.table.slots slot).state →
    machine.supervisor ≠ .resetting (machine.table.slots slot).pid →
    (∀ cpu, ¬ machine.Carries cpu slot) → machine.areas slot = machine.last slot
  owed : ∀ cpu slot, (machine.place cpu).owes = some slot →
    machine.registers cpu = machine.last slot
  entering : ∀ cpu slot, (machine.place cpu).enters →
    machine.table.currentSlot cpu = some slot → machine.registers cpu = machine.last slot
  clean : ∀ slot, (machine.table.slots slot).state ≠ .free →
    machine.supervisor = .resetting (machine.table.slots slot).pid →
    machine.last slot = setting.initial

theorem start_vectors (setting : Setting Vector) (registers : Cpu → Vector) :
    (start setting registers).Vectors setting where
  shape := start_shape setting registers
  resting _ _ _ _ := rfl
  owed _ _ owes := nomatch owes
  entering _ _ enters := nomatch enters
  clean _ occupied := absurd rfl occupied

/-! ## Save areas that are up to date -/

/-- A process that is new to the supervising thread does not run. -/
theorem Shape.not_resetting (shape : machine.Shape)
    (isCurrent : machine.table.currentSlot cpu = some slot) :
    machine.supervisor ≠ .resetting (machine.table.slots slot).pid := by
  intro isResetting
  have running := shape.consistent.runs isCurrent
  exact (shape.resetting _ isResetting slot (by simp [running]) rfl).2 running

theorem Shape.not_carried (shape : machine.Shape) (apart : machine.Apart)
    (isCurrent : machine.table.currentSlot cpu = some slot) (notUser : machine.place cpu ≠ .user)
    (other : Cpu) : ¬ machine.Carries other slot := by
  have running := shape.consistent.currentSlot_eq_some_iff.mp isCurrent
  rintro (owes | ⟨inUser, onOther⟩)
  · rcases apart other slot owes with rests | rests
    · simp [running.1] at rests
    · simp [running.1] at rests
  · have same := shape.consistent.cpu_unique
      (shape.consistent.currentSlot_eq_some_iff.mp onOther).2 running.2
    exact notUser (same ▸ inUser)

theorem Vectors.area_of_current (vectors : machine.Vectors setting) (apart : machine.Apart)
    (isCurrent : machine.table.currentSlot cpu = some slot) (notUser : machine.place cpu ≠ .user) :
    machine.areas slot = machine.last slot := by
  apply vectors.resting
  · have running := vectors.shape.consistent.runs isCurrent
    simp [running, ProcessState.live]
  · exact vectors.shape.not_resetting isCurrent
  · exact vectors.shape.not_carried apart isCurrent notUser

/-! ## What steps keep -/

variable {op : ProcessTable.Op} {place : Place}

theorem carries_iff (samePlace : next.place cpu = machine.place cpu)
    (sameSlot : next.table.currentSlot cpu = machine.table.currentSlot cpu) :
    next.Carries cpu slot ↔ machine.Carries cpu slot := by
  unfold Carries
  rw [samePlace, sameSlot]

theorem not_carries (isPlace : machine.place cpu = place)
    (notOwed : place.owes = none) (notUser : place ≠ .user) (slot : SlotId) :
    ¬ machine.Carries cpu slot := by
  rintro (owed | ⟨inUser, _⟩)
  · rw [isPlace, notOwed] at owed
    cases owed
  · exact notUser (isPlace.symm.trans inUser)

/-- A step keeps the invariant if the table changes at most by an operation that creates no
process, and each CPU is left alone or is one of those that the step is about. -/
theorem Vectors.of_frame (vectors : machine.Vectors setting) (shape : next.Shape)
    (about : Cpu → Prop)
    (isTable : next.table = machine.table ∨
      ∃ op, op.created = none ∧ next.table = machine.table.step op)
    (sameResetting : ∀ pid, next.supervisor = .resetting pid ↔ machine.supervisor = .resetting pid)
    (others : ∀ cpu, ¬ about cpu → next.place cpu = machine.place cpu ∧
      next.registers cpu = machine.registers cpu ∧
      next.table.currentSlot cpu = machine.table.currentSlot cpu)
    (sameLast : ∀ slot, (∃ cpu, ¬ about cpu ∧
        ((machine.place cpu).owes = some slot ∨ machine.table.currentSlot cpu = some slot)) ∨
      machine.supervisor = .resetting (machine.table.slots slot).pid →
        next.last slot = machine.last slot)
    (resting : ∀ slot, ProcessState.live (next.table.slots slot).state →
      (∀ cpu, about cpu → ¬ next.Carries cpu slot) → next.areas slot = next.last slot ∨
        next.areas slot = machine.areas slot ∧ next.last slot = machine.last slot ∧
          ∀ cpu, about cpu → ¬ machine.Carries cpu slot)
    (own : ∀ cpu slot, about cpu → (next.place cpu).owes = some slot ∨
      (next.place cpu).enters ∧ next.table.currentSlot cpu = some slot →
        next.registers cpu = next.last slot) : next.Vectors setting where
  shape := shape
  owed cpu slot isOwed := by
    by_cases isAbout : about cpu
    · exact own cpu slot isAbout (.inl isOwed)
    · obtain ⟨samePlace, sameRegisters, -⟩ := others cpu isAbout
      rw [samePlace] at isOwed
      rw [sameRegisters, sameLast slot (.inl ⟨cpu, isAbout, .inl isOwed⟩)]
      exact vectors.owed cpu slot isOwed
  entering cpu slot isEntering isCurrent := by
    by_cases isAbout : about cpu
    · exact own cpu slot isAbout (.inr ⟨isEntering, isCurrent⟩)
    obtain ⟨samePlace, sameRegisters, sameSlot⟩ := others cpu isAbout
    rw [samePlace] at isEntering
    rw [sameSlot] at isCurrent
    rw [sameRegisters, sameLast slot (.inl ⟨cpu, isAbout, .inr isCurrent⟩)]
    exact vectors.entering cpu slot isEntering isCurrent
  resting slot live notResetting notCarried := by
    rcases resting slot live fun cpu _ => notCarried cpu with
      upToDate | ⟨sameArea, isLast, wasNotCarried⟩
    · exact upToDate
    have wasLive : ProcessState.live (machine.table.slots slot).state ∧
        (machine.table.slots slot).pid = (next.table.slots slot).pid := by
      rcases isTable with same | ⟨op, notCreated, isStep⟩
      · exact same ▸ ⟨live, rfl⟩
      · rw [isStep] at live ⊢
        exact live_of_live_step vectors.shape.consistent (by simp [notCreated]) live
    rw [sameArea, isLast]
    apply vectors.resting slot wasLive.1
    · rw [wasLive.2]
      exact fun isResetting => notResetting ((sameResetting _).mpr isResetting)
    intro cpu carried
    by_cases isAbout : about cpu
    · exact wasNotCarried cpu isAbout carried
    · obtain ⟨samePlace, -, sameSlot⟩ := others cpu isAbout
      exact notCarried cpu ((carries_iff samePlace sameSlot).mpr carried)
  clean slot occupied isResetting := by
    have was : (machine.table.slots slot).state ≠ .free ∧
        (machine.table.slots slot).pid = (next.table.slots slot).pid := by
      rcases isTable with same | ⟨op, notCreated, isStep⟩
      · exact same ▸ ⟨occupied, rfl⟩
      · rw [isStep] at occupied ⊢
        obtain ⟨before, samePid, -⟩ := (step_moves vectors.shape.consistent op slot).same_process
          occupied (by simp [notCreated]) vectors.shape.consistent
        exact ⟨before, samePid⟩
    rw [← was.2, sameResetting] at isResetting
    rw [sameLast slot (.inr isResetting)]
    exact vectors.clean slot was.1 isResetting

/-! ## Steps on the table -/

theorem Vectors.supervised (vectors : machine.Vectors setting) (shape : next.Shape)
    (isForeign : op.cpu = none) (notCreated : op.created = none)
    (isTable : next.table = machine.table.step op)
    (same : next.areas = machine.areas ∧ next.last = machine.last ∧
      next.place = machine.place ∧ next.registers = machine.registers)
    (sameResetting : ∀ pid, next.supervisor = .resetting pid ↔
      machine.supervisor = .resetting pid) : next.Vectors setting := by
  obtain ⟨sameAreas, sameLast, samePlace, sameRegisters⟩ := same
  have fresh : machine.table.Fresh op := by
    intro pid created
    rw [notCreated] at created
    cases created
  refine vectors.of_frame shape (fun _ => False) (.inr ⟨op, notCreated, isTable⟩) sameResetting
    (fun cpu _ => ?_) (fun _ _ => by rw [sameLast]) (fun _ _ _ => .inr ?_) nofun
  · rw [samePlace, sameRegisters, isTable]
    exact ⟨rfl, rfl, currentSlot_step_of_ne vectors.shape.consistent fresh (by simp [isForeign])⟩
  · rw [sameAreas, sameLast]
    exact ⟨rfl, rfl, nofun⟩

theorem Shape.sameSlot (shape : machine.Shape) (isOwn : op.cpu = some cpu)
    (different : other ≠ cpu) :
    (machine.table.step op).currentSlot other = machine.table.currentSlot other := by
  apply currentSlot_step_of_ne shape.consistent (fresh_of_cpu isOwn)
  intro isOther
  exact different (Option.some.inj (isOther.symm.trans isOwn))

section

variable (vectors : machine.Vectors setting)
include vectors

theorem Vectors.of_cpu_op
    (shape : ((machine.setTable (machine.table.step op)).moveTo cpu place).Shape)
    (isOwn : op.cpu = some cpu) (notCarried : ∀ slot, ¬ machine.Carries cpu slot)
    (owes : place.owes = none) (notEntering : place.enters = false) :
    ((machine.setTable (machine.table.step op)).moveTo cpu place).Vectors setting := by
  refine vectors.of_frame shape (· = cpu) (.inr ⟨op, (Op.of_cpu isOwn).1, rfl⟩)
    (fun _ => Iff.rfl)
    (fun _ different => ⟨moveTo_place_of_ne different, rfl, vectors.shape.sameSlot isOwn different⟩)
    (fun _ _ => rfl) (fun slot _ _ => .inr ⟨rfl, rfl, ?_⟩) ?_
  · rintro _ rfl
    exact notCarried slot
  · rintro _ slot rfl isOwn
    simp [owes, notEntering] at isOwn

/-- A process leaves its CPU, and the CPU still has to save its registers. -/
theorem Vectors.depart (apart : machine.Apart)
    (shape : (((machine.setTable (machine.table.step op)).setLast cpu slot).moveTo cpu place).Shape)
    (isOwn : op.cpu = some cpu) (inUser : machine.place cpu = .user)
    (isCurrent : machine.table.currentSlot cpu = some slot) (owes : place.owes = some slot)
    (notEntering : place.enters = false) :
    (((machine.setTable (machine.table.step op)).setLast cpu slot).moveTo cpu place).Vectors
      setting := by
  have running := vectors.shape.consistent.currentSlot_eq_some_iff.mp isCurrent
  refine vectors.of_frame shape (· = cpu) (.inr ⟨op, (Op.of_cpu isOwn).1, rfl⟩)
    (fun _ => Iff.rfl)
    (fun _ different => ⟨moveTo_place_of_ne different, rfl, vectors.shape.sameSlot isOwn different⟩)
    (fun rest kept => ?_) (fun rest _ notCarried => .inr ?_) ?_
  · apply update_of_ne
    rintro rfl
    rcases kept with ⟨other, isOther, owed | onOther⟩ | isResetting
    · rcases apart other rest owed with rests | rests <;> simp [running.1] at rests
    · exact isOther (vectors.shape.consistent.cpu_unique
        (vectors.shape.consistent.currentSlot_eq_some_iff.mp onOther).2 running.2)
    · exact vectors.shape.not_resetting isCurrent isResetting
  · -- The departing process is carried, so this is another one.
    have different : rest ≠ slot := by
      rintro rfl
      exact notCarried cpu rfl (.inl (by rw [moveTo_place_self, owes]))
    refine ⟨rfl, update_of_ne different .., ?_⟩
    rintro _ rfl (owed | ⟨_, onCpu⟩)
    · rw [inUser] at owed
      cases owed
    · exact different (Option.some.inj (onCpu.symm.trans isCurrent))
  · rintro _ rest rfl isOwn
    simp only [moveTo_place_self, owes, notEntering, Option.some.injEq, Bool.false_eq_true,
      false_and, or_false] at isOwn
    subst isOwn
    exact (update_self slot _ machine.last).symm

theorem Vectors.finish (leaving : op.leaving = some (cpu, change))
    (ends : ∀ process, ProcessState.live (change process).state = false)
    (inUser : machine.place cpu = .user) : (machine.finish cpu op).Vectors setting := by
  have isOwn := Op.cpu_of_leaving leaving
  refine vectors.of_frame (vectors.shape.finish leaving) (· = cpu)
    (.inr ⟨op, (Op.of_cpu isOwn).1, rfl⟩) (fun _ => Iff.rfl)
    (fun _ different => ⟨moveTo_place_of_ne different, rfl, vectors.shape.sameSlot isOwn different⟩)
    (fun _ _ => rfl) (fun slot live _ => .inr ⟨rfl, rfl, ?_⟩) ?_
  · rintro other rfl (owed | ⟨_, isCurrent⟩)
    · rw [inUser] at owed
      cases owed
    · have isEnded : (machine.table.step op).slots slot = change (machine.table.slots slot) :=
        slots_of_leaving leaving isCurrent
      rw [show (machine.finish other op).table.slots slot = _ from isEnded, ends] at live
      cases live
  · rintro _ slot rfl isOwn
    simp [Machine.finish, Place.owes, Place.enters] at isOwn

theorem Vectors.tick (inUser : machine.place cpu = .user)
    (noSwitch : ∀ pml4Phys old next,
        (machine.table.tick cpu frame slice budget).2.2 ≠ .switch pml4Phys old next) :
    (machine.setTable (machine.table.step (.tick cpu frame slice budget))).Vectors setting :=
  vectors.of_frame (vectors.shape.tick inUser noSwitch) (fun _ => False)
    (.inr ⟨.tick cpu frame slice budget, rfl, rfl⟩) (fun _ => Iff.rfl)
    (fun other _ => ⟨rfl, rfl, currentSlot_of_not_switch noSwitch other⟩)
    (fun _ _ => rfl) (fun _ _ _ => .inr ⟨rfl, rfl, nofun⟩) nofun

/-! ## Steps on vector state -/

theorem Vectors.of_plain_move (shape : (next.moveTo cpu place).Shape)
    (same : next.table = machine.table ∧ next.last = machine.last ∧
      next.supervisor = machine.supervisor ∧ next.place = machine.place ∧
      next.areas = machine.areas)
    (sameRegisters : ∀ other, other ≠ cpu → next.registers other = machine.registers other)
    (notCarried : ∀ slot, ¬ machine.Carries cpu slot) (notOwed : place.owes = none)
    (entering : ∀ slot, place.enters → machine.table.currentSlot cpu = some slot →
      next.registers cpu = machine.last slot) :
    (next.moveTo cpu place).Vectors setting := by
  obtain ⟨sameTable, sameLast, sameSupervisor, samePlace, sameAreas⟩ := same
  refine vectors.of_frame shape (· = cpu) (.inl sameTable) (fun _ => by simp [sameSupervisor])
    (fun other different => ?_) (fun slot _ => congrFun sameLast slot)
    (fun slot _ _ => .inr ⟨congrFun sameAreas slot, congrFun sameLast slot, ?_⟩) ?_
  · rw [moveTo_place_of_ne different, moveTo_table, samePlace, sameTable]
    exact ⟨rfl, sameRegisters other different, rfl⟩
  · rintro _ rfl
    exact notCarried slot
  · rintro _ slot rfl isOwn
    simp only [moveTo_place_self, notOwed, reduceCtorEq, false_or, moveTo_table, sameTable] at isOwn
    exact (entering slot isOwn.1 isOwn.2).trans (congrFun sameLast slot).symm

/-- A process gets the vector state of its save area. -/
theorem Vectors.restore (apart : machine.Apart) (enabled : setting.enabled)
    (shape : ((machine.restore setting cpu slot).moveTo cpu place).Shape)
    (isCurrent : machine.table.currentSlot cpu = some slot) (notUser : machine.place cpu ≠ .user)
    (notCarried : ∀ slot, ¬ machine.Carries cpu slot) (notOwed : place.owes = none) :
    ((machine.restore setting cpu slot).moveTo cpu place).Vectors setting := by
  have upToDate := vectors.area_of_current apart isCurrent notUser
  simp only [Machine.restore, enabled, if_true] at shape ⊢
  refine vectors.of_plain_move shape ⟨rfl, rfl, rfl, rfl, rfl⟩
    (fun other different => update_of_ne different ..) notCarried notOwed ?_
  intro rest _ onCpu
  obtain rfl := Option.some.inj (isCurrent.symm.trans onCpu)
  exact (update_self ..).trans upToDate

theorem Vectors.save (enabled : setting.enabled)
    (shape : ((machine.save setting cpu slot).moveTo cpu place).Shape)
    (owed : (machine.place cpu).owes = some slot) (notUser : machine.place cpu ≠ .user)
    (notOwed : place.owes = none) (notEntering : place.enters = false) :
    ((machine.save setting cpu slot).moveTo cpu place).Vectors setting := by
  have upToDate := vectors.owed cpu slot owed
  simp only [Machine.save, enabled, if_true] at shape ⊢
  refine vectors.of_frame shape (· = cpu) (.inl rfl) (fun _ => Iff.rfl)
    (fun other different => ⟨moveTo_place_of_ne different, rfl, rfl⟩) (fun _ _ => rfl)
    (fun rest _ _ => ?_) ?_
  · by_cases isSlot : rest = slot
    · subst rest
      exact .inl ((update_self ..).trans upToDate)
    · refine .inr ⟨update_of_ne isSlot .., rfl, ?_⟩
      rintro _ rfl (isOwed | ⟨inUser, _⟩)
      · exact isSlot (Option.some.inj (isOwed.symm.trans owed))
      · exact notUser inUser
  · rintro _ rest rfl isOwn
    simp [notOwed, notEntering] at isOwn

end

theorem Advance.vectors (advance : Advance setting machine cpu next)
    (vectors : machine.Vectors setting) (apart : machine.Apart) (enabled : setting.enabled) :
    next.Vectors setting := by
  have shape := advance.shape vectors.shape
  have fits := vectors.shape.fits cpu
  cases advance with
  | still => exact vectors
  | skipped isPlace | located isPlace | entered isPlace
  | loaded isPlace | notSaved isPlace | left isPlace =>
    exact vectors.of_plain_move shape ⟨rfl, rfl, rfl, rfl, rfl⟩ (fun _ _ => rfl)
      (not_carries isPlace rfl nofun) rfl nofun
  | @marked process isPlace =>
    have marked : (machine.setTable (machine.table.step (.markStarted process.pid))).Vectors
        setting :=
      @Vectors.supervised _ _ _ _ (.markStarted process.pid) vectors
        (vectors.shape.mark process.pid) rfl rfl rfl ⟨rfl, rfl, rfl, rfl⟩ fun _ => Iff.rfl
    exact marked.of_plain_move shape ⟨rfl, rfl, rfl, rfl, rfl⟩ (fun _ _ => rfl)
      (not_carries isPlace rfl nofun) rfl nofun
  | @restored process slot isPlace =>
    rw [isPlace] at fits
    exact vectors.restore apart enabled shape fits.2 (by simp [isPlace])
      (not_carries isPlace rfl nofun) rfl
  | notRestored isPlace =>
    rw [isPlace] at fits
    refine vectors.of_plain_move shape ⟨rfl, rfl, rfl, rfl, rfl⟩ (fun _ _ => rfl)
      (not_carries isPlace rfl nofun) rfl fun slot _ isCurrent => ?_
    rw [fits.2] at isCurrent
    cases isCurrent
  | saved isPlace | savedBlocked isPlace =>
    exact vectors.save enabled shape (by rw [isPlace]; rfl) (by simp [isPlace]) rfl rfl
  | switched isPlace =>
    rw [isPlace] at fits
    exact vectors.restore apart enabled shape fits (by simp [isPlace])
      (not_carries isPlace rfl nofun) rfl

/-! ## New processes -/

/-- A new process has the clean vector state as its last one. -/
theorem Vectors.spawned (vectors : machine.Vectors setting) (apart : machine.Apart) {pid : UInt32}
    {entry stackTop pml4Phys : UInt64} (isIdle : machine.supervisor = .idle)
    (isNew : machine.table.find pid = none) (shape : next.Shape) (isNext : next = { machine with
        table := machine.table.step (.insert pid entry stackTop pml4Phys)
        supervisor := .resetting pid
        last := fun slot =>
          if machine.table.occupied slot then machine.last slot else setting.initial }) :
    next.Vectors setting := by
  subst isNext
  have consistent := vectors.shape.consistent
  have fresh : machine.table.Fresh (.insert pid entry stackTop pml4Phys) := by
    intro other isCreated
    obtain rfl := Option.some.inj isCreated
    exact isNew
  have sameSlot : ∀ cpu, (machine.table.step (.insert pid entry stackTop pml4Phys)).currentSlot
      cpu = machine.table.currentSlot cpu := fun cpu =>
    currentSlot_step_of_ne consistent fresh (by simp [Op.cpu])
  have sameLast : ∀ slot, (machine.table.slots slot).state ≠ .free →
      (if machine.table.occupied slot then machine.last slot else setting.initial) =
        machine.last slot := by
    intro slot occupied
    exact if_pos (by simpa [ProcessTable.occupied] using occupied)
  refine ⟨shape, ?_, ?_, ?_, ?_⟩
  · intro slot live notResetting notCarried
    have notCreated : (Op.insert pid entry stackTop pml4Phys).created ≠
        some ((machine.table.step (.insert pid entry stackTop pml4Phys)).slots slot).pid := by
      intro isCreated
      exact notResetting (congrArg _ (Option.some.inj isCreated))
    obtain ⟨wasLive, _⟩ := live_of_live_step consistent notCreated live
    refine Eq.trans ?_ (sameLast slot (ProcessState.ne_free_of_live wasLive)).symm
    apply vectors.resting slot wasLive (by simp [isIdle])
    intro cpu carried
    apply notCarried cpu
    rcases carried with owed | ⟨inUser, isCurrent⟩
    · exact .inl owed
    · exact .inr ⟨inUser, (sameSlot cpu).trans isCurrent⟩
  · intro cpu slot owed
    have occupied : (machine.table.slots slot).state ≠ .free := by
      rcases apart cpu slot owed with rests | rests <;> simp [rests]
    exact (vectors.owed cpu slot owed).trans (sameLast slot occupied).symm
  · intro cpu slot isEntering isCurrent
    have wasCurrent := (sameSlot cpu).symm.trans isCurrent
    have running := consistent.runs wasCurrent
    exact (vectors.entering cpu slot isEntering wasCurrent).trans
      (sameLast slot (by simp [running])).symm
  · intro slot occupied isResetting
    have isPid := Supervisor.resetting.inj isResetting
    apply if_neg
    intro wasOccupied
    have was : (machine.table.slots slot).state ≠ .free := by
      simpa [ProcessTable.occupied] using wasOccupied
    have absent := find_eq_none_iff.mp isNew slot was
    rcases slots_insert consistent pid entry stackTop pml4Phys slot with
      isKept | ⟨free, _⟩
    · exact absent ((congrArg Process.pid isKept).symm.trans isPid.symm)
    · exact was free

/-- The save area of a new process is cleaned. -/
theorem Vectors.reset (vectors : machine.Vectors setting) {pid : UInt32}
    (isResetting : machine.supervisor = .resetting pid)
    (shape : (machine.reset setting pid).Shape) : (machine.reset setting pid).Vectors setting := by
  have areas : ∀ slot, (machine.table.slots slot).state ≠ .free →
      (machine.reset setting pid).areas slot =
        if (machine.table.slots slot).pid = pid then setting.initial else machine.areas slot := by
    intro slot occupied
    unfold Machine.reset
    split_ifs with isPid
    · subst isPid
      rw [vectors.shape.consistent.find_eq_some occupied]
      exact update_self ..
    cases found : machine.table.find pid with
    | none => rfl
    | some other =>
      apply update_of_ne
      rintro rfl
      exact isPid (of_find_eq_some found).2
  have same : (machine.reset setting pid).table = machine.table ∧
      (machine.reset setting pid).place = machine.place ∧
      (machine.reset setting pid).registers = machine.registers ∧
      (machine.reset setting pid).last = machine.last ∧
      (machine.reset setting pid).supervisor = .idle := by
    unfold Machine.reset
    cases machine.table.find pid <;> exact ⟨rfl, rfl, rfl, rfl, rfl⟩
  obtain ⟨sameTable, samePlace, sameRegisters, sameLast, isIdle⟩ := same
  refine ⟨shape, ?_, ?_, ?_, ?_⟩
  · intro slot live _ notCarried
    rw [sameTable] at live
    have occupied := ProcessState.ne_free_of_live live
    rw [areas slot occupied, sameLast]
    split_ifs with isPid
    · exact (vectors.clean slot occupied (isPid ▸ isResetting)).symm
    apply vectors.resting slot live
    · rw [isResetting]
      exact fun isOther => isPid (Supervisor.resetting.inj isOther).symm
    · intro cpu carried
      apply notCarried cpu
      unfold Carries
      rwa [samePlace, sameTable]
  · rw [samePlace, sameRegisters, sameLast]
    exact vectors.owed
  · rw [samePlace, sameTable, sameRegisters, sameLast]
    exact vectors.entering
  · intro slot _ stillResetting
    rw [isIdle] at stillResetting
    cases stillResetting

/-! ## Runs -/

theorem step_vectors (enabled : setting.enabled) (vectors : machine.Vectors setting)
    (apart : machine.Apart) (fresh : machine.Fresh setting label) :
    (machine.step setting label).Vectors setting := by
  have shape := step_shape vectors.shape fresh
  have act := step_act setting machine label
  generalize machine.step setting label = next at act shape ⊢
  cases act with
  | still => exact vectors
  | @spawned pid entry stackTop pml4Phys isIdle =>
    exact vectors.spawned apart isIdle (fresh _ rfl).1 shape rfl
  | reset isResetting => exact vectors.reset isResetting shape
  | @selected which homes isIdle =>
    refine @Vectors.supervised _ _ _ _ (.select which homes) vectors shape rfl rfl rfl
      ⟨rfl, rfl, rfl, rfl⟩ fun pid => ?_
    simp [isIdle]
  | @unblocked pid result isRunning =>
    exact @Vectors.supervised _ _ _ _ (.unblock pid result) vectors shape rfl rfl rfl
      ⟨rfl, rfl, rfl, rfl⟩ fun _ => Iff.rfl
  | @reaped pid process isIdle taken =>
    refine @Vectors.supervised _ _ _ _ (.takeForReap pid) vectors shape rfl rfl rfl
      ⟨rfl, rfl, rfl, rfl⟩ fun pid => ?_
    simp [isIdle]
  | ended isAt | destroyed isAt =>
    refine ⟨shape, fun slot live _ => vectors.resting slot live (by simp [isAt]), vectors.owed,
      vectors.entering, nofun⟩
  | @dispatched cpu process inKernel isProcess =>
    exact @Vectors.of_cpu_op _ _ _ cpu (.dispatchNext cpu) _ vectors shape rfl
      (not_carries inKernel rfl nofun) rfl rfl
  | advanced advance => exact advance.vectors vectors apart enabled
  | @failed cpu process isRestored =>
    exact @Vectors.of_cpu_op _ _ _ cpu (.putBack cpu) _ vectors shape rfl
      (not_carries isRestored rfl nofun) rfl rfl
  | @computed cpu vector inUser =>
    -- Ring-3 code changes registers that are newer than any save area.
    have others : ∀ {other}, machine.place other ≠ .user →
        update machine.registers cpu vector other = machine.registers other := by
      intro other notUser
      apply update_of_ne
      rintro rfl
      exact notUser inUser
    refine ⟨shape, vectors.resting, fun other slot owed => ?_, fun other slot enters => ?_,
      vectors.clean⟩
    · refine (others fun atUser => ?_).trans (vectors.owed other slot owed)
      rw [show machine.place other = _ from atUser] at owed
      cases owed
    · intro isCurrent
      refine (others fun atUser => ?_).trans (vectors.entering other slot enters isCurrent)
      rw [show machine.place other = _ from atUser] at enters
      cases enters
  | @continued cpu frame slice budget inUser isContinue =>
    exact vectors.tick inUser fun _ _ _ isSwitch => nomatch isContinue.symm.trans isSwitch
  | @switched cpu frame slice budget pml4Phys old next inUser isSwitch =>
    have isCurrent := (currentSlot_of_switch vectors.shape.consistent isSwitch).1
    exact @Vectors.depart _ _ _ cpu old (.tick cpu frame slice budget) _ vectors apart shape rfl
      inUser isCurrent rfl rfl
  | @killed cpu frame slice budget ticks pid inUser isKill =>
    have ticked := vectors.tick inUser fun _ _ _ isSwitch => nomatch isKill.symm.trans isSwitch
    exact ticked.finish rfl (fun _ => rfl) inUser
  | @blocked cpu frame slot inUser isCurrent =>
    exact @Vectors.depart _ _ _ cpu slot (.blockCurrent cpu frame) _ vectors apart shape rfl
      inUser isCurrent rfl rfl
  | @blockedNone cpu frame inUser noSlot =>
    have fits := vectors.shape.fits cpu
    rw [inUser] at fits
    obtain ⟨slot, isCurrent⟩ := fits
    rw [noSlot] at isCurrent
    cases isCurrent
  | finished inUser isEnd =>
    rcases isEnd with ⟨code, rfl⟩ | ⟨fault, rfl⟩
    · exact vectors.finish rfl (fun _ => rfl) inUser
    · exact vectors.finish rfl (fun _ => rfl) inUser

theorem Shape.exists_slot_of_enters (shape : machine.Shape) (enters : (machine.place cpu).enters) :
    ∃ slot, machine.table.currentSlot cpu = some slot := by
  have fits := shape.fits cpu
  cases place : machine.place cpu with
  | restored process =>
    rw [place] at fits
    exact shape.exists_currentSlot fits
  | loading pml4Phys =>
    rw [place] at fits
    exact fits
  | _ =>
    rw [place] at enters
    cases enters

/-- A process enters ring 3 with the vector registers with which it last left a CPU, or
clean ones, provided that it never runs while a CPU still has to save its registers. -/
theorem vectors_follow_process
    (setting : Setting Vector)
    (enabled : setting.enabled)
    (registers : Cpu → Vector)
    (labels : List (Label Vector))
    (along : Run.Along (step setting)
      (fun machine label => machine.Apart ∧ machine.Fresh setting label)
      (start setting registers) labels)
    (cpu : Cpu)
    (enters : (((start setting registers).after setting labels).place cpu).enters) :
    ∃ slot, ((start setting registers).after setting labels).table.currentSlot cpu = some slot ∧
      ((start setting registers).after setting labels).registers cpu =
        ((start setting registers).after setting labels).last slot := by
  have vectors : ((start setting registers).after setting labels).Vectors setting :=
    Run.invariant (start_vectors setting registers)
      (fun _ _ vectors allowed => step_vectors enabled vectors allowed.1 allowed.2) along
  obtain ⟨slot, isCurrent⟩ := vectors.shape.exists_slot_of_enters enters
  exact ⟨slot, isCurrent, vectors.entering cpu slot enters isCurrent⟩

/-- Process 1 runs on CPU 1, sets its vector registers to 5 and is preempted. -/
def preemptedRun : List (Label Nat) :=
  [.spawn 1 0x8000 0x9000 0x3000, .reset, .spawn 2 0xa000 0xb000 0x5000, .reset,
    .select .allReady [1, 2], .dispatch 1, .advance 1, .advance 1, .advance 1, .advance 1,
    .compute 1 5, .tick 1 (.userEntry 0x8000 0x9000) 1 100]

/-- CPU 1 saves before CPU 2 takes the process up. -/
theorem vectors_follow_process_sample : Run.Along (step sampleKernel)
      (fun machine label => machine.Apart ∧ machine.Fresh sampleKernel label)
      (start sampleKernel fun _ => 0)
      (preemptedRun ++ [.advance 1, .dispatch 2, .advance 2, .advance 2, .advance 2]) ∧
    ∃ slot, ((start sampleKernel fun _ => 0).after sampleKernel
        (preemptedRun ++ [.advance 1, .dispatch 2, .advance 2, .advance 2,
          .advance 2])).table.currentSlot 2 = some slot ∧
      ((start sampleKernel fun _ => 0).after sampleKernel
        (preemptedRun ++ [.advance 1, .dispatch 2, .advance 2, .advance 2,
          .advance 2])).registers 2 = ((start sampleKernel fun _ => 0).after sampleKernel
        (preemptedRun ++ [.advance 1, .dispatch 2, .advance 2, .advance 2,
          .advance 2])).last slot :=
  ⟨by decide +kernel,
    vectors_follow_process sampleKernel rfl _ _ (by decide +kernel) 2 (by decide +kernel)⟩

/-- CPU 2 takes the process up before CPU 1 saves, and is about to enter ring 3 with the
clean vector state. -/
theorem vectors_taken_before_save : (((start sampleKernel fun _ => 0).after sampleKernel
      (preemptedRun ++ [.dispatch 2, .advance 2, .advance 2, .advance 2])).place 2).enters =
        true ∧ ((start sampleKernel fun _ => 0).after sampleKernel
      (preemptedRun ++ [.dispatch 2, .advance 2, .advance 2,
        .advance 2])).table.currentSlot 2 = some 0 ∧
    ((start sampleKernel fun _ => 0).after sampleKernel
      (preemptedRun ++ [.dispatch 2, .advance 2, .advance 2, .advance 2])).registers 2 = 0 ∧
    ((start sampleKernel fun _ => 0).after sampleKernel
      (preemptedRun ++ [.dispatch 2, .advance 2, .advance 2, .advance 2])).last 0 = 5 := by
  decide +kernel

end Machine
end Cdk.Processes

import Cdk.Processes.Invariants

/-!
# CPUs that run processes

The CPUs share the process table, and each has vector registers, a page-table root and a place
in the code that enters and leaves ring 3.  A step is one critical section, one save or restore
of vector registers, one load of a root, or some ring-3 code, in any interleaving.  One more
thread supervises the run.
-/

namespace Cdk.Processes

open Function

universe u

/-- What does not change: the clean vector state, whether the kernel switches
vector state at all, and the page tables of the kernel. -/
structure Setting (Vector : Type u) where
  initial : Vector
  enabled : Bool
  kernelRoot : UInt64

/-- Where a CPU is between two steps. -/
inductive Place
  | kernel
  | dispatched (process : Process)
  | started (process : Process)
  | located (process : Process) (found : Option SlotId)
  | restored (process : Process)
  | user
  | saving («from» «to» : SlotId) (pml4Phys : UInt64)
  | restoring («to» : SlotId) (pml4Phys : UInt64)
  | loading (pml4Phys : UInt64)
  | blocking (found : Option SlotId)
  | leaving
  deriving DecidableEq

/-- Where the supervising thread is. -/
inductive Supervisor
  | idle
  | resetting (pid : UInt32)
  | running
  | destroying (pml4Phys : UInt64)
  deriving DecidableEq

/-- The last field belongs to no memory: it is the vector state that the process of
a slot had when it last left a CPU. -/
structure Machine (Vector : Type u) where
  table : ProcessTable
  areas : SlotId → Vector
  registers : Cpu → Vector
  root : Cpu → UInt64
  resume : Cpu → UInt64
  place : Cpu → Place
  supervisor : Supervisor
  last : SlotId → Vector

/-- What can happen. -/
inductive Label (Vector : Type u)
  | spawn (pid : UInt32) (entry stackTop pml4Phys : UInt64)
  | reset
  | select (which : Select) (homes : List Nat)
  | unblock (pid : UInt32) (result : UInt64)
  | checkDone
  | takeForReap (pid : UInt32)
  | destroy
  | dispatch (cpu : Cpu)
  | advance (cpu : Cpu)
  | enterFails (cpu : Cpu)
  | compute (cpu : Cpu) (vector : Vector)
  | tick (cpu : Cpu) (frame : TrapFrame) (slice budget : UInt64)
  | block (cpu : Cpu) (frame : TrapFrame)
  | exit (cpu : Cpu) (code : UInt64)
  | crash (cpu : Cpu) (fault : UserFault)

def Label.created {Vector : Type u} : Label Vector → Option (UInt32 × UInt64)
  | .spawn pid _ _ pml4Phys => some (pid, pml4Phys)
  | _ => none

namespace Machine

variable {Vector : Type u}

/-- After the boot. -/
def start (setting : Setting Vector) (registers : Cpu → Vector) : Machine Vector where
  table := .new
  areas _ := setting.initial
  registers := registers
  root _ := setting.kernelRoot
  resume _ := setting.kernelRoot
  place _ := .kernel
  supervisor := .idle
  last _ := setting.initial

section Steps

variable (setting : Setting Vector) (machine : Machine Vector)

variable (cpu : Cpu)

def moveTo (place : Place) : Machine Vector :=
  { machine with place := update machine.place cpu place }

/-- `fpu::save`: this CPU's vector registers go to the area of a slot. -/
def save (slot : SlotId) : Machine Vector :=
  if setting.enabled then
    { machine with areas := update machine.areas slot (machine.registers cpu) }
  else machine

/-- `fpu::restore`: the area of a slot goes to this CPU's vector registers. -/
def restore (slot : SlotId) : Machine Vector :=
  if setting.enabled then
    { machine with registers := update machine.registers cpu (machine.areas slot) }
  else machine

def loadRoot (pml4Phys : UInt64) : Machine Vector :=
  { machine with root := update machine.root cpu pml4Phys }

def setTable (table : ProcessTable) : Machine Vector := { machine with table := table }

/-- The next step of a CPU. -/
def advance : Machine Vector :=
  match machine.place cpu with
  | .dispatched process =>
    let marked :=
      if process.started then machine
      else machine.setTable (machine.table.step (.markStarted process.pid))
    marked.moveTo cpu (.started process)
  | .started process => machine.moveTo cpu (.located process (machine.table.find process.pid))
  | .located process found =>
    let restored :=
      match found with
      | some slot => machine.restore setting cpu slot
      | none => machine
    restored.moveTo cpu (.restored process)
  | .restored process =>
    -- Entering ring 3 keeps the kernel's own root for the way back.
    let entered := machine.loadRoot cpu process.pml4Phys
    { entered with
      resume := update machine.resume cpu (machine.root cpu) }.moveTo cpu .user
  | .saving old next pml4Phys =>
    (machine.save setting cpu old).moveTo cpu (.restoring next pml4Phys)
  | .restoring next pml4Phys =>
    (machine.restore setting cpu next).moveTo cpu (.loading pml4Phys)
  | .loading pml4Phys => (machine.loadRoot cpu pml4Phys).moveTo cpu .user
  | .blocking found =>
    let saved :=
      match found with
      | some slot => machine.save setting cpu slot
      | none => machine
    saved.moveTo cpu .leaving
  | .leaving => (machine.loadRoot cpu (machine.resume cpu)).moveTo cpu .kernel
  | .kernel | .user => machine

def finish (op : ProcessTable.Op) : Machine Vector :=
  (machine.setTable (machine.table.step op)).moveTo cpu .leaving

def setLast (slot : SlotId) : Machine Vector :=
  { machine with last := update machine.last slot (machine.registers cpu) }

/-- The timer interrupts ring 3. -/
def tick (frame : TrapFrame) (slice budget : UInt64) : Machine Vector :=
  let ticked := machine.setTable (machine.table.step (.tick cpu frame slice budget))
  match (machine.table.tick cpu frame slice budget).2.2 with
  | .continue => ticked
  | .switch pml4Phys old next => (ticked.setLast cpu old).moveTo cpu (.saving old next pml4Phys)
  | .kill _ _ => ticked.finish cpu (.killCurrent cpu)

/-- A system call blocks its process. -/
def block (frame : TrapFrame) : Machine Vector :=
  let blocked := machine.setTable (machine.table.step (.blockCurrent cpu frame))
  match machine.table.currentSlot cpu with
  | some slot => (blocked.setLast cpu slot).moveTo cpu (.blocking (some slot))
  | none => blocked.moveTo cpu (.blocking none)

/-- A new process is put in a free slot; it has left no CPU yet. -/
def spawn (pid : UInt32) (entry stackTop pml4Phys : UInt64) : Machine Vector :=
  match (machine.table.insert pid entry stackTop pml4Phys).2 with
  | .ok _ =>
    { machine with
      table := machine.table.step (.insert pid entry stackTop pml4Phys)
      supervisor := .resetting pid
      last := fun slot =>
        if machine.table.occupied slot then machine.last slot else setting.initial }
  | .error _ => machine

/-- Clear the vector area of a slot. -/
def reset (pid : UInt32) : Machine Vector :=
  let cleaned :=
    match machine.table.find pid with
    | some slot => { machine with areas := update machine.areas slot setting.initial }
    | none => machine
  { cleaned with supervisor := .idle }

def inUser (next : Machine Vector) : Machine Vector :=
  if machine.place cpu = .user then next else machine

variable {cpu}

/-- A step that is taken only at one place of the supervising thread. -/
def whileAt (supervisor : Supervisor) (next : Machine Vector) : Machine Vector :=
  if machine.supervisor = supervisor then next else machine

/-- One step. -/
def step : Label Vector → Machine Vector
  | .spawn pid entry stackTop pml4Phys =>
    machine.whileAt .idle (machine.spawn setting pid entry stackTop pml4Phys)
  | .reset =>
    match machine.supervisor with
    | .resetting pid => machine.reset setting pid
    | _ => machine
  | .select which homes =>
    machine.whileAt .idle <|
      match (machine.table.select which homes).2 with
      | .ok _ =>
        { machine.setTable (machine.table.step (.select which homes)) with
          supervisor := .running }
      | .error _ => machine
  | .unblock pid result =>
    machine.whileAt .running (machine.setTable (machine.table.step (.unblock pid result)))
  | .checkDone =>
    machine.whileAt .running <|
      if machine.table.outstanding = (0, []) then { machine with supervisor := .idle }
      else machine
  | .takeForReap pid =>
    machine.whileAt .idle <|
      match (machine.table.takeForReap pid).2 with
      | .ok process =>
        { machine.setTable (machine.table.step (.takeForReap pid)) with
          supervisor := .destroying process.pml4Phys }
      | .error _ => machine
  | .destroy =>
    match machine.supervisor with
    | .destroying _ => { machine with supervisor := .idle }
    | _ => machine
  | .dispatch cpu =>
    if machine.place cpu = .kernel then
      match (machine.table.dispatchNext cpu).2 with
      | some process =>
        (machine.setTable (machine.table.step (.dispatchNext cpu))).moveTo cpu (.dispatched process)
      | none => machine
    else machine
  | .advance cpu => machine.advance setting cpu
  | .enterFails cpu =>
    match machine.place cpu with
    | .restored _ => (machine.setTable (machine.table.step (.putBack cpu))).moveTo cpu .kernel
    | _ => machine
  | .compute cpu vector =>
    machine.inUser cpu { machine with registers := update machine.registers cpu vector }
  | .tick cpu frame slice budget => machine.inUser cpu (machine.tick cpu frame slice budget)
  | .block cpu frame => machine.inUser cpu (machine.block cpu frame)
  | .exit cpu code => machine.inUser cpu (machine.finish cpu (.exitCurrent cpu code))
  | .crash cpu fault => machine.inUser cpu (machine.finish cpu (.crashCurrent cpu fault))

/-- A process is created under a new pid, with page tables of its own. -/
def Fresh (label : Label Vector) : Prop :=
  ∀ created ∈ label.created, machine.table.find created.1 = none ∧ created.2 ≠ setting.kernelRoot

instance (label : Label Vector) : Decidable (machine.Fresh setting label) :=
  Option.decidableForallMem label.created

end Steps

variable {setting : Setting Vector} {machine next : Machine Vector} {label : Label Vector}
  {cpu other : Cpu}

/-! ## What a step does -/

section

variable (setting machine cpu)

/-- What a CPU can do on its own. -/
inductive Advance : Machine Vector → Prop
  | still : Advance machine
  | skipped {process : Process} (isPlace : machine.place cpu = .dispatched process) :
      Advance (machine.moveTo cpu (.started process))
  | marked {process : Process} (isPlace : machine.place cpu = .dispatched process) :
      Advance
        ((machine.setTable (machine.table.step (.markStarted process.pid))).moveTo cpu
          (.started process))
  | located {process : Process} (isPlace : machine.place cpu = .started process) :
      Advance (machine.moveTo cpu (.located process (machine.table.find process.pid)))
  | restored {process : Process} {slot : SlotId}
      (isPlace : machine.place cpu = .located process (some slot)) :
      Advance ((machine.restore setting cpu slot).moveTo cpu (.restored process))
  | notRestored {process : Process} (isPlace : machine.place cpu = .located process none) :
      Advance (machine.moveTo cpu (.restored process))
  | entered {process : Process} (isPlace : machine.place cpu = .restored process) :
      Advance
        ({ machine.loadRoot cpu process.pml4Phys with
          resume := update machine.resume cpu (machine.root cpu) }.moveTo cpu .user)
  | saved {old next : SlotId} {pml4Phys : UInt64}
      (isPlace : machine.place cpu = .saving old next pml4Phys) :
      Advance ((machine.save setting cpu old).moveTo cpu (.restoring next pml4Phys))
  | switched {next : SlotId} {pml4Phys : UInt64}
      (isPlace : machine.place cpu = .restoring next pml4Phys) :
      Advance ((machine.restore setting cpu next).moveTo cpu (.loading pml4Phys))
  | loaded {pml4Phys : UInt64} (isPlace : machine.place cpu = .loading pml4Phys) :
      Advance ((machine.loadRoot cpu pml4Phys).moveTo cpu .user)
  | savedBlocked {slot : SlotId} (isPlace : machine.place cpu = .blocking (some slot)) :
      Advance ((machine.save setting cpu slot).moveTo cpu .leaving)
  | notSaved (isPlace : machine.place cpu = .blocking none) : Advance (machine.moveTo cpu .leaving)
  | left (isPlace : machine.place cpu = .leaving) :
      Advance ((machine.loadRoot cpu (machine.resume cpu)).moveTo cpu .kernel)

end

theorem advance_cases (setting : Setting Vector) (machine : Machine Vector) (cpu : Cpu) :
    Advance setting machine cpu (machine.advance setting cpu) := by
  unfold advance
  cases isPlace : machine.place cpu with
  | kernel | user => exact .still
  | dispatched process =>
    simp only
    split_ifs
    · exact .skipped isPlace
    · exact .marked isPlace
  | started process => exact .located isPlace
  | located process found =>
    cases found with
    | none => exact .notRestored isPlace
    | some slot => exact .restored isPlace
  | restored process => exact .entered isPlace
  | saving old next pml4Phys => exact .saved isPlace
  | restoring next pml4Phys => exact .switched isPlace
  | loading pml4Phys => exact .loaded isPlace
  | blocking found =>
    cases found with
    | none => exact .notSaved isPlace
    | some slot => exact .savedBlocked isPlace
  | leaving => exact .left isPlace

section

variable (setting machine)

/-- What a label can do. -/
inductive Act : Label Vector → Machine Vector → Prop
  | still {label : Label Vector} : Act label machine
  | spawned {pid : UInt32} {entry stackTop pml4Phys : UInt64}
      (isIdle : machine.supervisor = .idle) :
      Act (.spawn pid entry stackTop pml4Phys)
        { machine with
          table := machine.table.step (.insert pid entry stackTop pml4Phys)
          supervisor := .resetting pid
          last := fun slot =>
            if machine.table.occupied slot then machine.last slot else setting.initial }
  | reset {pid : UInt32} (isResetting : machine.supervisor = .resetting pid) :
      Act .reset (machine.reset setting pid)
  | selected {which : Select} {homes : List Nat} (isIdle : machine.supervisor = .idle) :
      Act (.select which homes)
        { machine.setTable (machine.table.step (.select which homes)) with
          supervisor := .running }
  | unblocked {pid : UInt32} {result : UInt64} (isRunning : machine.supervisor = .running) :
      Act (.unblock pid result) (machine.setTable (machine.table.step (.unblock pid result)))
  | ended (isRunning : machine.supervisor = .running)
      (isDone : machine.table.outstanding = (0, [])) :
      Act .checkDone { machine with supervisor := .idle }
  | reaped {pid : UInt32} {process : Process} (isIdle : machine.supervisor = .idle)
      (taken : (machine.table.takeForReap pid).2 = .ok process) :
      Act (.takeForReap pid)
        { machine.setTable (machine.table.step (.takeForReap pid)) with
          supervisor := .destroying process.pml4Phys }
  | destroyed {pml4Phys : UInt64} (isDestroying : machine.supervisor = .destroying pml4Phys) :
      Act .destroy { machine with supervisor := .idle }
  | dispatched {cpu : Cpu} {process : Process} (inKernel : machine.place cpu = .kernel)
      (isProcess : (machine.table.dispatchNext cpu).2 = some process) :
      Act (.dispatch cpu)
        ((machine.setTable (machine.table.step (.dispatchNext cpu))).moveTo cpu
          (.dispatched process))
  | advanced {cpu : Cpu} {next : Machine Vector} (advance : Advance setting machine cpu next) :
      Act (.advance cpu) next
  | failed {cpu : Cpu} {process : Process} (isRestored : machine.place cpu = .restored process) :
      Act (.enterFails cpu)
        ((machine.setTable (machine.table.step (.putBack cpu))).moveTo cpu .kernel)
  | computed {cpu : Cpu} {vector : Vector} (inUser : machine.place cpu = .user) :
      Act (.compute cpu vector)
        { machine with registers := update machine.registers cpu vector }
  | continued {cpu : Cpu} {frame : TrapFrame} {slice budget : UInt64}
      (inUser : machine.place cpu = .user)
      (isContinue : (machine.table.tick cpu frame slice budget).2.2 = .continue) :
      Act (.tick cpu frame slice budget)
        (machine.setTable (machine.table.step (.tick cpu frame slice budget)))
  | switched {cpu : Cpu} {frame : TrapFrame} {slice budget pml4Phys : UInt64}
      {old next : SlotId} (inUser : machine.place cpu = .user)
      (isSwitch : (machine.table.tick cpu frame slice budget).2.2 = .switch pml4Phys old next) :
      Act (.tick cpu frame slice budget)
        (((machine.setTable (machine.table.step (.tick cpu frame slice budget))).setLast cpu
          old).moveTo cpu (.saving old next pml4Phys))
  | killed {cpu : Cpu} {frame : TrapFrame} {slice budget ticks : UInt64} {pid : UInt32}
      (inUser : machine.place cpu = .user)
      (isKill : (machine.table.tick cpu frame slice budget).2.2 = .kill pid ticks) :
      Act (.tick cpu frame slice budget)
        ((machine.setTable (machine.table.step (.tick cpu frame slice budget))).finish cpu
          (.killCurrent cpu))
  | blocked {cpu : Cpu} {frame : TrapFrame} {slot : SlotId} (inUser : machine.place cpu = .user)
      (isCurrent : machine.table.currentSlot cpu = some slot) :
      Act (.block cpu frame)
        (((machine.setTable (machine.table.step (.blockCurrent cpu frame))).setLast cpu
          slot).moveTo cpu (.blocking (some slot)))
  | blockedNone {cpu : Cpu} {frame : TrapFrame} (inUser : machine.place cpu = .user)
      (noSlot : machine.table.currentSlot cpu = none) :
      Act (.block cpu frame)
        ((machine.setTable (machine.table.step (.blockCurrent cpu frame))).moveTo cpu
          (.blocking none))
  | finished {label : Label Vector} {cpu : Cpu} {op : ProcessTable.Op}
      (inUser : machine.place cpu = .user)
      (isEnd : (∃ code, op = .exitCurrent cpu code) ∨ ∃ fault, op = .crashCurrent cpu fault) :
      Act label (machine.finish cpu op)

end

theorem act_whileAt {supervisor : Supervisor}
    (act : machine.supervisor = supervisor → Act setting machine label next) :
    Act setting machine label (machine.whileAt supervisor next) := by
  unfold whileAt
  split_ifs with isAt
  · exact act isAt
  · exact .still

theorem act_inUser (act : machine.place cpu = .user → Act setting machine label next) :
    Act setting machine label (machine.inUser cpu next) := by
  unfold Machine.inUser
  split_ifs with isUser
  · exact act isUser
  · exact .still

theorem step_act (setting : Setting Vector) (machine : Machine Vector) (label : Label Vector) :
    Act setting machine label (machine.step setting label) := by
  cases label with
  | spawn pid entry stackTop pml4Phys =>
    apply act_whileAt
    intro isIdle
    unfold spawn
    cases (machine.table.insert pid entry stackTop pml4Phys).2 with
    | ok => exact .spawned isIdle
    | error => exact .still
  | reset =>
    simp only [step]
    split
    · exact .reset (by assumption)
    · exact .still
  | select which homes =>
    apply act_whileAt
    intro isIdle
    cases (machine.table.select which homes).2 with
    | ok => exact .selected isIdle
    | error => exact .still
  | unblock pid result => exact act_whileAt fun isRunning => .unblocked isRunning
  | checkDone =>
    apply act_whileAt
    intro isRunning
    split_ifs with isDone
    · exact .ended isRunning isDone
    · exact .still
  | takeForReap pid =>
    apply act_whileAt
    intro isIdle
    cases taken : (machine.table.takeForReap pid).2 with
    | ok process => exact .reaped isIdle taken
    | error => exact .still
  | destroy =>
    simp only [step]
    split
    · exact .destroyed (by assumption)
    · exact .still
  | dispatch cpu =>
    simp only [step]
    split_ifs with inKernel
    · cases isProcess : (machine.table.dispatchNext cpu).2 with
      | some process => exact .dispatched inKernel isProcess
      | none => exact .still
    · exact .still
  | advance cpu => exact .advanced (advance_cases setting machine cpu)
  | enterFails cpu =>
    simp only [step]
    split
    · exact .failed (by assumption)
    · exact .still
  | compute cpu vector => exact act_inUser fun isUser => .computed isUser
  | tick cpu frame slice budget =>
    apply act_inUser
    intro isUser
    unfold tick
    cases action : (machine.table.tick cpu frame slice budget).2.2 with
    | «continue» => exact .continued isUser action
    | switch => exact .switched isUser action
    | kill => exact .killed isUser action
  | block cpu frame =>
    apply act_inUser
    intro isUser
    unfold block
    cases isCurrent : machine.table.currentSlot cpu with
    | some slot => exact .blocked isUser isCurrent
    | none => exact .blockedNone isUser isCurrent
  | exit cpu code => exact act_inUser fun isUser => .finished isUser (.inl ⟨code, rfl⟩)
  | crash cpu fault => exact act_inUser fun isUser => .finished isUser (.inr ⟨fault, rfl⟩)

/-! ## Places and the table -/

open ProcessTable hiding after

variable {place : Place}

theorem moveTo_place_of_ne (different : other ≠ cpu) :
    (machine.moveTo cpu place).place other = machine.place other :=
  update_of_ne different ..

@[simp] theorem moveTo_place_self : (machine.moveTo cpu place).place cpu = place :=
  update_self ..

@[simp] theorem moveTo_table : (machine.moveTo cpu place).table = machine.table :=
  rfl

@[simp] theorem moveTo_supervisor : (machine.moveTo cpu place).supervisor = machine.supervisor :=
  rfl

/-- The place of a CPU agrees with the table. -/
def Fits (table : ProcessTable) (cpu : Cpu) : Place → Prop
  | .kernel => table.current cpu = none
  | .dispatched process | .started process => table.current cpu = some process.pid
  | .located process found =>
    table.current cpu = some process.pid ∧ table.currentSlot cpu = found
  | .restored process => table.current cpu = some process.pid
  | .user => ∃ slot, table.currentSlot cpu = some slot
  | .saving _ next _ | .restoring next _ => table.currentSlot cpu = some next
  | .loading _ => ∃ slot, table.currentSlot cpu = some slot
  | .blocking _ | .leaving => table.current cpu = none

theorem Fits.congr (fits : Fits before cpu place)
    (sameCurrent : after.current cpu = before.current cpu)
    (sameSlot : after.currentSlot cpu = before.currentSlot cpu) : Fits after cpu place := by
  cases place <;> simpa only [Fits, sameCurrent, sameSlot] using fits

/-- Table, CPUs and supervising thread agree. -/
structure Shape (machine : Machine Vector) : Prop where
  consistent : machine.table.Consistent
  fits : ∀ cpu, Fits machine.table cpu (machine.place cpu)
  resetting : ∀ pid, machine.supervisor = .resetting pid → machine.table.Unselected pid

theorem start_shape (setting : Setting Vector) (registers : Cpu → Vector) :
    (start setting registers).Shape where
  consistent := consistent_new
  fits _ := rfl
  resetting _ isResetting := nomatch isResetting

namespace Shape

variable {op : ProcessTable.Op}

variable (shape : machine.Shape)
include shape

theorem of_table_step (fresh : machine.table.Fresh op)
    (isTable : next.table = machine.table.step op)
    (samePlace : ∀ other, op.cpu ≠ some other → next.place other = machine.place other)
    (own : ∀ cpu, op.cpu = some cpu → Fits next.table cpu (next.place cpu))
    (resetting : ∀ pid, next.supervisor = .resetting pid → next.table.Unselected pid) :
    next.Shape where
  consistent := isTable ▸ step_consistent shape.consistent fresh
  fits cpu := by
    by_cases isOwn : op.cpu = some cpu
    · exact own cpu isOwn
    · rw [samePlace cpu isOwn, isTable]
      exact (shape.fits cpu).congr (current_step_of_ne shape.consistent isOwn)
        (currentSlot_step_of_ne shape.consistent fresh isOwn)
  resetting := resetting

theorem congr (sameTable : next.table = machine.table) (samePlace : next.place = machine.place)
    (resetting : ∀ pid, next.supervisor = .resetting pid → machine.supervisor = .resetting pid) :
    next.Shape where
  consistent := sameTable ▸ shape.consistent
  fits cpu := by
    rw [sameTable, samePlace]
    exact shape.fits cpu
  resetting pid isResetting := by
    rw [sameTable]
    exact shape.resetting pid (resetting pid isResetting)

theorem moved {rest : Prop} (same : next.table = machine.table ∧
      next.supervisor = machine.supervisor ∧ next.place = machine.place ∧ rest)
    (own : Fits machine.table cpu place) : (next.moveTo cpu place).Shape := by
  obtain ⟨sameTable, sameSupervisor, samePlace, -⟩ := same
  rw [← sameTable] at own
  refine ⟨?_, fun other => ?_, ?_⟩
  · rw [moveTo_table, sameTable]
    exact shape.consistent
  · by_cases isCpu : other = cpu
    · rw [isCpu, moveTo_place_self]
      exact own
    · rw [moveTo_place_of_ne isCpu, moveTo_table, sameTable, samePlace]
      exact shape.fits other
  · rw [moveTo_table, moveTo_supervisor, sameTable, sameSupervisor]
    exact shape.resetting

theorem unselected_step (noSelect : ∀ which homes, op ≠ .select which homes)
    (isResetting : machine.supervisor = .resetting pid) : (machine.table.step op).Unselected pid :=
  (shape.resetting pid isResetting).step shape.consistent noSelect

theorem exists_currentSlot (current : machine.table.current cpu = some pid) :
    ∃ slot, machine.table.currentSlot cpu = some slot := by
  obtain ⟨slot, rfl, running, _⟩ := shape.consistent.current_runs current
  exact ⟨slot, shape.consistent.currentSlot_eq_some_iff.mpr ⟨running, current⟩⟩

theorem of_cpu_step (isOwn : op.cpu = some cpu) (isTable : next.table = machine.table.step op)
    (samePlace : ∀ other, other ≠ cpu → next.place other = machine.place other)
    (own : Fits (machine.table.step op) cpu (next.place cpu))
    (sameSupervisor : next.supervisor = machine.supervisor) : next.Shape := by
  apply shape.of_table_step (fresh_of_cpu isOwn) isTable
  · intro other foreign
    apply samePlace
    rintro rfl
    exact foreign isOwn
  · intro owner isOwner
    obtain rfl := Option.some.inj (isOwn.symm.trans isOwner)
    rw [isTable]
    exact own
  · intro pid isResetting
    rw [isTable]
    exact shape.unselected_step (Op.of_cpu isOwn).2 (sameSupervisor ▸ isResetting)

theorem of_leaving {update : Process → Process} (leaving : op.leaving = some (cpu, update))
    (isTable : next.table = machine.table.step op)
    (samePlace : ∀ other, other ≠ cpu → next.place other = machine.place other)
    (own : (machine.table.step op).current cpu = none →
      Fits (machine.table.step op) cpu (next.place cpu))
    (sameSupervisor : next.supervisor = machine.supervisor) : next.Shape :=
  shape.of_cpu_step (Op.cpu_of_leaving leaving) isTable samePlace
    (own (current_of_leaving shape.consistent leaving)) sameSupervisor

end Shape

section

variable (setting : Setting Vector) (machine : Machine Vector) (cpu : Cpu) (slot : SlotId)

theorem save_same : let saved := machine.save setting cpu slot
    saved.table = machine.table ∧ saved.supervisor = machine.supervisor ∧
      saved.place = machine.place ∧ saved.root = machine.root ∧ saved.resume = machine.resume := by
  unfold save
  split_ifs <;> exact ⟨rfl, rfl, rfl, rfl, rfl⟩

theorem restore_same : let restored := machine.restore setting cpu slot
    restored.table = machine.table ∧ restored.supervisor = machine.supervisor ∧
      restored.place = machine.place ∧ restored.root = machine.root ∧
      restored.resume = machine.resume := by
  unfold restore
  split_ifs <;> exact ⟨rfl, rfl, rfl, rfl, rfl⟩

end

theorem Shape.supervised (shape : machine.Shape) {op : Op} (isForeign : op.cpu = none)
    (fresh : machine.table.Fresh op) (isTable : next.table = machine.table.step op)
    (samePlace : next.place = machine.place)
    (resetting : ∀ pid, next.supervisor = .resetting pid → next.table.Unselected pid) :
    next.Shape := by
  apply shape.of_table_step fresh isTable
  · intro other _
    rw [samePlace]
  · intro cpu isOwn
    rw [isForeign] at isOwn
    cases isOwn
  · exact resetting

theorem Shape.mark (shape : machine.Shape) (pid : UInt32) :
    (machine.setTable (machine.table.step (.markStarted pid))).Shape := by
  refine @Shape.supervised _ _ _ shape (.markStarted pid) rfl
    nofun rfl rfl fun other isResetting => ?_
  apply shape.unselected_step _ isResetting
  exact nofun

theorem Advance.shape (advance : Advance setting machine cpu next) (shape : machine.Shape) :
    next.Shape := by
  have fits := shape.fits cpu
  cases advance with
  | still => exact shape
  | skipped isPlace | loaded isPlace | notSaved isPlace | left isPlace =>
    rw [isPlace] at fits
    exact shape.moved ⟨rfl, rfl, rfl, trivial⟩ fits
  | @marked process isPlace =>
    rw [isPlace] at fits
    have same := current_step_of_ne shape.consistent (by simp [Op.cpu] :
        (Op.markStarted process.pid).cpu ≠ some cpu)
    exact (shape.mark process.pid).moved ⟨rfl, rfl, rfl, trivial⟩ (same.trans fits)
  | located isPlace =>
    rw [isPlace] at fits
    refine shape.moved ⟨rfl, rfl, rfl, trivial⟩ ⟨fits, ?_⟩
    rw [currentSlot, show machine.table.current cpu = _ from fits]
    rfl
  | restored isPlace =>
    rw [isPlace] at fits
    exact shape.moved (restore_same ..) fits.1
  | notRestored isPlace =>
    rw [isPlace] at fits
    exact shape.moved ⟨rfl, rfl, rfl, trivial⟩ fits.1
  | entered isPlace =>
    rw [isPlace] at fits
    exact shape.moved ⟨rfl, rfl, rfl, trivial⟩ (shape.exists_currentSlot fits)
  | saved isPlace | savedBlocked isPlace =>
    rw [isPlace] at fits
    exact shape.moved (save_same ..) fits
  | @switched next pml4Phys isPlace =>
    rw [isPlace] at fits
    exact shape.moved (restore_same ..) ⟨next, fits⟩

/-- A CPU that leaves ring 3 with its process gone fits any place without one. -/
theorem Shape.finish (shape : machine.Shape) (leaving : op.leaving = some (cpu, change)) :
    (machine.finish cpu op).Shape := by
  refine shape.of_leaving leaving rfl (fun other different => ?_) (fun idle => ?_) rfl
  · exact moveTo_place_of_ne different
  · rw [Machine.finish, moveTo_place_self]
    exact idle

theorem Shape.tick (shape : machine.Shape) (inUser : machine.place cpu = .user)
    (noSwitch : ∀ pml4Phys old next,
      (machine.table.tick cpu frame slice budget).2.2 ≠ .switch pml4Phys old next) :
    (machine.setTable (machine.table.step (.tick cpu frame slice budget))).Shape := by
  refine @Shape.of_cpu_step _ _ _ cpu (.tick cpu frame slice budget) shape rfl rfl
    (fun _ _ => rfl) ?_ rfl
  have fits := shape.fits cpu
  change Fits _ cpu (machine.place cpu)
  rw [inUser] at fits ⊢
  obtain ⟨slot, isCurrent⟩ := fits
  exact ⟨slot, (currentSlot_of_not_switch noSwitch cpu).trans isCurrent⟩

theorem step_shape (shape : machine.Shape) (fresh : machine.Fresh setting label) :
    (machine.step setting label).Shape := by
  have act := step_act setting machine label
  generalize machine.step setting label = next at act ⊢
  cases act with
  | still => exact shape
  | @spawned pid entry stackTop pml4Phys isIdle =>
    have isNew := (fresh _ rfl).1
    have absent := find_eq_none_iff.mp isNew
    refine @Shape.supervised _ _ _ shape (.insert pid entry stackTop pml4Phys) rfl ?_ rfl rfl ?_
    · intro other isCreated
      obtain rfl := Option.some.inj isCreated
      exact isNew
    · intro other isResetting
      obtain rfl := Supervisor.resetting.inj isResetting
      have vacuous : machine.table.Unselected pid :=
        fun slot occupied isPid => absurd isPid (absent slot occupied)
      exact vacuous.step shape.consistent nofun
  | @reset pid isResetting =>
    unfold reset
    cases machine.table.find pid with
    | none | some slot => exact shape.congr rfl rfl nofun
  | @selected which homes isIdle =>
    exact @Shape.supervised _ _ _ shape (.select which homes) rfl
      nofun rfl rfl nofun
  | @unblocked pid result isRunning =>
    refine @Shape.supervised _ _ _ shape (.unblock pid result) rfl
      nofun rfl rfl fun other isResetting => ?_
    rw [show machine.supervisor = _ from isResetting] at isRunning
    cases isRunning
  | ended | destroyed => exact shape.congr rfl rfl nofun
  | @reaped pid process isIdle taken =>
    exact @Shape.supervised _ _ _ shape (.takeForReap pid) rfl
      nofun rfl rfl nofun
  | @dispatched cpu process inKernel isProcess =>
    refine @Shape.of_cpu_step _ _ _ cpu (.dispatchNext cpu) shape rfl rfl
      (fun _ => moveTo_place_of_ne) ?_ rfl
    rw [moveTo_place_self]
    exact current_of_dispatchNext isProcess
  | advanced advance => exact advance.shape shape
  | @failed cpu process isRestored =>
    refine @Shape.of_leaving _ _ _ cpu (.putBack cpu) shape _ rfl rfl
      (fun _ => moveTo_place_of_ne) (fun idle => ?_) rfl
    rw [moveTo_place_self]
    exact idle
  | computed => exact shape.congr rfl rfl fun _ => id
  | @continued cpu frame slice budget inUser isContinue =>
    exact shape.tick inUser fun _ _ _ isSwitch => nomatch isContinue.symm.trans isSwitch
  | @switched cpu frame slice budget pml4Phys old next inUser isSwitch =>
    refine @Shape.of_cpu_step _ _ _ cpu (.tick cpu frame slice budget) shape rfl rfl
      (fun _ => moveTo_place_of_ne) ?_ rfl
    rw [moveTo_place_self]
    exact (currentSlot_of_switch shape.consistent isSwitch).2.2
  | @killed cpu frame slice budget ticks pid inUser isKill =>
    exact (shape.tick inUser fun _ _ _ isSwitch => nomatch isKill.symm.trans isSwitch).finish rfl
  | @blocked cpu frame | @blockedNone cpu frame =>
    refine @Shape.of_leaving _ _ _ cpu (.blockCurrent cpu frame) shape _ rfl rfl
      (fun _ => moveTo_place_of_ne) (fun idle => ?_) rfl
    rw [moveTo_place_self]
    exact idle
  | finished inUser isEnd =>
    rcases isEnd with ⟨code, rfl⟩ | ⟨fault, rfl⟩
    · exact shape.finish rfl
    · exact shape.finish rfl

def after (setting : Setting Vector) (machine : Machine Vector) (labels : List (Label Vector)) :
    Machine Vector :=
  Run.after (step setting) machine labels

def sampleKernel : Setting Nat where
  initial := 0
  enabled := true
  kernelRoot := 0x1000

end Machine
end Cdk.Processes

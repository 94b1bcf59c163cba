import Cdk.Library.Run
import Cdk.Processes.Percpu

/-!
# The process table

Eight slots for processes and, for each CPU, the process that it runs, the ticks
of the current time slice and the slot that it dispatched last.  The operations
are the critical sections of the kernel: each of them takes the lock of the
table once.
-/

namespace Cdk.Processes

open Function

/-- Slots of the table. -/
def maxProcesses : Nat := 8

instance : @NeZero Nat Zero.ofOfNat0 maxProcesses := ⟨Nat.succ_ne_zero 7⟩

instance : @NeZero Nat Zero.ofOfNat0 Percpu.maxCpus := ⟨Nat.succ_ne_zero 7⟩

/-- The index of a slot. -/
abbrev SlotId := Fin maxProcesses

/-- The index of a CPU. -/
abbrev Cpu := Fin Percpu.maxCpus

/-- The state of a slot. -/
inductive ProcessState
  | free
  | ready
  | running
  | zombie
  | crashed
  | killed
  | blocked
  deriving DecidableEq

/-- Saved ring-3 registers. -/
structure TrapFrame where
  r15 : UInt64
  r14 : UInt64
  r13 : UInt64
  r12 : UInt64
  r11 : UInt64
  r10 : UInt64
  r9 : UInt64
  r8 : UInt64
  rbp : UInt64
  rdi : UInt64
  rsi : UInt64
  rdx : UInt64
  rcx : UInt64
  rbx : UInt64
  rax : UInt64
  rip : UInt64
  cs : UInt64
  rflags : UInt64
  rsp : UInt64
  ss : UInt64
  deriving DecidableEq

/-- The first frame of a process: interrupts on, selectors still missing. -/
def TrapFrame.userEntry (rip rsp : UInt64) : TrapFrame where
  r15 := 0
  r14 := 0
  r13 := 0
  r12 := 0
  r11 := 0
  r10 := 0
  r9 := 0
  r8 := 0
  rbp := 0
  rdi := 0
  rsi := 0
  rdx := 0
  rcx := 0
  rbx := 0
  rax := 0
  rip := rip
  cs := 0
  rflags := 0x202
  rsp := rsp
  ss := 0

/-- A CPU exception raised by user code. -/
structure UserFault where
  vector : UInt8
  errorCode : UInt64
  rip : UInt64
  addr : UInt64
  rsp : UInt64
  deriving DecidableEq

def crashExitBase : UInt64 := 128

def UserFault.exitCode (fault : UserFault) : UInt64 := crashExitBase + fault.vector.toUInt64

/-- A slot of the table. -/
structure Process where
  pid : UInt32
  state : ProcessState
  exitCode : UInt64
  entry : UInt64
  stackTop : UInt64
  pml4Phys : UInt64
  fault : Option UserFault
  frame : TrapFrame
  ticksUsed : UInt64
  switches : UInt32
  scheduled : Bool
  started : Bool
  home : UInt8
  cpus : UInt64
  deriving DecidableEq

/-- A new process: loaded and not yet selected. -/
def Process.ready (pid : UInt32) (entry stackTop pml4Phys : UInt64) : Process where
  pid := pid
  state := .ready
  exitCode := 0
  entry := entry
  stackTop := stackTop
  pml4Phys := pml4Phys
  fault := none
  frame := .userEntry entry stackTop
  ticksUsed := 0
  switches := 0
  scheduled := false
  started := false
  home := 0
  cpus := 0

def Process.freeSlot : Process := { Process.ready 0 0 0 0 with state := .free }

/-- A process that gives its CPU to another one. -/
def Process.preempted (frame : TrapFrame) (process : Process) : Process :=
  { process with frame := frame, state := .ready, switches := process.switches + 1 }

def Process.charged (process : Process) : Process :=
  { process with ticksUsed := process.ticksUsed + 1 }

def Process.answered (result : UInt64) (process : Process) : Process :=
  { process with frame := { process.frame with rax := result }, state := .ready }

/-- A process that has been entered once. -/
def Process.marked (process : Process) : Process := { process with started := true }

/-- A process that is given a CPU; one taken from another queue moves. -/
def Process.dispatched (cpu : Cpu) (process : Process) : Process :=
  { process with
    state := .running
    home := UInt8.ofNat cpu.val
    cpus := process.cpus ||| (1 <<< UInt64.ofNat cpu.val) }

/-- Why a call failed. -/
inductive ProcessError
  | full
  | notFound
  | badState (state : ProcessState)
  | busy
  deriving DecidableEq

/-- Which ready processes are to run. -/
inductive Select
  | one (pid : UInt32)
  | allReady
  deriving DecidableEq

/-- What the timer path does after a tick. -/
inductive TickAction
  | «continue»
  | switch (pml4Phys : UInt64) («from» «to» : SlotId)
  | kill (pid : UInt32) (ticks : UInt64)
  deriving DecidableEq

/-- The table. -/
structure ProcessTable where
  slots : SlotId → Process
  current : Cpu → Option UInt32
  sliceUsed : Cpu → UInt64
  cursor : Cpu → SlotId

namespace ProcessTable

def new : ProcessTable where
  slots _ := .freeSlot
  current _ := none
  sliceUsed _ := 0
  cursor _ := Fin.ofNat maxProcesses (maxProcesses - 1)

variable (table : ProcessTable)

def modify (slot : SlotId) (update : Process → Process) : ProcessTable :=
  { table with slots := Function.update table.slots slot (update (table.slots slot)) }

def setCurrent (cpu : Cpu) (pid : Option UInt32) : ProcessTable :=
  { table with current := update table.current cpu pid }

def busy : Bool :=
  (List.finRange Percpu.maxCpus).any fun cpu => (table.current cpu).isSome

def occupied (slot : SlotId) : Bool := (table.slots slot).state != .free

def find (pid : UInt32) : Option SlotId :=
  (List.finRange maxProcesses).find? fun slot =>
    table.occupied slot && (table.slots slot).pid == pid

def currentSlot (cpu : Cpu) : Option SlotId :=
  (table.current cpu).bind table.find

/-- Create a process. -/
def insert (pid : UInt32) (entry stackTop pml4Phys : UInt64) :
    ProcessTable × Except ProcessError Process :=
  match (List.finRange maxProcesses).find? fun slot => !table.occupied slot with
  | none => (table, .error .full)
  | some slot =>
    (table.modify slot fun _ => .ready pid entry stackTop pml4Phys,
      .ok (.ready pid entry stackTop pml4Phys))

variable {table}

/-! ## Selection and dispatch -/

def Select.takes (which : Select) (process : Process) : Bool := process.state == .ready &&
    match which with
    | .one pid => process.pid == pid
    | .allReady => true

/-- Go on selecting with one slot; the selected processes are spread over the
given CPUs. -/
def selectSlot (which : Select) (homes : List Nat) (selected : ProcessTable × List UInt32)
    (slot : SlotId) : ProcessTable × List UInt32 :=
  let (table, picked) := selected
  let process := table.slots slot
  if Select.takes which process then
    (table.modify slot fun process =>
      { process with
        scheduled := true
        home := (homes[picked.length % homes.length]?).elim process.home UInt8.ofNat },
      picked ++ [process.pid])
  else (table.modify slot fun process => { process with scheduled := false }, picked)

variable (table)

/-- Why nothing can be selected. -/
def selectError (which : Select) : Option ProcessError :=
  if table.busy then some .busy
  else
    match which with
    | .allReady => none
    | .one pid =>
      match table.find pid with
      | none => some .notFound
      | some slot =>
        if (table.slots slot).state ≠ .ready then some (.badState (table.slots slot).state)
        else none

/-- Select processes and their homes. -/
def select (which : Select) (homes : List Nat) : ProcessTable × Except ProcessError (List UInt32) :=
  match table.selectError which with
  | some error => (table, .error error)
  | none =>
    let selected := (List.finRange maxProcesses).foldl (selectSlot which homes) (table, [])
    (selected.1, .ok selected.2)

def runnable (slot : SlotId) : Bool :=
  (table.slots slot).scheduled && (table.slots slot).state == .ready

section

variable (cpu : Cpu)

/-- All slots, beginning after the one that was dispatched last. -/
def order : List SlotId :=
  (List.range maxProcesses).map fun step => table.cursor cpu + Fin.ofNat maxProcesses (step + 1)

def isHome (slot : SlotId) : Bool :=
  (table.slots slot).home.toNat == cpu.val

def nextRunnable : Option SlotId :=
  (((table.order cpu).filter table.runnable).find? (table.isHome cpu)).or
    ((table.order cpu).find? table.runnable)

/-- Run a process on a CPU. -/
def runSlot (slot : SlotId) : ProcessTable :=
  let started := table.modify slot (Process.dispatched cpu)
  { started.setCurrent cpu (some (table.slots slot).pid) with
    cursor := update table.cursor cpu slot
    sliceUsed := update table.sliceUsed cpu 0 }

/-- Run the next process. -/
def dispatchNext : ProcessTable × Option Process :=
  if (table.current cpu).isSome then (table, none)
  else
    match table.nextRunnable cpu with
    | none => (table, none)
    | some slot =>
      let running := table.runSlot cpu slot
      (running, some (running.slots slot))

/-! ## Ticks -/

/-- The frame that a process resumes with: selectors are filled in if it never
ran, and interrupts are on. -/
def resumedFrame (saved interrupted : TrapFrame) : TrapFrame :=
  let frame :=
    if saved.cs = 0 then { saved with cs := interrupted.cs, ss := interrupted.ss } else saved
  { frame with rflags := frame.rflags ||| 0x200 }

def charge (slot : SlotId) : ProcessTable :=
  let charged := table.modify slot Process.charged
  { charged with
    sliceUsed := update table.sliceUsed cpu (table.sliceUsed cpu + 1) }

def renew : ProcessTable :=
  { table with sliceUsed := update table.sliceUsed cpu 0 }

def switchTo (slot next : SlotId) (frame : TrapFrame) : ProcessTable :=
  let saved := table.modify slot (Process.preempted frame)
  (saved.setCurrent cpu none).runSlot cpu next

/-- A timer tick in ring 3. -/
def tick (frame : TrapFrame) (slice budget : UInt64) : ProcessTable × TrapFrame × TickAction :=
  match table.current cpu with
  | none => (table, frame, .continue)
  | some pid =>
    match table.find pid with
    | none => (table, frame, .continue)
    | some slot =>
      let charged := table.charge cpu slot
      let used := (charged.slots slot).ticksUsed
      if budget < used then (charged, frame, .kill pid used)
      else if charged.sliceUsed cpu < slice then (charged, frame, .continue)
      else
        let renewed := charged.renew cpu
        match renewed.nextRunnable cpu with
        | none => (renewed, frame, .continue)
        | some next =>
          let switched := renewed.switchTo cpu slot next frame
          (switched, resumedFrame (switched.slots next).frame frame,
            .switch (switched.slots next).pml4Phys slot next)

/-! ## Leaving a CPU -/

/-- Take the process off its CPU. -/
def leaveCurrent (update : Process → Process) : ProcessTable × Option UInt32 :=
  match table.current cpu with
  | none => (table, none)
  | some pid =>
    match table.find pid with
    | none => (table.setCurrent cpu none, some pid)
    | some slot => ((table.setCurrent cpu none).modify slot update, some pid)

def blockCurrent (frame : TrapFrame) : ProcessTable × Option UInt32 :=
  table.leaveCurrent cpu fun process => { process with frame := frame, state := .blocked }

def killCurrent : ProcessTable × Option UInt32 :=
  table.leaveCurrent cpu fun process => { process with state := .killed, scheduled := false }

def exitCurrent (code : UInt64) : ProcessTable × Option UInt32 :=
  table.leaveCurrent cpu fun process =>
    { process with state := .zombie, exitCode := code, scheduled := false }

/-- A fault ends the process. -/
def crashCurrent (fault : UserFault) : ProcessTable × Option UInt32 :=
  table.leaveCurrent cpu fun process =>
    { process with
      state := .crashed
      exitCode := fault.exitCode
      fault := some fault
      scheduled := false }

def putBack : ProcessTable × Option UInt32 :=
  table.leaveCurrent cpu fun process => { process with state := .ready, scheduled := false }

end

def markStarted (pid : UInt32) : ProcessTable :=
  match table.find pid with
  | none => table
  | some slot => table.modify slot Process.marked

/-- A blocked process becomes ready, with the result of its system call. -/
def unblock (pid : UInt32) (result : UInt64) : ProcessTable × Bool :=
  match table.find pid with
  | none => (table, false)
  | some slot =>
    if (table.slots slot).state = .blocked then
      (table.modify slot (Process.answered result), true)
    else (table, false)

def reapable : ProcessState → Bool
  | .ready | .zombie | .crashed | .killed => true
  | _ => false

/-- Free the slot of an ended process. -/
def takeForReap (pid : UInt32) : ProcessTable × Except ProcessError Process :=
  match table.find pid with
  | none => (table, .error .notFound)
  | some slot =>
    if reapable (table.slots slot).state then
      (table.modify slot fun _ => .freeSlot, .ok (table.slots slot))
    else (table, .error (.badState (table.slots slot).state))

/-- The selected processes that wait. -/
def blockedScheduled : List UInt32 :=
  ((List.finRange maxProcesses).filter fun slot =>
    (table.slots slot).scheduled && (table.slots slot).state == .blocked).map
      fun slot => (table.slots slot).pid

/-- The number of scheduled processes still to run and those that are blocked. -/
def outstanding : Nat × List UInt32 :=
  ((List.finRange maxProcesses).countP fun slot =>
      (table.slots slot).scheduled &&
        ((table.slots slot).state == .ready || (table.slots slot).state == .running),
    table.blockedScheduled)

/-! ## Operations -/

/-- The operations. -/
inductive Op
  | insert (pid : UInt32) (entry stackTop pml4Phys : UInt64)
  | select (which : Select) (homes : List Nat)
  | dispatchNext (cpu : Cpu)
  | markStarted (pid : UInt32)
  | putBack (cpu : Cpu)
  | tick (cpu : Cpu) (frame : TrapFrame) (slice budget : UInt64)
  | blockCurrent (cpu : Cpu) (frame : TrapFrame)
  | unblock (pid : UInt32) (result : UInt64)
  | exitCurrent (cpu : Cpu) (code : UInt64)
  | crashCurrent (cpu : Cpu) (fault : UserFault)
  | killCurrent (cpu : Cpu)
  | takeForReap (pid : UInt32)

/-- One operation. -/
def step : Op → ProcessTable
  | .insert pid entry stackTop pml4Phys => (table.insert pid entry stackTop pml4Phys).1
  | .select which homes => (table.select which homes).1
  | .dispatchNext cpu => (table.dispatchNext cpu).1
  | .markStarted pid => table.markStarted pid
  | .putBack cpu => (table.putBack cpu).1
  | .tick cpu frame slice budget => (table.tick cpu frame slice budget).1
  | .blockCurrent cpu frame => (table.blockCurrent cpu frame).1
  | .unblock pid result => (table.unblock pid result).1
  | .exitCurrent cpu code => (table.exitCurrent cpu code).1
  | .crashCurrent cpu fault => (table.crashCurrent cpu fault).1
  | .killCurrent cpu => (table.killCurrent cpu).1
  | .takeForReap pid => (table.takeForReap pid).1

/-- An operation that takes the process of a CPU away from it, with what it does
to that process. -/
def Op.leaving : Op → Option (Cpu × (Process → Process))
  | .putBack cpu =>
    some (cpu, fun process => { process with state := .ready, scheduled := false })
  | .blockCurrent cpu frame =>
    some (cpu, fun process => { process with frame := frame, state := .blocked })
  | .exitCurrent cpu code =>
    some (cpu, fun process =>
      { process with state := .zombie, exitCode := code, scheduled := false })
  | .crashCurrent cpu fault =>
    some (cpu, fun process =>
      { process with
        state := .crashed
        exitCode := fault.exitCode
        fault := some fault
        scheduled := false })
  | .killCurrent cpu =>
    some (cpu, fun process => { process with state := .killed, scheduled := false })
  | _ => none

/-- The CPU that executes an operation on its own process. -/
def Op.cpu : Op → Option Cpu
  | .dispatchNext cpu => some cpu
  | .putBack cpu => some cpu
  | .tick cpu _ _ _ => some cpu
  | .blockCurrent cpu _ | .exitCurrent cpu _ | .crashCurrent cpu _ | .killCurrent cpu => some cpu
  | _ => none

def Op.created : Op → Option UInt32
  | .insert pid _ _ _ => some pid
  | _ => none

/-- A process is created under a pid that is not in the table. -/
def Fresh (op : Op) : Prop := ∀ pid ∈ op.created, table.find pid = none

instance (op : Op) : Decidable (table.Fresh op) :=
  Option.decidableForallMem op.created

variable {table}

/-! ## The slots after an update -/

section Updates

variable {table : ProcessTable} {cpu other : Cpu} {slot rest : SlotId} {pid : UInt32}
  {update : Process → Process}

@[simp] theorem modify_slots_self :
    (table.modify slot update).slots slot = update (table.slots slot) :=
  update_self ..

theorem modify_slots_of_ne (different : rest ≠ slot) :
    (table.modify slot update).slots rest = table.slots rest :=
  update_of_ne different ..

@[simp] theorem modify_current : (table.modify slot update).current = table.current :=
  rfl

@[simp] theorem renew_slots : (table.renew cpu).slots = table.slots :=
  rfl

@[simp] theorem setCurrent_slots (running : Option UInt32) :
    (table.setCurrent cpu running).slots = table.slots :=
  rfl

@[simp] theorem setCurrent_current_self (running : Option UInt32) :
    (table.setCurrent cpu running).current cpu = running :=
  update_self ..

theorem setCurrent_current_of_ne (different : other ≠ cpu) (running : Option UInt32) :
    (table.setCurrent cpu running).current other = table.current other :=
  update_of_ne different ..

@[simp] theorem runSlot_slots_self :
    (table.runSlot cpu slot).slots slot = (table.slots slot).dispatched cpu :=
  update_self ..

theorem runSlot_slots_of_ne (different : rest ≠ slot) :
    (table.runSlot cpu slot).slots rest = table.slots rest :=
  update_of_ne different ..

@[simp] theorem runSlot_current_self :
    (table.runSlot cpu slot).current cpu = some (table.slots slot).pid :=
  update_self ..

theorem runSlot_current_of_ne (different : other ≠ cpu) :
    (table.runSlot cpu slot).current other = table.current other :=
  update_of_ne different ..

theorem cpu_ext : ∀ {left right : Cpu},
    UInt8.ofNat left.val = UInt8.ofNat right.val → left = right := by
  decide

theorem toNat_ofNat_cpu : ∀ cpu : Cpu, (UInt8.ofNat cpu.val).toNat = cpu.val := by
  decide

/-! ## Looking a process up -/

theorem of_find_eq_some (found : table.find pid = some slot) :
    (table.slots slot).state ≠ .free ∧ (table.slots slot).pid = pid := by
  simpa [occupied] using List.find?_some found

theorem find_eq_none_iff : table.find pid = none ↔
    ∀ slot, (table.slots slot).state ≠ .free → (table.slots slot).pid ≠ pid := by
  simp [find, occupied]

theorem currentSlot_eq_some_iff : table.currentSlot cpu = some slot ↔
    table.current cpu = some (table.slots slot).pid ∧
      table.find (table.slots slot).pid = some slot := by
  unfold currentSlot
  rw [Option.bind_eq_some_iff]
  constructor
  · rintro ⟨pid, current, found⟩
    rw [(of_find_eq_some found).2]
    exact ⟨current, found⟩
  · rintro ⟨current, found⟩
    exact ⟨_, current, found⟩

theorem runnable_of_nextRunnable (next : table.nextRunnable cpu = some slot) :
    (table.slots slot).scheduled ∧ (table.slots slot).state = .ready := by
  have runs : table.runnable slot := by
    rcases Option.or_eq_some_iff.mp next with own | ⟨_, any⟩
    · exact (List.mem_filter.mp (List.mem_of_find?_eq_some own)).2
    · exact List.find?_some any
  simpa [runnable] using runs

end Updates

end ProcessTable
end Cdk.Processes

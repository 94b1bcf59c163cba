import Cdk.Scheduling.Scheduler

/-!
# Run queues of the cores

Beside the ready queue of the scheduler, every core has a queue of at most 16 object
ids.  A task that is scheduled goes into both; a core takes an id from its own queue,
or steals one from another core, and then looks the task up in the ready queue.  An
id without a task goes back to the core's own queue.
-/

namespace Cdk.Scheduling

open ByteFormat BoundedText

/-- Cores the table holds. -/
def maxCores : Nat := 8

/-- Object ids a run queue holds. -/
def maxCoreRq : Nat := 16

/-- The core the machine boots on, or one that it starts. -/
inductive CoreRole where
  | bootstrap
  | application
  deriving Repr, DecidableEq

/-- What a core is doing. -/
inductive CoreState where
  | registered
  | booting
  | online
  | halted
  deriving Repr, DecidableEq

/-- A core, with its run queue and the depth that the table records for it. -/
structure CoreInfo where
  apicId : UInt32
  role : CoreRole
  state : CoreState
  runQueueDepth : Nat
  dispatches : Nat
  runQueue : BoundedVec (Str 64) maxCoreRq

/-- A new core.  The one the machine boots on is on line at once. -/
def CoreInfo.new (apicId : UInt32) (role : CoreRole) : CoreInfo where
  apicId := apicId
  role := role
  state :=
    match role with
    | .bootstrap => .online
    | .application => .registered
  runQueueDepth := 0
  dispatches := 0
  runQueue := .empty

/-- Why a call on the cores is refused. -/
inductive MultiCoreError where
  | coreExists
  | coreNotFound
  | coreTableFull
  | invalidTransition
  | notApplicationCore
  | startupMailboxBusy
  | startupMailboxMismatch
  | startupSequenceMismatch
  deriving Repr, DecidableEq

/-- The cores and the mailbox for the start of one core at a time. -/
structure MultiCoreManager where
  cores : BoundedVec CoreInfo maxCores
  pendingApicId : Option UInt32
  lastAckedApicId : Option UInt32
  startupSeq : Nat

namespace MultiCoreManager

/-- No cores. -/
def new : MultiCoreManager := ⟨.empty, none, none, 0⟩

variable (manager : MultiCoreManager) (apicId : UInt32)

/-- The slot of a core. -/
def coreIndex : Option Nat :=
  manager.cores.items.findIdx? fun core => core.apicId == apicId

/-- The slot of a core and the core. -/
def lookup : Option (Nat × CoreInfo) :=
  match manager.coreIndex apicId with
  | none => none
  | some index => manager.cores.items[index]?.map fun core => (index, core)

/-- Change the core in a slot. -/
def modifyCore (index : Nat) (change : CoreInfo → CoreInfo) : MultiCoreManager :=
  { manager with
    cores := ⟨manager.cores.items.modify index change, by
      rw [List.length_modify]
      exact manager.cores.fits⟩ }

/-- Replace the run queue in a slot, and record its depth. -/
def setQueue (index : Nat) (queue : BoundedVec (Str 64) maxCoreRq) : MultiCoreManager :=
  manager.modifyCore index fun core =>
    { core with runQueue := queue, runQueueDepth := queue.items.length }

/-- Add a core. -/
def registerCore (role : CoreRole) : Except MultiCoreError MultiCoreManager :=
  if manager.cores.items.any fun core => core.apicId == apicId then .error .coreExists
  else
    match manager.cores.push? (.new apicId role) with
    | some cores => .ok { manager with cores }
    | none => .error .coreTableFull

/-- The run queue is kept, whether the core goes on or off line. -/
def setOnline (online : Bool) : Except MultiCoreError MultiCoreManager :=
  match manager.coreIndex apicId with
  | none => .error .coreNotFound
  | some index =>
    .ok (manager.modifyCore index fun core =>
      { core with state := if online then .online else .halted })

/-- A core that was registered or halted begins to boot. -/
def beginApStartup : Except MultiCoreError MultiCoreManager :=
  match manager.lookup apicId with
  | some (index, core) =>
    if core.role ≠ .application then .error .notApplicationCore
    else if core.state ≠ .registered ∧ core.state ≠ .halted then .error .invalidTransition
    else .ok (manager.modifyCore index fun core => { core with state := .booting })
  | none => .error .coreNotFound

/-- Begin the startup of a core and name it in the mailbox. -/
def planApStartup : Except MultiCoreError MultiCoreManager :=
  if manager.pendingApicId.any (· != apicId) then .error .startupMailboxBusy
  else do
    let booting ← manager.beginApStartup apicId
    .ok { booting with
      pendingApicId := some apicId
      startupSeq := min (booting.startupSeq + 1) (2 ^ 32 - 1) }

/-- The core is on line; the depth of its queue is set to zero, the queue is kept. -/
def completeApStartupWithSeq (startupSeq : Nat) : Except MultiCoreError MultiCoreManager :=
  match manager.lookup apicId with
  | some (index, core) =>
    if core.role ≠ .application then .error .notApplicationCore
    else if core.state = .online ∧ manager.lastAckedApicId = some apicId then .ok manager
    else if core.state ≠ .booting then .error .invalidTransition
    else if manager.pendingApicId ≠ some apicId then .error .startupMailboxMismatch
    else if manager.startupSeq ≠ startupSeq then .error .startupSequenceMismatch
    else
      .ok { manager.modifyCore index fun core =>
              { core with state := .online, runQueueDepth := 0 } with
        pendingApicId := none
        lastAckedApicId := some apicId }
  | none => .error .coreNotFound

/-- Halt a core; its queue is dropped. -/
def haltCore : Except MultiCoreError MultiCoreManager :=
  match manager.coreIndex apicId with
  | none => .error .coreNotFound
  | some index =>
    .ok (manager.modifyCore index fun core =>
      { core with state := .halted, runQueueDepth := 0, runQueue := .empty })

/-- The core that `selectDispatchCore` has found so far: its id, depth and dispatches. -/
def better (best : Option (UInt32 × Nat × Nat)) (core : CoreInfo) : Option (UInt32 × Nat × Nat) :=
  if core.state ≠ .online then best
  else
    match best with
    | some (apicId, depth, dispatches) =>
      if depth < core.runQueueDepth ∨
          depth = core.runQueueDepth ∧ dispatches ≤ core.dispatches then
        some (apicId, depth, dispatches)
      else some (core.apicId, core.runQueueDepth, core.dispatches)
    | none => some (core.apicId, core.runQueueDepth, core.dispatches)

def selectDispatchCore : Option UInt32 :=
  (manager.cores.items.foldl better none).map Prod.fst

/-- Queue a task on a core. -/
def enqueueCoreTask (objectId : Str 64) : Except MultiCoreError MultiCoreManager :=
  match manager.lookup apicId with
  | some (index, core) =>
    match core.runQueue.push? objectId with
    | some queue => .ok (manager.setQueue index queue)
    | none => .error .coreTableFull
  | none => .error .coreNotFound

/-- Take the first task of a core. -/
def takeLocalTask : Option (Str 64 × MultiCoreManager) :=
  match manager.lookup apicId with
  | some (index, core) =>
    match core.runQueue.items with
    | [] => none
    | task :: _ => some (task, manager.setQueue index (core.runQueue.eraseIdx 0))
  | none => none

/-- The victim that `stealTask` has found so far: its index, depth and queue. -/
def busier (thief : Nat) (victim : Option (Nat × CoreInfo)) (entry : CoreInfo × Nat) :
    Option (Nat × CoreInfo) :=
  let (core, index) := entry
  if index = thief ∨ core.state ≠ .online then victim
  else if core.runQueueDepth = 0 then victim
  else
    match victim with
    | some (best, bestCore) =>
      if core.runQueueDepth ≤ bestCore.runQueueDepth then some (best, bestCore)
      else some (index, core)
    | none => some (index, core)

/-- Take a task of the busiest core. -/
def stealTask (thiefApicId : UInt32) : Option (Str 64 × MultiCoreManager) :=
  match manager.coreIndex thiefApicId with
  | none => none
  | some thief =>
    match manager.cores.items.zipIdx.foldl (busier thief) none with
    | none => none
    | some (index, core) =>
      match core.runQueue.items.getLast? with
      | none => none
      | some task =>
        some (task, manager.setQueue index
          (core.runQueue.eraseIdx (core.runQueue.items.length - 1)))

def takeTaskForCore : Option (Str 64 × MultiCoreManager) :=
  match manager.takeLocalTask apicId with
  | some taken => some taken
  | none => manager.stealTask apicId

/-- Count a dispatch. -/
def noteDispatch : MultiCoreManager :=
  match manager.coreIndex apicId with
  | none => manager
  | some index =>
    manager.modifyCore index fun core =>
      { core with dispatches := min (core.dispatches + 1) (2 ^ 64 - 1) }

def settle (result : Except MultiCoreError MultiCoreManager) : MultiCoreManager :=
  match result with
  | .ok changed => changed
  | .error _ => manager

end MultiCoreManager

/-! ## The kernel -/

/-- The scheduler and the cores. -/
structure Kernel where
  scheduler : Scheduler
  multicore : MultiCoreManager

/-- An id that the kernel generates for an object. -/
structure ObjectId where
  id : Str 64
  generated : ascii "obj-" <+: id.text

namespace Kernel

def new : Kernel := ⟨.new, .new⟩

/-- Put an id on the lightest core, or on core 0 when no core is on line; the error of a
missing core or a full queue is ignored. -/
def queueTaskToCore (kernel : Kernel) (objectId : Str 64) : Kernel :=
  if kernel.multicore.cores.items.isEmpty then kernel
  else
    let target := kernel.multicore.selectDispatchCore.getD 0
    { kernel with
      multicore := kernel.multicore.settle (kernel.multicore.enqueueCoreTask target objectId) }

variable (setting : Setting) (kernel : Kernel) (apicId : UInt32)

/-- Schedule a registered object, as `execute` and `schedule_by_id` do. -/
def scheduleObject (object : ObjectId) (intent : Str 32) : Kernel :=
  queueTaskToCore
    { kernel with scheduler := kernel.scheduler.schedule setting object.id intent } object.id

/-- Ids that only count in the depth of a queue. -/
def isPlaceholder (objectId : Str 64) : Bool :=
  objectId.text.isEmpty || objectId.text == ascii "_"

/-- Run the next task of a core. -/
def executeNextOnCore : Kernel × Option (Str 64) :=
  match kernel.multicore.takeTaskForCore apicId with
  | none => (kernel, none)
  | some (objectId, multicore) =>
    if isPlaceholder objectId then
      ({ kernel with multicore := multicore.noteDispatch apicId }, some objectId)
    else
      match kernel.scheduler.takeQueuedById setting objectId.text 0 apicId with
      | (scheduler, some id) => (⟨scheduler, multicore.noteDispatch apicId⟩, some id)
      | (scheduler, none) =>
        (⟨scheduler, multicore.settle (multicore.enqueueCoreTask apicId objectId)⟩, none)

def completeRunningOnCore : Kernel :=
  { kernel with scheduler := kernel.scheduler.completeRunningOn setting apicId }

/-- Put a running task back. -/
def yieldRunningOnCore : Kernel × Option (Str 64) :=
  match kernel.scheduler.yieldRunningOn setting apicId with
  | (scheduler, none) => ({ kernel with scheduler }, none)
  | (scheduler, some id) => (queueTaskToCore { kernel with scheduler } id, some id)

/-- Switch tasks at the end of a slice. -/
def preemptTickOnCore (currentTick : UInt64) (apicId : UInt32) : Kernel × Option (Str 64) :=
  match kernel.scheduler.preemptIfExpiredOn setting apicId currentTick with
  | (scheduler, some id) => (⟨scheduler, kernel.multicore.noteDispatch apicId⟩, some id)
  | (scheduler, none) => ({ kernel with scheduler }, none)

def runningTaskOn : Option RunningTask :=
  (Scheduler.slot setting apicId).bind kernel.scheduler.running

/-- A step of the run loop. -/
def serviceCoreRuntimeStepWithTick (currentTick : UInt64) : Kernel × Option (Str 64) :=
  match kernel.preemptTickOnCore setting currentTick apicId with
  | (kernel, some switched) => (kernel, some switched)
  | (kernel, none) =>
    if (kernel.runningTaskOn setting apicId).isSome then (kernel, none)
    else kernel.executeNextOnCore setting apicId

/-- The calls that reach the scheduler or the cores. -/
inductive KernelCall where
  | registerCore (apicId : UInt32) (role : CoreRole)
  | setCoreOnline (apicId : UInt32) (online : Bool)
  | beginApStartup (apicId : UInt32)
  | planApStartup (apicId : UInt32)
  | completeApStartup (apicId : UInt32) (startupSeq : Nat)
  | haltCore (apicId : UInt32)
  | schedule (object : ObjectId) (intent : Str 32)
  | service (apicId : UInt32) (currentTick : UInt64)
  | yieldRunning (apicId : UInt32)
  | completeRunning (apicId : UInt32)
  | preemptTick (currentTick : UInt64) (apicId : UInt32)

def withCores (result : Except MultiCoreError MultiCoreManager) : Kernel :=
  { kernel with multicore := kernel.multicore.settle result }

/-- One call. -/
def step : KernelCall → Kernel
  | .registerCore apicId role => kernel.withCores (kernel.multicore.registerCore apicId role)
  | .setCoreOnline apicId online => kernel.withCores (kernel.multicore.setOnline apicId online)
  | .beginApStartup apicId => kernel.withCores (kernel.multicore.beginApStartup apicId)
  | .planApStartup apicId => kernel.withCores (kernel.multicore.planApStartup apicId)
  | .completeApStartup apicId startupSeq =>
    kernel.withCores (kernel.multicore.completeApStartupWithSeq apicId startupSeq)
  | .haltCore apicId => kernel.withCores (kernel.multicore.haltCore apicId)
  | .schedule object intent => kernel.scheduleObject setting object intent
  | .service apicId currentTick =>
    (kernel.serviceCoreRuntimeStepWithTick setting apicId currentTick).1
  | .yieldRunning apicId => (kernel.yieldRunningOnCore setting apicId).1
  | .completeRunning apicId => kernel.completeRunningOnCore setting apicId
  | .preemptTick currentTick apicId => (kernel.preemptTickOnCore setting currentTick apicId).1

end Kernel
end Cdk.Scheduling

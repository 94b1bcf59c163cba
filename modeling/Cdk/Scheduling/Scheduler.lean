import Cdk.Library.Bounded
import Cdk.Library.BoundedText
import Cdk.Library.Cells
import Cdk.Library.Run
import Mathlib.Data.List.Sort

/-!
# The task scheduler

A queue of at most 32 ready tasks and one running task on each of eight cores.
A task that comes into the queue is appended and the queue is sorted, highest
priority first; the task at the front is dispatched by a swap removal, which
puts the last task of the queue at the front.
-/

namespace Cdk.Scheduling

open ByteFormat BoundedText

/-- Tasks the ready queue holds. -/
def maxQueueSize : Nat := 32

def maxRunningCores : Nat := 8

/-- Ticks a task runs before it is preempted. -/
def ticksPerSlice : UInt64 := 50

/-- A task. -/
structure ScheduledTask where
  objectId : Str 64
  priority : UInt8
  intent : Str 32
  deriving DecidableEq

/-- A task on a core and the tick at which it was dispatched. -/
structure RunningTask where
  task : ScheduledTask
  startedAtTick : UInt64
  deriving DecidableEq

/-- The order of the queue is the reversed order of the priorities. -/
def Before (left right : ScheduledTask) : Prop := right.priority ≤ left.priority

instance : DecidableRel Before := fun left right =>
  inferInstanceAs (Decidable (right.priority ≤ left.priority))

/-- What the scheduler does not decide itself: the topology of the machine, and
the order in which an unstable sort leaves tasks of equal priority. -/
structure Setting where
  slotForApic : UInt32 → Option Nat
  sortUnstable : List ScheduledTask → List ScheduledTask
  sort_perm : ∀ tasks, (sortUnstable tasks).Perm tasks
  sort_sorted : ∀ tasks, (sortUnstable tasks).Pairwise Before

abbrev ReadyQueue := BoundedVec ScheduledTask maxQueueSize

/-- The ready queue, and what runs. -/
structure Scheduler where
  ready : ReadyQueue
  running : Fin maxRunningCores → Option RunningTask

namespace Scheduler

def new : Scheduler := ⟨.empty, fun _ => none⟩

/-- The priority of an intent. -/
def intentToPriority (intent : Str 32) : UInt8 :=
  if intent.text = ascii "low_latency" then 10
  else if intent.text = ascii "interactive" then 7
  else if intent.text = ascii "normal" then 5
  else if intent.text = ascii "batch" then 3
  else if intent.text = ascii "energy_saving" then 2
  else 5

def taskOf (id : Str 64) (intent : Str 32) : ScheduledTask := ⟨id, intentToPriority intent, intent⟩

variable (setting : Setting) (scheduler : Scheduler) (apicId : UInt32)

/-- The core with a running slot for an APIC id: its place in the topology, or
the id itself. -/
def slot : Option (Fin maxRunningCores) :=
  let index := (setting.slotForApic apicId).getD apicId.toNat
  if inside : index < maxRunningCores then some ⟨index, inside⟩ else none

/-- Queue a task by priority. -/
def insert (ready : ReadyQueue) (task : ScheduledTask) : Option ReadyQueue :=
  (ready.push? task).map fun pushed =>
    ⟨setting.sortUnstable pushed.items,
      (setting.sort_perm pushed.items).length_eq.trans_le pushed.fits⟩

def schedule (id : Str 64) (intent : Str 32) : Scheduler :=
  { scheduler with
    ready := (insert setting scheduler.ready (taskOf id intent)).getD scheduler.ready }

/-- The idle core of an APIC id, the task it takes from the front of the queue
and the queue that is left. -/
def pick : Option (Fin maxRunningCores × ScheduledTask × ReadyQueue) := do
  let core ← slot setting apicId
  if (scheduler.running core).isSome then none
  else
    let (task, rest) ← scheduler.ready.swapRemove? 0
    pure (core, task, rest)

/-- Run a task on a core. -/
def run (core : Fin maxRunningCores) (task : ScheduledTask)
    (rest : ReadyQueue) (currentTick : UInt64) : Scheduler where
  ready := rest
  running := Function.update scheduler.running core (some ⟨task, currentTick⟩)

/-- Run the first ready task. -/
def executeNextOnAt (currentTick : UInt64) : Scheduler × Option (Str 64) :=
  match pick setting scheduler apicId with
  | none => (scheduler, none)
  | some (core, task, rest) =>
    (scheduler.run core task rest currentTick, some task.objectId)

/-- The time slice is over. -/
def expired (running : Option RunningTask) (currentTick : UInt64) : Bool :=
  match running with
  | some current => decide (ticksPerSlice ≤ currentTick - current.startedAtTick)
  | none => false

/-- Take the task of a core away and put it in the queue; if the queue is full,
the task is dropped. -/
def requeue (core : Fin maxRunningCores) : Scheduler :=
  match scheduler.running core with
  | none => scheduler
  | some current =>
    { ready := (insert setting scheduler.ready current.task).getD scheduler.ready
      running := Function.update scheduler.running core none }

/-- Begin a new slice. -/
def restart (core : Fin maxRunningCores) (currentTick : UInt64) : Scheduler :=
  { scheduler with
    running := Function.update scheduler.running core
      ((scheduler.running core).map fun current =>
        { current with startedAtTick := currentTick }) }

/-- Switch tasks at the end of a slice. -/
def preemptIfExpiredOn (currentTick : UInt64) : Scheduler × Option (Str 64) :=
  match slot setting apicId with
  | none => (scheduler, none)
  | some core =>
    if !expired (scheduler.running core) currentTick then (scheduler, none)
    else if scheduler.ready.items.isEmpty then
      (scheduler.restart core currentTick, none)
    else executeNextOnAt setting (scheduler.requeue setting core) apicId currentTick

def completeRunningOn : Scheduler :=
  match slot setting apicId with
  | none => scheduler
  | some core => { scheduler with running := Function.update scheduler.running core none }

/-- Put a running task back. -/
def yieldRunningOn : Scheduler × Option (Str 64) :=
  match slot setting apicId with
  | none => (scheduler, none)
  | some core =>
    match scheduler.running core with
    | none => (scheduler, none)
    | some current => (scheduler.requeue setting core, some current.task.objectId)

/-- Run a given ready task. -/
def takeQueuedById (objectId : Bytes)
    (currentTick : UInt64) (apicId : UInt32) : Scheduler × Option (Str 64) :=
  match slot setting apicId with
  | none => (scheduler, none)
  | some core =>
    if (scheduler.running core).isSome then (scheduler, none)
    else
      match scheduler.ready.items.findIdx? fun task => task.objectId.text == objectId with
      | none => (scheduler, none)
      | some position =>
        match scheduler.ready.items[position]? with
        | none => (scheduler, none)
        | some task =>
          (scheduler.run core task (scheduler.ready.eraseIdx position) currentTick,
            some task.objectId)

/-! ## Calls -/

/-- The calls. -/
inductive Call
  | schedule (id : Str 64) (intent : Str 32)
  | executeNextOnAt (apicId : UInt32) (currentTick : UInt64)
  | takeQueuedById (objectId : Bytes) (currentTick : UInt64) (apicId : UInt32)
  | preemptIfExpiredOn (apicId : UInt32) (currentTick : UInt64)
  | yieldRunningOn (apicId : UInt32)
  | completeRunningOn (apicId : UInt32)

/-- One call. -/
def step : Call → Scheduler
  | .schedule id intent => scheduler.schedule setting id intent
  | .executeNextOnAt apicId currentTick =>
    (scheduler.executeNextOnAt setting apicId currentTick).1
  | .takeQueuedById objectId currentTick apicId =>
    (scheduler.takeQueuedById setting objectId currentTick apicId).1
  | .preemptIfExpiredOn apicId currentTick =>
    (scheduler.preemptIfExpiredOn setting apicId currentTick).1
  | .yieldRunningOn apicId => (scheduler.yieldRunningOn setting apicId).1
  | .completeRunningOn apicId => scheduler.completeRunningOn setting apicId

def after (calls : List Call) : Scheduler := Run.after (step setting) new calls

/-! ## A machine without a topology and with a stable sort -/

instance : IsTrans ScheduledTask Before where
  trans _ _ _ first second := UInt8.le_trans second first

instance : Std.Total Before where
  total left right := UInt8.le_total right.priority left.priority

def sampleSetting : Setting where
  slotForApic _ := none
  sortUnstable := List.insertionSort Before
  sort_perm := List.perm_insertionSort Before
  sort_sorted := List.pairwise_insertionSort Before

def firstObject : Str 64 := .truncate 64 (ascii "obj-1")

def secondObject : Str 64 := .truncate 64 (ascii "obj-2")

def normalIntent : Str 32 := .truncate 32 (ascii "normal")

end Scheduler
end Cdk.Scheduling

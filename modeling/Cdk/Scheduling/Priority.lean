import Cdk.Scheduling.Conservation

/-!
# Dispatch by priority

The queue is in order after a task was inserted, and then its first task has the
highest priority.  A dispatch moves the last task, which has the lowest
priority, to the front of the queue, so the next dispatch without an insertion
in between is by priority only if all tasks in the queue have the same.
-/

namespace Cdk.Scheduling
namespace Scheduler

open ByteFormat BoundedText BoundedVec

variable {setting : Setting} {scheduler : Scheduler}

/-- The task that a call dispatches and the queue from which it is taken.  A
preempted task is in the queue again when the next one is taken. -/
def dispatch (setting : Setting) (scheduler : Scheduler) :
    Call → Option (ScheduledTask × ReadyQueue)
  | .executeNextOnAt apicId _ =>
    (pick setting scheduler apicId).map fun picked => (picked.2.1, scheduler.ready)
  | .preemptIfExpiredOn apicId currentTick => do
      let core ← slot setting apicId
      if expired (scheduler.running core) currentTick &&
          !scheduler.ready.items.isEmpty then
        (pick setting (scheduler.requeue setting core) apicId).map fun picked =>
          (picked.2.1, (scheduler.requeue setting core).ready)
      else none
  | _ => none

/-- No task of the queue has a higher priority. -/
def Highest (task : ScheduledTask) (queue : ReadyQueue) : Prop :=
  ∀ other ∈ queue.items, other.priority ≤ task.priority

instance (task : ScheduledTask) (queue : ReadyQueue) : Decidable (Highest task queue) :=
  inferInstanceAs (Decidable (∀ other ∈ queue.items, other.priority ≤ task.priority))

/-- The queue is in order. -/
def Ordered (scheduler : Scheduler) : Prop := scheduler.ready.items.Pairwise Before

/-- The call puts a task in the queue and takes none from it. -/
def inserts (setting : Setting) (scheduler : Scheduler) : Call → Bool
  | .schedule _ _ => !scheduler.ready.isFull
  | .yieldRunningOn apicId =>
    !scheduler.ready.isFull && ((slot setting apicId).bind scheduler.running).isSome
  | _ => false

/-! ## What is dispatched -/

variable {apicId : UInt32}

theorem exists_core_of_pick (taken : pick setting scheduler apicId = some picked) :
    slot setting apicId = some picked.1 ∧ scheduler.running picked.1 = none ∧
      scheduler.ready.swapRemove? 0 = some picked.2 := by
  simp only [pick, Option.bind_eq_bind, Option.bind_eq_some_iff] at taken
  obtain ⟨core, located, taken⟩ := taken
  split at taken
  · cases taken
  rename_i idle
  obtain ⟨removed, front, same⟩ := Option.bind_eq_some_iff.mp taken
  cases same
  exact ⟨located, by simpa using idle, front⟩

theorem highest_of_ordered (ordered : scheduler.Ordered)
    (taken : pick setting scheduler apicId = some picked) : Highest picked.2.1 scheduler.ready := by
  obtain ⟨-, -, front⟩ := exists_core_of_pick taken
  obtain ⟨early, late, none, split, -⟩ := swapRemove?_eq_some front
  obtain rfl := List.length_eq_zero_iff.mp none
  rw [List.nil_append] at split
  rw [Ordered, split, List.pairwise_cons] at ordered
  rw [Highest, split, List.forall_mem_cons]
  exact ⟨UInt8.le_refl _, ordered.1⟩

/-! ## When the queue is in order -/

variable {task : ScheduledTask}

theorem ordered_insert {ready inserted : ReadyQueue}
    (done : insert setting ready task = some inserted) : inserted.items.Pairwise Before := by
  obtain ⟨pushed, -, rfl⟩ := Option.map_eq_some_iff.mp done
  exact setting.sort_sorted pushed.items

theorem ordered_requeue (room : scheduler.ready.isFull = false)
    (busy : scheduler.running core = some current) : (scheduler.requeue setting core).Ordered := by
  obtain ⟨inserted, done, -⟩ := exists_insert_of_room setting room current.task
  simp only [Ordered, requeue, busy, done, Option.getD_some]
  exact ordered_insert done

theorem ordered_of_inserts (insertion : inserts setting scheduler call) :
    (scheduler.step setting call).Ordered := by
  cases call with
  | schedule id intent =>
    obtain ⟨inserted, done, -⟩ :=
      exists_insert_of_room setting (by simpa [inserts] using insertion) (taskOf id intent)
    simp only [step, schedule, Ordered, done, Option.getD_some]
    exact ordered_insert done
  | yieldRunningOn apicId =>
    simp only [inserts, Bool.and_eq_true, Bool.not_eq_true', Option.isSome_iff_exists,
      Option.bind_eq_some_iff] at insertion
    obtain ⟨room, current, core, located, busy⟩ := insertion
    simp only [step, yieldRunningOn, located, busy]
    exact ordered_requeue room busy
  | executeNextOnAt apicId currentTick | takeQueuedById objectId currentTick apicId
  | preemptIfExpiredOn apicId currentTick | completeRunningOn apicId => cases insertion

theorem Ordered.getD_insert (ordered : scheduler.Ordered) (task : ScheduledTask) :
    ((insert setting scheduler.ready task).getD scheduler.ready).items.Pairwise Before := by
  cases done : insert setting scheduler.ready task with
  | none => exact ordered
  | some inserted => exact ordered_insert done

theorem Ordered.requeue (ordered : scheduler.Ordered) (core : Fin maxRunningCores) :
    (scheduler.requeue setting core).Ordered := by
  unfold Scheduler.requeue
  split
  · exact ordered
  · exact ordered.getD_insert _

theorem Ordered.step (ordered : scheduler.Ordered) {call : Call}
    (kept : dispatch setting scheduler call = none) : (scheduler.step setting call).Ordered := by
  cases call with
  | schedule id intent => exact ordered.getD_insert _
  | executeNextOnAt apicId currentTick =>
    simp only [dispatch, Option.map_eq_none_iff] at kept
    simp only [Scheduler.step, executeNextOnAt, kept]
    exact ordered
  | takeQueuedById objectId currentTick apicId =>
    simp only [Scheduler.step, takeQueuedById]
    repeat' split
    all_goals try exact ordered
    exact ordered.sublist (List.eraseIdx_sublist _ _)
  | preemptIfExpiredOn apicId currentTick =>
    simp only [dispatch, Option.bind_eq_bind] at kept
    simp only [Scheduler.step, preemptIfExpiredOn]
    cases located : slot setting apicId with
    | none => exact ordered
    | some core =>
      rw [located, Option.bind_some] at kept
      dsimp only
      split
      · exact ordered
      rename_i isOver
      split
      · exact ordered
      rename_i waiting
      have due : expired (scheduler.running core) currentTick := by
        simpa using isOver
      have switches : (expired (scheduler.running core) currentTick &&
          !scheduler.ready.items.isEmpty) := by
        simpa [due] using waiting
      rw [if_pos switches, Option.map_eq_none_iff] at kept
      simp only [executeNextOnAt, kept]
      exact ordered.requeue core
  | yieldRunningOn apicId =>
    simp only [Scheduler.step, yieldRunningOn]
    repeat' split
    all_goals try exact ordered
    exact ordered.requeue _
  | completeRunningOn apicId =>
    simp only [Scheduler.step, completeRunningOn]
    split <;> exact ordered

/-! ## Dispatch -/

variable {queue : ReadyQueue} {currentTick : UInt64}

theorem highest_of_ordered_execute (ordered : scheduler.Ordered)
    (dispatched : dispatch setting scheduler (.executeNextOnAt apicId currentTick) =
      some (task, queue)) : Highest task queue := by
  obtain ⟨picked, taken, same⟩ := Option.map_eq_some_iff.mp dispatched
  cases same
  exact highest_of_ordered ordered taken

/-- A preempting dispatch takes its task from the queue after the preempted task
was inserted. -/
theorem exists_requeue_of_preempt
    (dispatched : dispatch setting scheduler (.preemptIfExpiredOn apicId currentTick) =
      some (task, queue)) : ∃ core current picked, scheduler.running core = some current ∧
        pick setting (scheduler.requeue setting core) apicId = some picked ∧ task = picked.2.1 ∧
        queue = (scheduler.requeue setting core).ready := by
  simp only [dispatch, Option.bind_eq_bind, Option.bind_eq_some_iff] at dispatched
  obtain ⟨core, -, dispatched⟩ := dispatched
  split at dispatched
  · rename_i due
    obtain ⟨picked, taken, same⟩ := Option.map_eq_some_iff.mp dispatched
    cases same
    cases busy : scheduler.running core with
    | none => simp [busy, expired] at due
    | some current => exact ⟨core, current, picked, busy, taken, rfl, rfl⟩
  · cases dispatched

theorem highest_of_ordered_dispatch (ordered : scheduler.Ordered)
    (dispatched : dispatch setting scheduler call = some (task, queue)) : Highest task queue := by
  cases call with
  | executeNextOnAt apicId currentTick => exact highest_of_ordered_execute ordered dispatched
  | preemptIfExpiredOn apicId currentTick =>
    obtain ⟨core, current, picked, -, taken, rfl, rfl⟩ := exists_requeue_of_preempt dispatched
    exact highest_of_ordered (ordered.requeue core) taken
  | schedule id intent | takeQueuedById objectId currentTick apicId | yieldRunningOn apicId
  | completeRunningOn apicId => cases dispatched

/-- After a dispatch from an ordered queue, the next one takes the task of the
lowest priority. -/
theorem lowest_of_second_dispatch (ordered : scheduler.Ordered)
    (dispatched : dispatch setting scheduler (.executeNextOnAt apicId currentTick) =
      some (first, queue))
    (again : dispatch setting (scheduler.step setting (.executeNextOnAt apicId currentTick))
        (.executeNextOnAt later laterTick) = some (task, rest)) :
    ∀ other ∈ rest.items, task.priority ≤ other.priority := by
  obtain ⟨⟨core, front, left⟩, taken, same⟩ := Option.map_eq_some_iff.mp dispatched
  cases same
  obtain ⟨picked, takenAgain, same⟩ := Option.map_eq_some_iff.mp again
  cases same
  simp only [Scheduler.step, executeNextOnAt, taken] at takenAgain ⊢
  obtain ⟨-, -, removed⟩ := exists_core_of_pick taken
  obtain ⟨early, late, none, split, shape⟩ := swapRemove?_eq_some removed
  obtain rfl := List.length_eq_zero_iff.mp none
  obtain ⟨-, -, removedAgain⟩ := exists_core_of_pick takenAgain
  obtain ⟨early, later, none, splitAgain, -⟩ := swapRemove?_eq_some removedAgain
  obtain rfl := List.length_eq_zero_iff.mp none
  change ∀ other ∈ left.items, _
  change left.items = _ at splitAgain
  rw [List.nil_append] at splitAgain
  rcases shape with ⟨-, empty⟩ | ⟨middle, last, rfl, moved⟩
  · rw [splitAgain] at empty
    cases empty
  rw [List.nil_append, splitAgain, List.cons.injEq] at moved
  obtain ⟨front, rfl⟩ := moved
  rw [Ordered, split, List.nil_append, List.pairwise_cons, List.pairwise_append] at ordered
  rw [splitAgain, List.forall_mem_cons]
  refine ⟨UInt8.le_refl _, fun other inside => ?_⟩
  rw [front]
  exact ordered.2.2.2 other inside last (List.mem_singleton_self last)

/-- A dispatched task has the highest priority if no task was dispatched since
the last insertion, and always when a task is preempted while the queue has
room.  A second dispatch from an ordered queue without an insertion in between
is by priority exactly if all tasks of the queue have the same. -/
theorem dispatch_by_priority_iff
    (setting : Setting) :
    (∀ early insertion between call task queue,
      inserts setting (after setting early) insertion →
      Run.Along (step setting) (fun scheduler call => dispatch setting scheduler call = none)
        (step setting (after setting early) insertion) between →
      dispatch setting (after setting (early ++ insertion :: between)) call = some (task, queue) →
      Highest task queue) ∧
    (∀ (scheduler : Scheduler) apicId currentTick task queue, scheduler.ready.isFull = false →
      dispatch setting scheduler (.preemptIfExpiredOn apicId currentTick) = some (task, queue) →
      Highest task queue) ∧
    ∀ (scheduler : Scheduler) apicId currentTick first queue later laterTick task rest,
      scheduler.Ordered →
      dispatch setting scheduler (.executeNextOnAt apicId currentTick) = some (first, queue) →
      dispatch setting (scheduler.step setting (.executeNextOnAt apicId currentTick))
        (.executeNextOnAt later laterTick) = some (task, rest) → (Highest task rest ↔
        ∀ left ∈ rest.items, ∀ right ∈ rest.items, left.priority = right.priority) := by
  refine ⟨?_, ?_, ?_⟩
  · intro early insertion between call task queue inserted quiet dispatched
    apply highest_of_ordered_dispatch ?_ dispatched
    rw [after, Run.after_append, Run.after_cons]
    apply Run.invariant (ordered_of_inserts inserted) _ quiet
    intro scheduler call ordered kept
    exact ordered.step kept
  · intro scheduler apicId currentTick task queue room dispatched
    obtain ⟨core, current, picked, busy, taken, rfl, rfl⟩ := exists_requeue_of_preempt dispatched
    exact highest_of_ordered (ordered_requeue room busy) taken
  · intro scheduler apicId currentTick first queue later laterTick task rest ordered
      dispatched again
    have lowest := lowest_of_second_dispatch ordered dispatched again
    constructor
    · intro highest left inLeft right inRight
      apply UInt8.le_antisymm
      · exact UInt8.le_trans (highest left inLeft) (lowest right inRight)
      · exact UInt8.le_trans (highest right inRight) (lowest left inLeft)
    · intro equal other present
      obtain ⟨picked, taken, same⟩ := Option.map_eq_some_iff.mp again
      cases same
      obtain ⟨-, -, removed⟩ := exists_core_of_pick taken
      have front := (swapRemove?_perm removed).mem_iff.mpr List.mem_cons_self
      exact UInt8.le_of_eq (equal other present _ front)

/-- A task is dispatched from a queue of two and left running. -/
def earlyCalls : List Call :=
  [.schedule firstObject (.truncate 32 (ascii "batch")),
    .schedule firstObject (.truncate 32 (ascii "low_latency")),
    .executeNextOnAt 0 0]

/-- Another task is scheduled after the insertion, and the running task completes. -/
def quietCalls : List Call :=
  [.schedule firstObject (.truncate 32 (ascii "interactive")), .completeRunningOn 0]

/-- Of three tasks the one of the highest priority is dispatched. -/
theorem dispatch_by_priority_after_schedule :
    ∃ task queue,
      dispatch sampleSetting
          (after sampleSetting (earlyCalls ++ .schedule secondObject normalIntent :: quietCalls))
          (.executeNextOnAt 1 0) = some (task, queue) ∧
        (task.priority, queue.items.map ScheduledTask.priority) = (7, [7, 5, 3]) ∧
        Highest task queue := by
  obtain ⟨⟨task, queue⟩, dispatched, priorities⟩ := Option.map_eq_some_iff.mp
    (show (dispatch sampleSetting
        (after sampleSetting (earlyCalls ++ .schedule secondObject normalIntent :: quietCalls))
        (.executeNextOnAt 1 0)).map
          (fun found => (found.1.priority, found.2.items.map ScheduledTask.priority)) =
        some (7, [7, 5, 3]) by decide +kernel)
  refine ⟨task, queue, dispatched, priorities, ?_⟩
  exact (dispatch_by_priority_iff sampleSetting).1 earlyCalls
    (.schedule secondObject normalIntent) quietCalls (.executeNextOnAt 1 0) task queue
    (by decide +kernel) ⟨rfl, rfl, trivial⟩ dispatched

/-- Four tasks of different priorities, and the first of them dispatched. -/
def descendingRun : List Call :=
  [.schedule firstObject (.truncate 32 (ascii "low_latency")),
    .schedule firstObject (.truncate 32 (ascii "interactive")),
    .schedule secondObject normalIntent,
    .schedule secondObject (.truncate 32 (ascii "batch")),
    .executeNextOnAt 0 0]

theorem lowest_priority_dispatched_second :
    (dispatch sampleSetting (after sampleSetting descendingRun) (.executeNextOnAt 1 0)).map
        (fun found => (found.1.priority, found.2.items.map ScheduledTask.priority)) =
      some (3, [3, 7, 5]) ∧ ∀ found ∈ dispatch sampleSetting (after sampleSetting descendingRun)
        (.executeNextOnAt 1 0), ¬Highest found.1 found.2 := by
  decide +kernel

end Scheduler
end Cdk.Scheduling

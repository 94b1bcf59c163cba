import Cdk.Scheduling.Scheduler

/-!
# Tasks are moved, not lost

The tasks of the scheduler are those in the queue and those on the cores.
Scheduling adds a task if there is room and completing removes one; every other
call only moves tasks, except that a task that is preempted or yields while the
queue is full is dropped.
-/

namespace Cdk.Scheduling
namespace Scheduler

open BoundedText BoundedVec Function

variable {setting : Setting} {scheduler : Scheduler} {core : Fin maxRunningCores}

def tasks (scheduler : Scheduler) : Multiset ScheduledTask :=
  scheduler.ready.items + (Cells.contents scheduler.running).map RunningTask.task

/-- The tasks that there should be. -/
def accounted (setting : Setting) (scheduler : Scheduler) : Call → Multiset ScheduledTask
  | .schedule id intent =>
    if scheduler.ready.isFull then scheduler.tasks else taskOf id intent ::ₘ scheduler.tasks
  | .completeRunningOn apicId =>
    match (slot setting apicId).bind scheduler.running with
    | none => scheduler.tasks
    | some current => scheduler.tasks.erase current.task
  | _ => scheduler.tasks

/-- The call loses a task. -/
def drops (setting : Setting) (scheduler : Scheduler) : Call → Bool
  | .yieldRunningOn apicId =>
    scheduler.ready.isFull && ((slot setting apicId).bind scheduler.running).isSome
  | .preemptIfExpiredOn apicId currentTick =>
    scheduler.ready.isFull && expired ((slot setting apicId).bind scheduler.running) currentTick
  | _ => false

/-! ## The queue -/

theorem insert_of_full {ready : ReadyQueue} (full : ready.isFull) (task : ScheduledTask) :
    insert setting ready task = none := by
  rw [insert, push?_eq_none_iff.mpr ((isFull_iff ready).mp full), Option.map_none]

theorem exists_insert_of_room (setting : Setting) {ready : ReadyQueue} (room : ready.isFull = false)
    (task : ScheduledTask) : ∃ inserted, insert setting ready task = some inserted ∧
      inserted.items = setting.sortUnstable (ready.items ++ [task]) := by
  have short : ready.items.length < maxQueueSize := by
    by_contra full
    rw [← isFull_iff, room] at full
    cases full
  obtain ⟨pushed, push⟩ := Option.ne_none_iff_exists'.mp
    (mt (@push?_eq_none_iff _ _ ready task).mp (not_not.mpr short))
  refine ⟨_, by rw [insert, push, Option.map_some], ?_⟩
  change setting.sortUnstable pushed.items = _
  rw [(push?_eq_some_iff.mp push).2]

variable {task : ScheduledTask}

theorem items_insert_perm {ready inserted : ReadyQueue}
    (room : ready.isFull = false) (done : insert setting ready task = some inserted) :
    inserted.items.Perm (task :: ready.items) := by
  obtain ⟨other, same, items⟩ := exists_insert_of_room setting room task
  rw [done] at same
  cases same
  rw [items]
  apply (setting.sort_perm _).trans
  exact List.perm_append_singleton task ready.items

/-! ## The effect of every call -/

theorem tasks_schedule (id : Str 64) (intent : Str 32) :
    (scheduler.schedule setting id intent).tasks =
      accounted setting scheduler (.schedule id intent) := by
  cases full : scheduler.ready.isFull with
  | true =>
    simp only [schedule, insert_of_full full, Option.getD_none, accounted, full, if_true]
  | false =>
    obtain ⟨inserted, done, -⟩ := exists_insert_of_room setting full (taskOf id intent)
    have items := Multiset.coe_eq_coe.mpr (items_insert_perm full done)
    simp only [schedule, done, Option.getD_some, accounted, full, tasks, items,
      ← Multiset.cons_coe, Multiset.cons_add, Bool.false_eq_true, if_false]

theorem tasks_run (idle : scheduler.running core = none)
    (taken : scheduler.ready.items.Perm (task :: rest.items)) (currentTick : UInt64) :
    (scheduler.run core task rest currentTick).tasks = scheduler.tasks := by
  have onCores := (Cells.contents_fill idle ⟨task, currentTick⟩).map RunningTask.task
  simp only [tasks, run, Multiset.coe_eq_coe.mpr taken, Multiset.coe_eq_coe.mpr onCores,
    List.map_cons, ← Multiset.cons_coe, Multiset.cons_add, Multiset.add_cons]

theorem tasks_executeNextOnAt (apicId : UInt32) (currentTick : UInt64) :
    (scheduler.executeNextOnAt setting apicId currentTick).1.tasks = scheduler.tasks := by
  unfold executeNextOnAt
  split
  · rfl
  rename_i core task rest picked
  simp only [pick, Option.bind_eq_bind, Option.bind_eq_some_iff] at picked
  obtain ⟨core', -, picked⟩ := picked
  split at picked
  · cases picked
  rename_i idle
  obtain ⟨⟨task', rest'⟩, removed, same⟩ := Option.bind_eq_some_iff.mp picked
  cases same
  apply tasks_run (by simpa using idle)
  exact swapRemove?_perm removed

theorem tasks_takeQueuedById (objectId : ByteFormat.Bytes) (currentTick : UInt64)
    (apicId : UInt32) : (scheduler.takeQueuedById setting objectId currentTick apicId).1.tasks =
      scheduler.tasks := by
  unfold takeQueuedById
  split
  · rfl
  split
  · rfl
  rename_i idle
  split
  · rfl
  split
  · rfl
  rename_i task found
  apply tasks_run (by simpa using idle)
  obtain ⟨inside, rfl⟩ := List.getElem?_eq_some_iff.mp found
  exact (List.getElem_cons_eraseIdx_perm inside).symm

variable {current : RunningTask}

theorem tasks_clear (busy : scheduler.running core = some current) (ready : ReadyQueue) :
    current.task ::ₘ tasks ⟨ready, update scheduler.running core none⟩ =
      tasks ⟨ready, scheduler.running⟩ := by
  have onCores := (Cells.contents_clear busy).map RunningTask.task
  simp only [tasks, Multiset.coe_eq_coe.mpr onCores, List.map_cons, ← Multiset.cons_coe,
    Multiset.add_cons]

theorem tasks_requeue_of_room (room : scheduler.ready.isFull = false) :
    (scheduler.requeue setting core).tasks = scheduler.tasks := by
  unfold requeue
  split
  · rfl
  rename_i current busy
  obtain ⟨inserted, done, -⟩ := exists_insert_of_room setting room current.task
  have items := Multiset.coe_eq_coe.mpr (items_insert_perm room done)
  rw [← tasks_clear busy scheduler.ready]
  simp only [done, Option.getD_some, tasks, items, ← Multiset.cons_coe, Multiset.cons_add]

theorem tasks_requeue_of_full (full : scheduler.ready.isFull)
    (busy : scheduler.running core = some current) :
    current.task ::ₘ (scheduler.requeue setting core).tasks = scheduler.tasks := by
  rw [← tasks_clear busy scheduler.ready]
  simp only [requeue, busy, insert_of_full full, Option.getD_none]

theorem tasks_restart (currentTick : UInt64) :
    (scheduler.restart core currentTick).tasks = scheduler.tasks := by
  have running : ∀ other,
      ((scheduler.restart core currentTick).running other).map RunningTask.task =
        (scheduler.running other).map RunningTask.task := by
    intro other
    by_cases here : other = core
    · subst here
      simp only [restart, update_self, Option.map_map]
      rfl
    · simp only [restart, update_of_ne here]
  simp only [tasks, Cells.contents, List.map_filterMap, running]
  rfl

theorem ne_of_cons_eq (one : task ::ₘ fewer = more) : fewer ≠ more := by
  rintro rfl
  exact (Multiset.lt_cons_self _ _).ne one.symm

/-- A task that leaves its core is kept exactly if the queue has room. -/
theorem tasks_requeue_iff (busy : scheduler.running core = some current) :
    (scheduler.requeue setting core).tasks = scheduler.tasks ↔ scheduler.ready.isFull = false := by
  cases full : scheduler.ready.isFull with
  | false => exact iff_of_true (tasks_requeue_of_room full) rfl
  | true =>
    apply iff_of_false
    · exact ne_of_cons_eq (tasks_requeue_of_full full busy)
    · exact Bool.noConfusion

theorem tasks_yieldRunningOn_iff (apicId : UInt32) :
    (scheduler.yieldRunningOn setting apicId).1.tasks = scheduler.tasks ↔
      drops setting scheduler (.yieldRunningOn apicId) = false := by
  simp only [yieldRunningOn, drops]
  cases slot setting apicId with
  | none => simp
  | some core =>
    cases busy : scheduler.running core with
    | none => simp [busy]
    | some current => simp [busy, tasks_requeue_iff busy]

theorem tasks_preemptIfExpiredOn_iff (apicId : UInt32) (currentTick : UInt64) :
    (scheduler.preemptIfExpiredOn setting apicId currentTick).1.tasks = scheduler.tasks ↔
      drops setting scheduler (.preemptIfExpiredOn apicId currentTick) = false := by
  simp only [preemptIfExpiredOn, drops]
  cases slot setting apicId with
  | none => simp [expired]
  | some core =>
    dsimp only [Option.bind_some]
    cases isOver : expired (scheduler.running core) currentTick with
    | false => simp
    | true =>
      obtain ⟨current, busy⟩ : ∃ current, scheduler.running core = some current := by
        apply Option.ne_none_iff_exists'.mp
        intro idle
        rw [idle] at isOver
        cases isOver
      rw [Bool.and_true, Bool.not_true, if_neg Bool.false_ne_true]
      split
      · rename_i empty
        have room : scheduler.ready.isFull = false := by
          rw [isFull, List.isEmpty_iff.mp empty]
          rfl
        exact iff_of_true (tasks_restart currentTick) room
      · rw [tasks_executeNextOnAt]
        exact tasks_requeue_iff busy

theorem tasks_completeRunningOn (apicId : UInt32) :
    (scheduler.completeRunningOn setting apicId).tasks =
      accounted setting scheduler (.completeRunningOn apicId) := by
  simp only [completeRunningOn, accounted]
  cases slot setting apicId with
  | none => rfl
  | some core =>
    dsimp only [Option.bind_some]
    cases busy : scheduler.running core with
    | none =>
      have same : update scheduler.running core none = scheduler.running := by
        rw [← busy, update_eq_self]
      simp only [same]
    | some current =>
      rw [← tasks_clear busy scheduler.ready]
      exact (Multiset.erase_cons_head _ _).symm

theorem tasks_step_iff (call : Call) :
    (scheduler.step setting call).tasks = accounted setting scheduler call ↔
      drops setting scheduler call = false := by
  cases call with
  | schedule id intent => exact iff_of_true (tasks_schedule id intent) rfl
  | executeNextOnAt apicId currentTick =>
    exact iff_of_true (tasks_executeNextOnAt apicId currentTick) rfl
  | takeQueuedById objectId currentTick apicId =>
    exact iff_of_true (tasks_takeQueuedById objectId currentTick apicId) rfl
  | preemptIfExpiredOn apicId currentTick => exact tasks_preemptIfExpiredOn_iff apicId currentTick
  | yieldRunningOn apicId => exact tasks_yieldRunningOn_iff apicId
  | completeRunningOn apicId => exact iff_of_true (tasks_completeRunningOn apicId) rfl

/-! ## Whole runs -/

/-- Over any sequence of calls on any cores, no task is lost or duplicated
exactly if no task is preempted or yields while the queue is full. -/
theorem tasks_conserved_iff
    (setting : Setting)
    (calls : List Call) :
    Run.Along (step setting)
      (fun scheduler call =>
        (scheduler.step setting call).tasks = accounted setting scheduler call) new calls ↔
    Run.Along (step setting)
      (fun scheduler call => drops setting scheduler call = false) new calls := by
  apply Run.along_congr
  intro scheduler call
  exact tasks_step_iff call

/-- One task is dispatched and then the queue is filled with others. -/
def fillingRun : List Call := [.schedule firstObject normalIntent, .executeNextOnAt 0 0] ++
    List.replicate 32 (.schedule secondObject normalIntent)

theorem task_lost_with_full_queue :
    taskOf firstObject normalIntent ∈ (after sampleSetting fillingRun).tasks ∧
      taskOf firstObject normalIntent ∉
        (after sampleSetting (fillingRun ++ [.yieldRunningOn 0])).tasks ∧
      taskOf firstObject normalIntent ∉
        (after sampleSetting (fillingRun ++ [.preemptIfExpiredOn 0 50])).tasks := by
  decide +kernel

end Scheduler
end Cdk.Scheduling

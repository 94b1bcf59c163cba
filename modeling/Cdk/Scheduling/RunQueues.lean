import Cdk.Scheduling.Conservation
import Cdk.Scheduling.Cores

/-!
# Run queues

What the calls do to the run queue of one core, and which ids the run queues can hold:
in every kernel that calls lead to, they are ids that the kernel generated for objects,
as are those of the tasks of the scheduler.
-/

namespace Cdk.Scheduling

open ByteFormat BoundedText BoundedVec

namespace MultiCoreManager

variable {manager : MultiCoreManager} {apicId : UInt32} {index thief : Nat} {core : CoreInfo}

def queueOf (manager : MultiCoreManager) (apicId : UInt32) : List (Str 64) :=
  match manager.lookup apicId with
  | some (_, core) => core.runQueue.items
  | none => []

/-! ## Changes of one core -/

theorem coreIndex_eq (manager : MultiCoreManager) (apicId : UInt32) :
    manager.coreIndex apicId =
      (manager.cores.items.map CoreInfo.apicId).findIdx? (· == apicId) := by
  rw [coreIndex, List.findIdx?_map]
  rfl

theorem coreIndex_modifyCore (keeps : ∀ core, (change core).apicId = core.apicId) :
    (manager.modifyCore index change).coreIndex apicId = manager.coreIndex apicId := by
  have same : (manager.cores.items.modify index change).map CoreInfo.apicId =
      manager.cores.items.map CoreInfo.apicId := by
    apply List.ext_getElem?
    intro place
    rw [List.getElem?_map, List.getElem?_map, List.getElem?_modify]
    cases manager.cores.items[place]? with
    | none => rfl
    | some core => by_cases here : index = place <;> simp [here, keeps]
  rw [coreIndex_eq, coreIndex_eq]
  exact congrArg _ same

theorem lookup_modifyCore (keeps : ∀ core, (change core).apicId = core.apicId) :
    (manager.modifyCore index change).lookup apicId = (manager.lookup apicId).map fun found =>
      (found.1, if index = found.1 then change found.2 else found.2) := by
  rw [lookup, lookup, coreIndex_modifyCore keeps]
  cases manager.coreIndex apicId with
  | none => rfl
  | some place =>
    change ((manager.cores.items.modify index change)[place]?).map _ =
      (manager.cores.items[place]?.map fun core => (place, core)).map _
    rw [List.getElem?_modify]
    cases manager.cores.items[place]? with
    | none => rfl
    | some core => by_cases here : index = place <;> simp [here]

section

variable (found : manager.lookup apicId = some (index, core))
include found

theorem queueOf_of_lookup : manager.queueOf apicId = core.runQueue.items := by
  rw [queueOf, found]

theorem getElem_of_lookup : manager.cores.items[index]? = some core := by
  rw [lookup] at found
  split at found
  · cases found
  · obtain ⟨other, atIndex, same⟩ := Option.map_eq_some_iff.mp found
    cases same
    exact atIndex

theorem mem_of_lookup : core ∈ manager.cores.items :=
  List.mem_of_getElem? (getElem_of_lookup found)

end

theorem lookup_setQueue (queue : BoundedVec (Str 64) maxCoreRq)
    (found : manager.lookup apicId = some (index, core)) :
    (manager.setQueue index queue).lookup apicId =
      some (index, { core with runQueue := queue, runQueueDepth := queue.items.length }) := by
  rw [setQueue, lookup_modifyCore, found]
  · simp
  · exact fun _ => rfl

theorem lookup_setQueue_of_ne (queue : BoundedVec (Str 64) maxCoreRq) (apart : index ≠ thief)
    (found : manager.lookup apicId = some (thief, core)) :
    (manager.setQueue index queue).lookup apicId = some (thief, core) := by
  rw [setQueue, lookup_modifyCore, found]
  · simp [apart]
  · exact fun _ => rfl

/-! ## Taking an id and putting it back -/

theorem takeLocalTask_cons (queue : manager.queueOf apicId = task :: rest) :
    ∃ after, manager.takeLocalTask apicId = some (task, after) ∧
      (∃ index core, after.lookup apicId = some (index, core)) ∧ after.queueOf apicId = rest := by
  rw [queueOf] at queue
  cases found : manager.lookup apicId with
  | none => rw [found] at queue; cases queue
  | some entry =>
    obtain ⟨index, core⟩ := entry
    rw [found] at queue
    dsimp only at queue
    refine ⟨manager.setQueue index (core.runQueue.eraseIdx 0), ?_,
      ⟨_, _, lookup_setQueue _ found⟩, ?_⟩
    · rw [takeLocalTask, found]
      dsimp only
      rw [queue]
    · rw [queueOf_of_lookup (lookup_setQueue _ found)]
      change core.runQueue.items.eraseIdx 0 = rest
      rw [queue, List.eraseIdx_cons_zero]

theorem length_queueOf_le (manager : MultiCoreManager) (apicId : UInt32) :
    (manager.queueOf apicId).length ≤ maxCoreRq := by
  rw [queueOf]
  split
  · exact fits _
  · exact Nat.zero_le _

theorem takeLocalTask_nil (queue : manager.queueOf apicId = []) :
    manager.takeLocalTask apicId = none := by
  rw [queueOf] at queue
  rw [takeLocalTask]
  cases found : manager.lookup apicId with
  | none => rfl
  | some entry =>
    obtain ⟨index, core⟩ := entry
    rw [found] at queue
    dsimp only at queue ⊢
    rw [queue]

theorem enqueueCoreTask_of_room {task : Str 64} (found : manager.lookup apicId = some (index, core))
    (room : (manager.queueOf apicId).length < maxCoreRq) :
    ∃ after, manager.enqueueCoreTask apicId task = .ok after ∧
      after.queueOf apicId = manager.queueOf apicId ++ [task] := by
  rw [queueOf_of_lookup found] at room ⊢
  cases pushed : core.runQueue.push? task with
  | none => exact absurd room (push?_eq_none_iff.mp pushed)
  | some queue =>
    refine ⟨manager.setQueue index queue, ?_, ?_⟩
    · rw [enqueueCoreTask, found]
      dsimp only
      rw [pushed]
    · rw [queueOf_of_lookup (lookup_setQueue _ found)]
      exact (push?_eq_some_iff.mp pushed).2

/-- The victim is one of the cores, and not the thief. -/
theorem foldl_busier {entries : List (CoreInfo × Nat)} :
    ∀ found ∈ entries.foldl (busier thief) none,
      found.1 ≠ thief ∧ found.swap ∈ entries ∧ found.2.runQueueDepth ≠ 0 := by
  refine List.foldlRecOn (motive := fun victim : Option (Nat × CoreInfo) =>
    ∀ found ∈ victim, found.1 ≠ thief ∧ found.swap ∈ entries ∧ found.2.runQueueDepth ≠ 0)
    entries _ nofun ?_
  intro victim before entry listed found member
  unfold busier at member
  dsimp only at member
  split_ifs at member with own empty
  · exact before found member
  · exact before found member
  have new : entry.2 ≠ thief ∧ entry ∈ entries ∧ entry.1.runQueueDepth ≠ 0 :=
    ⟨(not_or.mp own).1, listed, empty⟩
  split at member
  · split_ifs at member
    · exact before found member
    · cases member
      exact new
  · cases member
    exact new

theorem takeLocalTask_eq_some (taken : manager.takeLocalTask apicId = some (task, after)) :
    ∃ index core, manager.cores.items[index]? = some core ∧ task ∈ core.runQueue.items ∧
      after = manager.setQueue index (core.runQueue.eraseIdx 0) := by
  rw [takeLocalTask] at taken
  split at taken
  · rename_i index core found
    split at taken
    · cases taken
    rename_i queue
    cases taken
    exact ⟨index, core, getElem_of_lookup found, queue ▸ List.mem_cons_self, rfl⟩
  · cases taken

theorem stealTask_eq_some (stolen : manager.stealTask apicId = some (task, after)) :
    ∃ index core thief, manager.coreIndex apicId = some thief ∧ index ≠ thief ∧
      manager.cores.items[index]? = some core ∧ task ∈ core.runQueue.items ∧
      after = manager.setQueue index (core.runQueue.eraseIdx (core.runQueue.items.length - 1)) := by
  rw [stealTask] at stolen
  split at stolen
  · cases stolen
  rename_i thief isThief
  split at stolen
  · cases stolen
  rename_i index core search
  obtain ⟨apart, listed, -⟩ := foldl_busier (index, core) search
  split at stolen
  · cases stolen
  rename_i last
  cases stolen
  exact ⟨index, core, thief, isThief, apart, List.mem_zipIdx_iff_getElem?.mp listed,
    List.mem_of_getLast? last, rfl⟩

theorem stealTask_queueOf {task : Str 64} (stolen : manager.stealTask apicId = some (task, after)) :
    (∃ index core, after.lookup apicId = some (index, core)) ∧
      after.queueOf apicId = manager.queueOf apicId := by
  obtain ⟨index, victim, thief, atThief, apart, -, -, rfl⟩ := stealTask_eq_some stolen
  have inside : thief < manager.cores.items.length := by
    obtain ⟨bound, _⟩ := List.findIdx?_eq_some_iff_getElem.mp atThief
    exact bound
  have found : manager.lookup apicId = some (thief, manager.cores.items[thief]) := by
    rw [lookup, atThief]
    simp [inside]
  have kept := lookup_setQueue_of_ne
    (victim.runQueue.eraseIdx (victim.runQueue.items.length - 1)) apart found
  refine ⟨⟨_, _, kept⟩, ?_⟩
  rw [queueOf_of_lookup kept, queueOf_of_lookup found]

/-! ## Every core -/

/-- The calls on the cores. -/
inductive CoreCall where
  | registerCore (apicId : UInt32) (role : CoreRole)
  | setOnline (apicId : UInt32) (online : Bool)
  | beginApStartup (apicId : UInt32)
  | planApStartup (apicId : UInt32)
  | completeApStartup (apicId : UInt32) (startupSeq : Nat)
  | haltCore (apicId : UInt32)
  | enqueueCoreTask (apicId : UInt32) (objectId : Str 64)
  | takeLocalTask (apicId : UInt32)
  | stealTask (thiefApicId : UInt32)

/-- A call that is refused or finds no task changes nothing. -/
def step (manager : MultiCoreManager) : CoreCall → MultiCoreManager
  | .registerCore apicId role => manager.settle (manager.registerCore apicId role)
  | .setOnline apicId online => manager.settle (manager.setOnline apicId online)
  | .beginApStartup apicId => manager.settle (manager.beginApStartup apicId)
  | .planApStartup apicId => manager.settle (manager.planApStartup apicId)
  | .completeApStartup apicId startupSeq =>
    manager.settle (manager.completeApStartupWithSeq apicId startupSeq)
  | .haltCore apicId => manager.settle (manager.haltCore apicId)
  | .enqueueCoreTask apicId objectId => manager.settle (manager.enqueueCoreTask apicId objectId)
  | .takeLocalTask apicId => ((manager.takeLocalTask apicId).map Prod.snd).getD manager
  | .stealTask thiefApicId => ((manager.stealTask thiefApicId).map Prod.snd).getD manager

theorem forall_modifyCore {P : CoreInfo → Prop} (all : ∀ core ∈ manager.cores.items, P core)
    (kept : ∀ core, manager.cores.items[index]? = some core → P (change core)) :
    ∀ core ∈ (manager.modifyCore index change).cores.items, P core := by
  intro core member
  obtain ⟨place, found⟩ := List.mem_iff_getElem?.mp member
  change (manager.cores.items.modify index change)[place]? = some core at found
  rw [List.getElem?_modify] at found
  obtain ⟨old, atPlace, rfl⟩ := Option.map_eq_some_iff.mp found
  split_ifs with here
  · exact kept old (here ▸ atPlace)
  · exact all old (List.mem_of_getElem? atPlace)

/-- What holds of every core holds after a call, if it holds of new cores and lasts when a core
changes its state or its queue. -/
theorem forall_step {P : CoreInfo → Prop} (all : ∀ core ∈ manager.cores.items, P core)
    (call : CoreCall) (new : ∀ apicId role, P (.new apicId role))
    (moved : ∀ core state, P core → P { core with state })
    (completed : ∀ apicId startupSeq index core, call = .completeApStartup apicId startupSeq →
      manager.lookup apicId = some (index, core) → core.state = .booting →
      manager.pendingApicId = some apicId → manager.startupSeq = startupSeq →
      P { core with state := .online, runQueueDepth := 0 })
    (queued : ∀ core queue, P core → (∀ id ∈ queue.items,
        id ∈ core.runQueue.items ∨ ∃ apicId, call = .enqueueCoreTask apicId id) →
      P { core with runQueue := queue, runQueueDepth := queue.items.length }) :
    ∀ core ∈ (manager.step call).cores.items, P core := by
  have holds : ∀ {index core}, manager.cores.items[index]? = some core → P core :=
    fun found => all _ (List.mem_of_getElem? found)
  have erased : ∀ {index core} place, manager.cores.items[index]? = some core →
      ∀ other ∈ (manager.setQueue index (core.runQueue.eraseIdx place)).cores.items, P other := by
    intro index core place found
    refine forall_modifyCore all fun other atIndex => ?_
    cases found.symm.trans atIndex
    exact queued core _ (holds found) fun id member => .inl (List.mem_of_mem_eraseIdx member)
  cases call with
  | registerCore apicId role =>
    simp only [step, registerCore]
    split_ifs
    · exact all
    split
    · rename_i cores pushed
      change ∀ core ∈ cores.items, P core
      rw [(push?_eq_some_iff.mp pushed).2, List.forall_mem_append]
      exact ⟨all, List.forall_mem_singleton.mpr (new apicId role)⟩
    · exact all
  | setOnline apicId online =>
    simp only [step, setOnline]
    split
    · exact all
    · exact forall_modifyCore all fun core found => moved core _ (holds found)
  | beginApStartup apicId =>
    simp only [step, beginApStartup]
    split
    · split_ifs
      any_goals exact all
      exact forall_modifyCore all fun core found => moved core _ (holds found)
    · exact all
  | planApStartup apicId =>
    simp only [step, planApStartup, beginApStartup]
    split_ifs
    · exact all
    split
    · split_ifs
      any_goals exact all
      exact forall_modifyCore all fun core found => moved core _ (holds found)
    · exact all
  | completeApStartup apicId startupSeq =>
    simp only [step, completeApStartupWithSeq]
    split
    · rename_i index core found
      split_ifs with _ _ booting pending sequence
      any_goals exact all
      refine forall_modifyCore all fun other atIndex => ?_
      cases (getElem_of_lookup found).symm.trans atIndex
      exact completed apicId _ index core rfl found (not_not.mp booting) (not_not.mp pending)
        (not_not.mp sequence)
    · exact all
  | haltCore apicId =>
    simp only [step, haltCore]
    split
    · exact all
    · refine forall_modifyCore all fun core found => ?_
      exact moved _ _ (queued core .empty (holds found) nofun)
  | enqueueCoreTask apicId objectId =>
    simp only [step, enqueueCoreTask]
    split
    · rename_i index core found
      split
      · rename_i queue pushed
        refine forall_modifyCore all fun other atIndex => ?_
        cases (getElem_of_lookup found).symm.trans atIndex
        refine queued core queue (holds atIndex) ?_
        rw [(push?_eq_some_iff.mp pushed).2, List.forall_mem_append]
        exact ⟨fun _ => .inl, List.forall_mem_singleton.mpr (.inr ⟨apicId, rfl⟩)⟩
      · exact all
    · exact all
  | takeLocalTask apicId =>
    rw [step]
    cases taken : manager.takeLocalTask apicId with
    | none => exact all
    | some entry =>
      obtain ⟨index, core, found, -, same⟩ := takeLocalTask_eq_some taken
      change ∀ core ∈ entry.2.cores.items, P core
      exact same ▸ erased 0 found
  | stealTask apicId =>
    rw [step]
    cases stolen : manager.stealTask apicId with
    | none => exact all
    | some entry =>
      obtain ⟨index, core, -, -, -, found, -, same⟩ := stealTask_eq_some stolen
      change ∀ core ∈ entry.2.cores.items, P core
      exact same ▸ erased _ found

end MultiCoreManager

namespace Scheduler

variable {setting : Setting} {scheduler : Scheduler} {place : Fin maxRunningCores}

/-! ## No call but `schedule` brings a task -/

theorem tasks_requeue_le : (scheduler.requeue setting place).tasks ≤ scheduler.tasks := by
  cases full : scheduler.ready.isFull with
  | false => exact (tasks_requeue_of_room full).le
  | true =>
    cases busy : scheduler.running place with
    | none => rw [requeue, busy]
    | some current =>
      rw [← tasks_requeue_of_full full busy]
      exact Multiset.le_cons_self _ _

theorem tasks_preemptIfExpiredOn_le (apicId : UInt32) (currentTick : UInt64) :
    (scheduler.preemptIfExpiredOn setting apicId currentTick).1.tasks ≤ scheduler.tasks := by
  rw [preemptIfExpiredOn]
  cases slot setting apicId with
  | none => exact le_rfl
  | some place =>
    dsimp only
    split_ifs
    · exact le_rfl
    · exact (tasks_restart currentTick).le
    · rw [tasks_executeNextOnAt]
      exact tasks_requeue_le

theorem tasks_yieldRunningOn_le (apicId : UInt32) :
    (scheduler.yieldRunningOn setting apicId).1.tasks ≤ scheduler.tasks ∧
      ∀ id ∈ (scheduler.yieldRunningOn setting apicId).2,
        ∃ task ∈ scheduler.tasks, task.objectId = id := by
  rw [yieldRunningOn]
  cases slot setting apicId with
  | none => exact ⟨le_rfl, by simp⟩
  | some place =>
    dsimp only
    cases busy : scheduler.running place with
    | none => exact ⟨le_rfl, by simp⟩
    | some current =>
      refine ⟨tasks_requeue_le, ?_⟩
      intro id yielded
      cases yielded
      refine ⟨current.task, ?_, rfl⟩
      have present := tasks_clear busy scheduler.ready
      rw [← present]
      exact Multiset.mem_cons_self _ _

theorem tasks_completeRunningOn_le (apicId : UInt32) :
    (scheduler.completeRunningOn setting apicId).tasks ≤ scheduler.tasks := by
  rw [tasks_completeRunningOn, accounted]
  split
  · exact le_rfl
  · exact Multiset.erase_le _ _

end Scheduler

namespace Kernel

open MultiCoreManager

variable {setting : Setting} {kernel : Kernel} {objectId : Str 64}

/-! ## Generated ids -/

/-- The id is one that the kernel generates. -/
def Generated (objectId : Str 64) : Prop := ascii "obj-" <+: objectId.text

theorem Generated.not_placeholder (generated : Generated objectId) :
    isPlaceholder objectId = false := by
  obtain ⟨rest, text⟩ := generated
  rw [isPlaceholder, ← text]
  rfl

/-- All ids in run queues are generated ones. -/
def QueuesGenerated (manager : MultiCoreManager) : Prop :=
  ∀ core ∈ manager.cores.items, ∀ id ∈ core.runQueue.items, Generated id

namespace QueuesGenerated

variable {manager : MultiCoreManager} {apicId : UInt32}

variable (generated : QueuesGenerated manager)
include generated

theorem setQueue (index : Nat) (ids : ∀ id ∈ queue.items, Generated id) :
    QueuesGenerated (manager.setQueue index queue) :=
  forall_modifyCore generated fun _ _ => ids

theorem noteDispatch (apicId : UInt32) : QueuesGenerated (manager.noteDispatch apicId) := by
  rw [MultiCoreManager.noteDispatch]
  split
  · exact generated
  · exact forall_modifyCore generated fun core found => generated core (List.mem_of_getElem? found)

theorem step (call : CoreCall)
    (named : ∀ apicId id, call = .enqueueCoreTask apicId id → Generated id) :
    QueuesGenerated (manager.step call) := by
  refine forall_step generated call (fun _ _ => nofun) (fun _ _ => id) ?_ ?_
  · intro apicId startupSeq index core _ found _ _ _
    exact generated core (mem_of_lookup found)
  · intro core queue ids origin id member
    rcases origin id member with old | ⟨apicId, isCall⟩
    · exact ids id old
    · exact named apicId id isCall

theorem takeTaskForCore {changed : MultiCoreManager}
    (taken : manager.takeTaskForCore apicId = some (objectId, changed)) :
    Generated objectId ∧ QueuesGenerated changed := by
  have erased : ∃ index core place, manager.cores.items[index]? = some core ∧
      objectId ∈ core.runQueue.items ∧
      changed = manager.setQueue index (core.runQueue.eraseIdx place) := by
    rw [MultiCoreManager.takeTaskForCore] at taken
    split at taken
    · rename_i localTask
      cases taken
      obtain ⟨index, core, found⟩ := takeLocalTask_eq_some localTask
      exact ⟨index, core, 0, found⟩
    · obtain ⟨index, core, -, -, -, found⟩ := stealTask_eq_some taken
      exact ⟨index, core, _, found⟩
  obtain ⟨index, core, place, found, listed, rfl⟩ := erased
  have ids := generated core (List.mem_of_getElem? found)
  refine ⟨ids objectId listed, generated.setQueue index fun id member => ?_⟩
  exact ids id (List.mem_of_mem_eraseIdx member)

theorem queueOf : ∀ id ∈ manager.queueOf apicId, isPlaceholder id = false := by
  intro id member
  rw [MultiCoreManager.queueOf] at member
  split at member
  · rename_i index core found
    exact (generated core (mem_of_lookup found) id member).not_placeholder
  · cases member

end QueuesGenerated

/-- Every id in a run queue and every task of the scheduler is that of an object. -/
structure AllGenerated (kernel : Kernel) : Prop where
  queues : QueuesGenerated kernel.multicore
  tasks : ∀ task ∈ kernel.scheduler.tasks, Generated task.objectId

namespace AllGenerated

theorem onCores (all : kernel.AllGenerated) (call : CoreCall)
    (named : ∀ apicId id, call = .enqueueCoreTask apicId id → Generated id) :
    AllGenerated { kernel with multicore := kernel.multicore.step call } :=
  ⟨all.queues.step call named, all.tasks⟩

theorem ofTasks {scheduler : Scheduler} (all : kernel.AllGenerated)
    (fewer : scheduler.tasks ≤ kernel.scheduler.tasks) {multicore : MultiCoreManager}
    (queues : QueuesGenerated multicore) : AllGenerated ⟨scheduler, multicore⟩ :=
  ⟨queues, fun task member => all.tasks task (Multiset.mem_of_le fewer member)⟩

variable (all : kernel.AllGenerated)
include all

theorem queueTaskToCore (named : Generated objectId) :
    (kernel.queueTaskToCore objectId).AllGenerated := by
  rw [Kernel.queueTaskToCore]
  split_ifs
  · exact all
  · refine all.onCores (.enqueueCoreTask _ objectId) ?_
    rintro _ _ ⟨⟩
    exact named

theorem scheduleObject (object : ObjectId) (intent : Str 32) :
    (kernel.scheduleObject setting object intent).AllGenerated := by
  apply queueTaskToCore _ object.generated
  refine ⟨all.queues, ?_⟩
  intro task member
  change task ∈ (kernel.scheduler.schedule setting object.id intent).tasks at member
  rw [Scheduler.tasks_schedule, Scheduler.accounted] at member
  split_ifs at member
  · exact all.tasks task member
  · rcases Multiset.mem_cons.mp member with rfl | old
    · exact object.generated
    · exact all.tasks task old

theorem executeNextOnCore (apicId : UInt32) :
    (kernel.executeNextOnCore setting apicId).1.AllGenerated := by
  rw [Kernel.executeNextOnCore]
  split
  · exact all
  rename_i id multicore taken
  obtain ⟨named, queues⟩ := all.queues.takeTaskForCore taken
  split_ifs
  · exact ⟨queues.noteDispatch apicId, all.tasks⟩
  have same := @Scheduler.tasks_takeQueuedById setting kernel.scheduler id.text 0 apicId
  split
  · rename_i dispatched
    rw [dispatched] at same
    exact all.ofTasks same.le (queues.noteDispatch apicId)
  · rename_i missing
    rw [missing] at same
    refine all.ofTasks same.le (queues.step (.enqueueCoreTask apicId id) ?_)
    rintro _ _ ⟨⟩
    exact named

theorem preemptTickOnCore (currentTick : UInt64) (apicId : UInt32) :
    (kernel.preemptTickOnCore setting currentTick apicId).1.AllGenerated := by
  have fewer := @Scheduler.tasks_preemptIfExpiredOn_le setting kernel.scheduler apicId currentTick
  rw [Kernel.preemptTickOnCore]
  split
  · rename_i switched
    rw [switched] at fewer
    exact all.ofTasks fewer (all.queues.noteDispatch apicId)
  · rename_i kept
    rw [kept] at fewer
    exact all.ofTasks fewer all.queues

theorem service (apicId : UInt32) (currentTick : UInt64) :
    (kernel.serviceCoreRuntimeStepWithTick setting apicId currentTick).1.AllGenerated := by
  have preempted := @preemptTickOnCore setting kernel all currentTick apicId
  rw [serviceCoreRuntimeStepWithTick]
  split
  · rename_i switched
    rw [switched] at preempted
    exact preempted
  · rename_i kept
    rw [kept] at preempted
    split_ifs
    · exact preempted
    · exact preempted.executeNextOnCore apicId

theorem yieldRunningOnCore (apicId : UInt32) :
    (kernel.yieldRunningOnCore setting apicId).1.AllGenerated := by
  obtain ⟨fewer, yielded⟩ := @Scheduler.tasks_yieldRunningOn_le setting kernel.scheduler apicId
  rw [Kernel.yieldRunningOnCore]
  split
  · rename_i idle
    rw [idle] at fewer
    exact all.ofTasks fewer all.queues
  · rename_i left
    rw [left] at fewer yielded
    obtain ⟨task, member, rfl⟩ := yielded _ rfl
    exact (all.ofTasks fewer all.queues).queueTaskToCore (all.tasks task member)

theorem step (call : KernelCall) : (kernel.step setting call).AllGenerated := by
  cases call with
  | registerCore apicId role => exact all.onCores (.registerCore apicId role) nofun
  | setCoreOnline apicId online => exact all.onCores (.setOnline apicId online) nofun
  | beginApStartup apicId => exact all.onCores (.beginApStartup apicId) nofun
  | planApStartup apicId => exact all.onCores (.planApStartup apicId) nofun
  | completeApStartup apicId startupSeq =>
    exact all.onCores (.completeApStartup apicId startupSeq) nofun
  | haltCore apicId => exact all.onCores (.haltCore apicId) nofun
  | schedule object intent => exact all.scheduleObject object intent
  | service apicId currentTick => exact all.service apicId currentTick
  | yieldRunning apicId => exact all.yieldRunningOnCore apicId
  | completeRunning apicId =>
    exact all.ofTasks (Scheduler.tasks_completeRunningOn_le apicId) all.queues
  | preemptTick currentTick apicId => exact all.preemptTickOnCore currentTick apicId

end AllGenerated

theorem allGenerated_after (setting : Setting) (calls : List KernelCall) :
    (Run.after (step setting) new calls).AllGenerated := by
  refine Run.always calls ⟨?_, ?_⟩ fun _ call all => all.step call
  · simp [QueuesGenerated, new, MultiCoreManager.new, empty]
  · intro task member
    simp [new, Scheduler.new, Scheduler.tasks, empty, Cells.contents] at member

end Kernel
end Cdk.Scheduling

import Cdk.Scheduling.RunQueues

/-!
# Does an idle core find the ready work?

A core turns its run queue round until it comes to the id of a ready task.  Ids whose task is gone
stay in the queue, and a core with such an id no longer steals.  So an idle core comes to run a
task exactly when its queue holds the id of a ready task, or is empty and it steals one.
-/

namespace Cdk.Scheduling

open ByteFormat BoundedText Scheduler Run

namespace Kernel

open MultiCoreManager

variable {setting : Setting} {kernel : Kernel} {apicId : UInt32} {objectId : Str 64}
variable {place : Fin maxRunningCores}

/-- A task of the object is ready. -/
def Ready (kernel : Kernel) (objectId : Str 64) : Prop :=
  ∃ task ∈ kernel.scheduler.ready.items, task.objectId.text = objectId.text

instance : DecidablePred kernel.Ready :=
  fun objectId => inferInstanceAs
    (Decidable (∃ task ∈ kernel.scheduler.ready.items, task.objectId.text = objectId.text))

/-- The core runs nothing. -/
def Idle (setting : Setting) (kernel : Kernel) (apicId : UInt32) : Prop :=
  ∃ place, slot setting apicId = some place ∧ kernel.scheduler.running place = none

def serve (setting : Setting) (apicId : UInt32) (kernel : Kernel) (ticks : List UInt64) : Kernel :=
  after (fun kernel currentTick =>
    (kernel.serviceCoreRuntimeStepWithTick setting apicId currentTick).1) kernel ticks

/-! ## One service of an idle core -/

theorem takeQueuedById_of_ready (slot : slot setting apicId = some place)
    (free : kernel.scheduler.running place = none) (ready : kernel.Ready objectId) :
    ∃ scheduler id, kernel.scheduler.takeQueuedById setting objectId.text 0 apicId =
      (scheduler, some id) ∧ (scheduler.running place).isSome := by
  obtain ⟨task, member, same⟩ := ready
  rw [takeQueuedById, slot]
  dsimp only
  rw [free, Option.isSome_none, if_neg Bool.false_ne_true]
  cases search : kernel.scheduler.ready.items.findIdx? fun task =>
      task.objectId.text == objectId.text with
  | none =>
    have absent := List.findIdx?_eq_none_iff.mp search task member
    rw [same, beq_self_eq_true] at absent
    cases absent
  | some position =>
    obtain ⟨inside, _⟩ := List.findIdx?_eq_some_iff_getElem.mp search
    dsimp only
    rw [List.getElem?_eq_getElem inside]
    exact ⟨_, _, rfl, by simp [run]⟩

theorem takeQueuedById_of_not_ready (stale : ¬ kernel.Ready objectId) :
    kernel.scheduler.takeQueuedById setting objectId.text 0 apicId = (kernel.scheduler, none) := by
  rw [takeQueuedById]
  cases slot setting apicId with
  | none => rfl
  | some place =>
    dsimp only
    split_ifs
    · rfl
    have absent : (kernel.scheduler.ready.items.findIdx? fun task =>
        task.objectId.text == objectId.text) = none := by
      rw [List.findIdx?_eq_none_iff]
      intro task member
      rw [beq_eq_false_iff_ne]
      exact fun same => stale ⟨task, member, same⟩
    rw [absent]

theorem service_idle (idle : kernel.Idle setting apicId) (currentTick : UInt64) :
    kernel.serviceCoreRuntimeStepWithTick setting apicId currentTick =
      kernel.executeNextOnCore setting apicId := by
  obtain ⟨place, slot, free⟩ := idle
  have kept : kernel.preemptTickOnCore setting currentTick apicId = (kernel, none) := by
    rw [preemptTickOnCore, preemptIfExpiredOn, slot]
    dsimp only
    rw [free]
    rfl
  rw [serviceCoreRuntimeStepWithTick, kept]
  dsimp only
  rw [runningTaskOn, slot, Option.bind_some, free, Option.isSome_none, if_neg Bool.false_ne_true]

theorem execute_ready (idle : kernel.Idle setting apicId) {multicore : MultiCoreManager}
    (taken : kernel.multicore.takeTaskForCore apicId = some (objectId, multicore))
    (named : isPlaceholder objectId = false) (ready : kernel.Ready objectId) :
    ((kernel.executeNextOnCore setting apicId).1.runningTaskOn setting apicId).isSome := by
  obtain ⟨place, slot, free⟩ := idle
  obtain ⟨scheduler, id, dispatched, running⟩ := takeQueuedById_of_ready slot free ready
  rw [executeNextOnCore, taken]
  dsimp only
  rw [named, if_neg Bool.false_ne_true, dispatched]
  dsimp only
  rw [runningTaskOn, slot]
  exact running

theorem execute_stale {multicore : MultiCoreManager}
    (taken : kernel.multicore.takeTaskForCore apicId = some (objectId, multicore))
    (named : isPlaceholder objectId = false) (stale : ¬ kernel.Ready objectId)
    (room : (multicore.queueOf apicId).length < maxCoreRq)
    {index : Nat} {core : CoreInfo} (found : multicore.lookup apicId = some (index, core)) :
    let after := (kernel.executeNextOnCore setting apicId).1
    after.scheduler = kernel.scheduler ∧
      after.multicore.queueOf apicId = multicore.queueOf apicId ++ [objectId] := by
  obtain ⟨queued, enqueued, queue⟩ := @enqueueCoreTask_of_room _ _ _ _ objectId found room
  rw [executeNextOnCore, taken]
  dsimp only
  rw [named, if_neg Bool.false_ne_true, takeQueuedById_of_not_ready stale]
  dsimp only
  rw [enqueued]
  exact ⟨rfl, queue⟩

/-! ## Many services -/

theorem service_turns {rest : List (Str 64)}
    (queue : kernel.multicore.queueOf apicId = objectId :: rest)
    (named : isPlaceholder objectId = false) (stale : ¬ kernel.Ready objectId) :
    let after := (kernel.executeNextOnCore setting apicId).1
    after.scheduler = kernel.scheduler ∧ after.multicore.queueOf apicId = rest ++ [objectId] := by
  obtain ⟨multicore, taken, ⟨index, core, found⟩, left⟩ := takeLocalTask_cons queue
  have bound := kernel.multicore.length_queueOf_le apicId
  rw [queue, List.length_cons] at bound
  have whole : kernel.multicore.takeTaskForCore apicId = some (objectId, multicore) := by
    rw [takeTaskForCore, taken]
  rw [← left]
  exact execute_stale whole named stale (by rw [left]; omega) found

theorem Idle.congr {other : Kernel} (idle : kernel.Idle setting apicId)
    (same : other.scheduler = kernel.scheduler) : other.Idle setting apicId := by
  rwa [Idle, same]

theorem ready_congr {other : Kernel} (same : other.scheduler = kernel.scheduler) :
    other.Ready objectId ↔ kernel.Ready objectId := by
  rw [Ready, Ready, same]

/-- The core turns its queue until it comes to the id of a ready task. -/
theorem serve_finds (idle : kernel.Idle setting apicId)
    (queue : kernel.multicore.queueOf apicId = early ++ objectId :: late)
    (named : ∀ id ∈ kernel.multicore.queueOf apicId, isPlaceholder id = false)
    (stale : ∀ id ∈ early, ¬ kernel.Ready id) (ready : kernel.Ready objectId)
    (enough : ticks.length = early.length + 1) :
    ((serve setting apicId kernel ticks).runningTaskOn setting apicId).isSome := by
  -- Induction on the stale ids in front; each of them costs one service.
  induction early generalizing kernel late ticks with
  | nil =>
    obtain ⟨tick, rfl⟩ := List.length_eq_one_iff.mp enough
    obtain ⟨multicore, taken, _⟩ := takeLocalTask_cons queue
    rw [queue] at named
    change (((kernel.serviceCoreRuntimeStepWithTick setting apicId tick).1).runningTaskOn
      setting apicId).isSome
    rw [service_idle idle]
    have whole : kernel.multicore.takeTaskForCore apicId = some (objectId, multicore) := by
      rw [takeTaskForCore, taken]
    exact execute_ready idle whole (named objectId List.mem_cons_self) ready
  | cons first early step =>
    obtain ⟨tick, ticks, rfl⟩ := List.exists_cons_of_length_eq_add_one enough
    rw [queue] at named
    obtain ⟨sameScheduler, turned⟩ := @service_turns setting kernel apicId first
      (early ++ objectId :: late) queue (named first List.mem_cons_self)
      (stale first List.mem_cons_self)
    change ((serve setting apicId
      (kernel.serviceCoreRuntimeStepWithTick setting apicId tick).1 ticks).runningTaskOn
        setting apicId).isSome
    rw [service_idle idle]
    rw [List.append_assoc, List.cons_append] at turned
    refine step (idle.congr sameScheduler) turned ?_ ?_ ((ready_congr sameScheduler).mpr ready)
      (by simpa using enough)
    · intro id member
      apply named
      rw [turned] at member
      simp only [List.mem_append, List.mem_cons, List.not_mem_nil, or_false] at member ⊢
      tauto
    · intro id member
      rw [ready_congr sameScheduler]
      exact stale id (List.mem_cons_of_mem _ member)

theorem serve_stuck (idle : kernel.Idle setting apicId)
    (nonempty : kernel.multicore.queueOf apicId ≠ [])
    (stale : ∀ id ∈ kernel.multicore.queueOf apicId,
      isPlaceholder id = false ∧ ¬ kernel.Ready id) (ticks : List UInt64) :
    (serve setting apicId kernel ticks).Idle setting apicId := by
  have stays := @always _ _ (fun kernel currentTick =>
      (kernel.serviceCoreRuntimeStepWithTick setting apicId currentTick).1)
    (fun kernel => kernel.Idle setting apicId ∧ kernel.multicore.queueOf apicId ≠ [] ∧
      ∀ id ∈ kernel.multicore.queueOf apicId, isPlaceholder id = false ∧ ¬ kernel.Ready id)
    kernel ticks ⟨idle, nonempty, stale⟩ ?_
  · exact stays.1
  rintro kernel tick ⟨idle, nonempty, stale⟩
  obtain ⟨first, rest, queue⟩ := List.exists_cons_of_ne_nil nonempty
  have front := stale first (queue ▸ List.mem_cons_self)
  obtain ⟨sameScheduler, turned⟩ := @service_turns setting kernel apicId first rest queue
    front.1 front.2
  rw [service_idle idle]
  refine ⟨idle.congr sameScheduler, ?_, ?_⟩
  · rw [turned]
    simp
  intro id member
  rw [ready_congr sameScheduler]
  apply stale
  rw [turned, List.mem_append, List.mem_singleton] at member
  rw [queue, List.mem_cons]
  exact member.symm

def stolenId (kernel : Kernel) (apicId : UInt32) : Option (Str 64) :=
  (kernel.multicore.stealTask apicId).map Prod.fst

/-- The core's queue holds the id of a ready task, or it is empty and the id that the core
steals is one. -/
def FindsWork (kernel : Kernel) (apicId : UInt32) : Prop :=
  (∃ id ∈ kernel.multicore.queueOf apicId, kernel.Ready id) ∨
    kernel.multicore.queueOf apicId = [] ∧ ∃ id ∈ kernel.stolenId apicId, kernel.Ready id

instance : Decidable (kernel.FindsWork apicId) :=
  inferInstanceAs (Decidable ((∃ id ∈ kernel.multicore.queueOf apicId, kernel.Ready id) ∨
    kernel.multicore.queueOf apicId = [] ∧ ∃ id ∈ kernel.stolenId apicId, kernel.Ready id))

theorem serve_nothing (idle : kernel.Idle setting apicId)
    (empty : kernel.multicore.queueOf apicId = [])
    (nothing : kernel.multicore.stealTask apicId = none) (ticks : List UInt64) :
    serve setting apicId kernel ticks = kernel := by
  induction ticks with
  | nil => rfl
  | cons tick ticks step =>
    change serve setting apicId
      (kernel.serviceCoreRuntimeStepWithTick setting apicId tick).1 ticks = kernel
    have kept : kernel.executeNextOnCore setting apicId = (kernel, none) := by
      rw [executeNextOnCore, takeTaskForCore, takeLocalTask_nil empty]
      dsimp only
      rw [nothing]
    rw [service_idle idle, kept]
    exact step

theorem exists_first_ready (some_ready : ∃ id ∈ queue, kernel.Ready id) :
    ∃ early id late, queue = early ++ id :: late ∧ (∀ other ∈ early, ¬ kernel.Ready other) ∧
      kernel.Ready id := by
  obtain ⟨id, search⟩ := Option.isSome_iff_exists.mp
    (List.find?_isSome.mpr (by simpa using some_ready) :
      (queue.find? fun id => decide (kernel.Ready id)).isSome)
  obtain ⟨ready, early, late, split, before⟩ := List.find?_eq_some_iff_append.mp search
  exact ⟨early, id, late, split, by simpa using before, by simpa using ready⟩

theorem Idle.runningTaskOn (idle : kernel.Idle setting apicId) :
    kernel.runningTaskOn setting apicId = none := by
  obtain ⟨place, slot, free⟩ := idle
  rw [Kernel.runningTaskOn, slot]
  exact free

theorem takeTaskForCore_of_empty (empty : kernel.multicore.queueOf apicId = []) :
    kernel.multicore.takeTaskForCore apicId = kernel.multicore.stealTask apicId := by
  rw [takeTaskForCore, takeLocalTask_nil empty]

theorem FindsWork.dispatches (finds : kernel.FindsWork apicId)
    (generated : QueuesGenerated kernel.multicore) (idle : kernel.Idle setting apicId) :
    ∃ count, ∀ ticks : List UInt64, ticks.length = count →
      ((serve setting apicId kernel ticks).runningTaskOn setting apicId).isSome := by
  rcases finds with own | ⟨empty, id, stolen, ready⟩
  · obtain ⟨early, id, late, queue, stale, ready⟩ := exists_first_ready own
    exact ⟨early.length + 1, fun ticks => serve_finds idle queue generated.queueOf stale ready⟩
  obtain ⟨⟨objectId, multicore⟩, theft, same⟩ := Option.map_eq_some_iff.mp stolen
  cases same
  refine ⟨1, fun ticks one => ?_⟩
  obtain ⟨tick, rfl⟩ := List.length_eq_one_iff.mp one
  change (((kernel.serviceCoreRuntimeStepWithTick setting apicId tick).1).runningTaskOn
    setting apicId).isSome
  rw [service_idle idle]
  have taken := (takeTaskForCore_of_empty empty).trans theft
  exact execute_ready idle taken (generated.takeTaskForCore taken).1.not_placeholder ready

/-- Without work in reach the core stays idle for ever: its queue holds stale ids only, or
it steals nothing, or it steals a stale id and turns that one. -/
theorem idle_of_not_findsWork (lacks : ¬ kernel.FindsWork apicId)
    (generated : QueuesGenerated kernel.multicore) (idle : kernel.Idle setting apicId)
    (ticks : List UInt64) :
    (serve setting apicId kernel ticks).Idle setting apicId := by
  rw [FindsWork, not_or] at lacks
  by_cases empty : kernel.multicore.queueOf apicId = []
  · cases theft : kernel.multicore.stealTask apicId with
    | none =>
      rw [serve_nothing idle empty theft]
      exact idle
    | some taken =>
      obtain ⟨objectId, multicore⟩ := taken
      have stale : ¬ kernel.Ready objectId := by
        intro ready
        apply lacks.2
        refine ⟨empty, objectId, ?_, ready⟩
        rw [stolenId, theft]
        rfl
      have taken := (takeTaskForCore_of_empty empty).trans theft
      have notPlaceholder := (generated.takeTaskForCore taken).1.not_placeholder
      obtain ⟨⟨index, core, found⟩, queue⟩ := stealTask_queueOf theft
      rw [empty] at queue
      cases ticks with
      | nil => exact idle
      | cons tick ticks =>
        obtain ⟨sameScheduler, turned⟩ := @execute_stale setting kernel apicId objectId multicore
          taken notPlaceholder stale
          (by rw [queue]; decide) index core found
        rw [queue, List.nil_append] at turned
        change (serve setting apicId
          (kernel.serviceCoreRuntimeStepWithTick setting apicId tick).1 ticks).Idle setting apicId
        rw [service_idle idle]
        refine serve_stuck (idle.congr sameScheduler) ?_ ?_ ticks
        · rw [turned]
          simp
        · intro id member
          rw [turned, List.mem_singleton] at member
          subst member
          exact ⟨notPlaceholder, fun ready => stale ((ready_congr sameScheduler).mp ready)⟩
  · refine serve_stuck idle empty ?_ ticks
    intro id member
    exact ⟨generated.queueOf id member, fun ready => lacks.1 ⟨id, member, ready⟩⟩

/-- In every kernel that calls lead to, an idle core comes to run a task after so many
services exactly when its own run queue holds the id of a ready task, or its queue is empty
and the newest id of the busiest other core on line is that of a ready task. -/
theorem idle_core_dispatches_iff
    (setting : Setting)
    (calls : List KernelCall)
    (apicId : UInt32)
    (idle : (after (step setting) new calls).Idle setting apicId) :
    let kernel := after (step setting) new calls
    (∃ count, ∀ ticks : List UInt64, ticks.length = count →
      ((serve setting apicId kernel ticks).runningTaskOn setting apicId).isSome) ↔
      kernel.FindsWork apicId := by
  intro kernel
  have generated := (allGenerated_after setting calls).queues
  constructor
  · rintro ⟨count, dispatches⟩
    by_contra lacks
    have still := idle_of_not_findsWork lacks generated idle (List.replicate count 0)
    have running := dispatches (List.replicate count 0) List.length_replicate
    rw [still.runningTaskOn] at running
    cases running
  · intro finds
    exact finds.dispatches generated idle

/-! ## Runs -/

def firstId : ObjectId := ⟨firstObject, by decide⟩

def secondId : ObjectId := ⟨secondObject, by decide⟩

def oneTask : List KernelCall :=
  [.registerCore 0 .bootstrap, .schedule firstId normalIntent]

def preempted : List KernelCall :=
  oneTask ++ [.service 0 0, .schedule secondId normalIntent, .preemptTick 100 0, .completeRunning 0]

def restarted : List KernelCall := oneTask ++ [.haltCore 0, .setCoreOnline 0 true]

def reached (calls : List KernelCall) : Kernel := after (step sampleSetting) new calls

theorem idle_core_dispatches_iff_sample : (reached oneTask).Idle sampleSetting 0 ∧
    ∃ count, ∀ ticks : List UInt64, ticks.length = count →
      ((serve sampleSetting 0 (reached oneTask) ticks).runningTaskOn sampleSetting 0).isSome := by
  have idle : (reached oneTask).Idle sampleSetting 0 :=
    ⟨⟨0, by decide⟩, by decide +kernel, by decide +kernel⟩
  refine ⟨idle, ?_⟩
  apply (idle_core_dispatches_iff sampleSetting oneTask 0 idle).mpr
  refine .inl ⟨firstId.id, ?_, ?_⟩
  · decide +kernel
  · change Ready (reached oneTask) _
    decide +kernel

/-- The core is on line and idle, the task is ready, and no number of services dispatches
it. -/
def NeverDispatched (calls : List KernelCall) : Prop :=
  (∃ core ∈ (reached calls).multicore.cores.items, core.apicId = 0 ∧ core.state = .online) ∧
  (reached calls).Idle sampleSetting 0 ∧ (reached calls).Ready firstId.id ∧
  ∀ ticks, (serve sampleSetting 0 (reached calls) ticks).runningTaskOn sampleSetting 0 = none

theorem neverDispatched_of_not_findsWork
    (online : ∃ core ∈ (reached calls).multicore.cores.items,
      core.apicId = 0 ∧ core.state = .online)
    (idle : (reached calls).Idle sampleSetting 0) (ready : (reached calls).Ready firstId.id)
    (lacks : ¬ FindsWork (reached calls) 0) : NeverDispatched calls :=
  ⟨online, idle, ready, fun ticks => (idle_of_not_findsWork lacks
    (allGenerated_after sampleSetting calls).queues idle ticks).runningTaskOn⟩

/-- After the preemption the run queue holds the id of the completed task, and after the
restart it holds none. -/
theorem ready_task_never_dispatched : NeverDispatched preempted ∧ NeverDispatched restarted := by
  constructor
  · have idle : (reached preempted).Idle sampleSetting 0 :=
      ⟨⟨0, by decide⟩, by decide +kernel, by decide +kernel⟩
    exact neverDispatched_of_not_findsWork (by decide +kernel) idle (by decide +kernel)
      (by decide +kernel)
  · have idle : (reached restarted).Idle sampleSetting 0 :=
      ⟨⟨0, by decide⟩, by decide +kernel, by decide +kernel⟩
    exact neverDispatched_of_not_findsWork (by decide +kernel) idle (by decide +kernel)
      (by decide +kernel)

end Kernel
end Cdk.Scheduling

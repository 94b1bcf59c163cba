import Cdk.Scheduling.RunQueues

/-!
# Depths of the run queues

The depth in a core's record is a copy of the length of its run queue, which the choice of a
core and the search for a task to steal go by.  The copy is true as long as no core with
waiting tasks completes its startup: that call sets the depth to zero and keeps the queue.
-/

namespace Cdk.Scheduling
namespace MultiCoreManager

variable {manager : MultiCoreManager} {thief depth : Nat}

/-- A startup that completes finds an empty queue. -/
def emptied (manager : MultiCoreManager) : CoreCall → Bool
  | .completeApStartup apicId startupSeq =>
    (manager.lookup apicId).all fun (_, core) =>
      core.state != .booting || manager.pendingApicId != some apicId ||
        manager.startupSeq != startupSeq || core.runQueue.items.isEmpty
  | _ => true

section

variable (manager : MultiCoreManager)

/-- The depth of every core is the length of its queue. -/
def Accurate : Prop :=
  ∀ core ∈ manager.cores.items, core.runQueueDepth = core.runQueue.items.length

/-- The core for the next task is on line, and none on line has a shorter queue. -/
def SelectsShortest : Prop :=
  (∃ core ∈ manager.cores.items, core.state = .online) →
    ∃ core ∈ manager.cores.items, manager.selectDispatchCore = some core.apicId ∧
      core.state = .online ∧ ∀ other ∈ manager.cores.items, other.state = .online →
        core.runQueue.items.length ≤ other.runQueue.items.length

/-- A core that steals gets a task if another core on line has one waiting. -/
def StealsWaiting : Prop :=
  ∀ apicId thief, manager.coreIndex apicId = some thief → ∀ place core, place ≠ thief →
    manager.cores.items[place]? = some core → core.state = .online → core.runQueue.items ≠ [] →
      (manager.stealTask apicId).isSome

end

theorem Accurate.step (accurate : manager.Accurate) (call : CoreCall)
    (empty : manager.emptied call) : (manager.step call).Accurate := by
  refine forall_step accurate call (fun _ _ => rfl) (fun _ _ => id) ?_ fun _ _ _ _ => rfl
  rintro apicId startupSeq index core rfl found booting pending sequence
  have none : core.runQueue.items = [] := by
    simpa [emptied, found, booting, pending, sequence] using empty
  exact (congrArg List.length none).symm

/-! ## The searches -/

theorem foldl_better {cores : List CoreInfo} : ∀ found ∈ cores.foldl better none,
    ∃ core ∈ cores, core.state = .online ∧
      found = (core.apicId, core.runQueueDepth, core.dispatches) := by
  refine List.foldlRecOn (motive := fun best : Option (UInt32 × Nat × Nat) => ∀ found ∈ best,
    ∃ core ∈ cores, core.state = .online ∧
      found = (core.apicId, core.runQueueDepth, core.dispatches)) cores _ nofun ?_
  intro best before core listed found member
  unfold better at member
  split_ifs at member with offline
  · exact before found member
  split at member
  · split_ifs at member
    · exact before found member
    · exact ⟨core, listed, not_not.mp offline, (Option.some.inj member).symm⟩
  · exact ⟨core, listed, not_not.mp offline, (Option.some.inj member).symm⟩

/-- The search finds a core that is no deeper than those on line. -/
theorem exists_le_of_foldl_better {cores : List CoreInfo} {best : Option (UInt32 × Nat × Nat)}
    (shallow : (∃ found ∈ best, found.2.1 ≤ depth) ∨
      ∃ core ∈ cores, core.state = .online ∧ core.runQueueDepth ≤ depth) :
    ∃ found ∈ cores.foldl better best, found.2.1 ≤ depth := by
  induction cores generalizing best with
  | nil => simpa using shallow
  | cons core rest ih =>
    apply ih
    rw [or_iff_not_imp_right]
    intro noneLater
    simp only [List.exists_mem_cons_iff, or_iff_left noneLater] at shallow
    unfold better
    split_ifs with offline
    · exact shallow.resolve_right fun online => offline online.1
    replace shallow := shallow.imp_right And.right
    cases best with
    | none => simpa using shallow
    | some found =>
      obtain ⟨apicId, least, dispatches⟩ := found
      dsimp only
      split_ifs <;> simp at shallow ⊢ <;> omega

theorem isSome_foldl_busier {entries : List (CoreInfo × Nat)} {victim : Option (Nat × CoreInfo)}
    (work : victim.isSome ∨ ∃ entry ∈ entries,
      entry.2 ≠ thief ∧ entry.1.state = .online ∧ entry.1.runQueueDepth ≠ 0) :
    (entries.foldl (busier thief) victim).isSome := by
  induction entries generalizing victim with
  | nil => simpa using work
  | cons entry rest ih =>
    apply ih
    rw [or_iff_not_imp_right]
    intro noneLater
    simp only [List.exists_mem_cons_iff, or_iff_left noneLater] at work
    unfold busier
    dsimp only
    split_ifs with own empty
    · exact work.resolve_right fun busy => own.elim busy.1 (absurd busy.2.1)
    · exact work.resolve_right fun busy => busy.2.2 empty
    · split
      · split_ifs <;> rfl
      · rfl

/-! ## What follows from the depths -/

section

variable (accurate : manager.Accurate)
include accurate

theorem Accurate.selects : manager.SelectsShortest := by
  have least : ∀ other ∈ manager.cores.items, other.state = .online →
      ∃ found ∈ manager.cores.items.foldl better none, found.2.1 ≤ other.runQueueDepth :=
    fun other listed isOnline => exists_le_of_foldl_better (.inr ⟨other, listed, isOnline, le_rfl⟩)
  rintro ⟨some, present, isOnline⟩
  obtain ⟨found, search, -⟩ := least some present isOnline
  obtain ⟨core, listed, chosen, rfl⟩ := foldl_better found search
  refine ⟨core, listed, by rw [selectDispatchCore, search, Option.map_some], chosen, ?_⟩
  intro other alsoListed alsoOnline
  obtain ⟨same, again, le⟩ := least other alsoListed alsoOnline
  cases Option.some.inj (search.symm.trans again)
  rwa [accurate core listed, accurate other alsoListed] at le

theorem Accurate.steals : manager.StealsWaiting := by
  intro apicId thief isThief place core apart there online waiting
  have busy : core.runQueueDepth ≠ 0 := by
    rw [accurate core (List.mem_of_getElem? there)]
    exact mt List.eq_nil_of_length_eq_zero waiting
  obtain ⟨victim, search⟩ := Option.isSome_iff_exists.mp (isSome_foldl_busier
    (.inr ⟨(core, place), List.mem_zipIdx_iff_getElem?.mpr there, apart, online, busy⟩))
  obtain ⟨-, listed, deep⟩ := foldl_busier victim search
  rw [accurate victim.2 (List.mem_of_getElem? (List.mem_zipIdx_iff_getElem?.mp listed))] at deep
  obtain ⟨last, isLast⟩ : ∃ last, victim.2.runQueue.items.getLast? = some last := by
    rw [List.getLast?_eq_some_getLast (List.ne_nil_of_length_pos (Nat.pos_of_ne_zero deep))]
    exact ⟨_, rfl⟩
  simp [stealTask, isThief, search, isLast]

end

/-- The depths are the lengths of the queues in every manager that calls lead to without a
startup that completes on a core with waiting tasks. -/
theorem depths_accurate
    (calls : List CoreCall)
    (empty : Run.Along step (fun manager call => manager.emptied call) new calls) :
    let manager := Run.after step new calls
    manager.Accurate ∧ manager.SelectsShortest ∧ manager.StealsWaiting := by
  have accurate : (Run.after step new calls).Accurate :=
    Run.invariant nofun (fun _ call accurate empty => accurate.step call empty) empty
  exact ⟨accurate, accurate.selects, accurate.steals⟩

/-- Two cores are started, and the second gets a task. -/
theorem depths_accurate_sample :
    ((Run.after step new [.registerCore 0 .bootstrap,
      .registerCore 1 .application, .planApStartup 1, .completeApStartup 1 1,
      .enqueueCoreTask 1 Scheduler.firstObject]).stealTask 0).isSome := by
  refine (depths_accurate _ ?_).2.2 0 0 ?_ 1 _ (by decide) rfl ?_ ?_
  all_goals decide +kernel

/-- A core that got a task before its startup completes has depth 0 and a task that no other
core steals. -/
theorem depth_zero_with_waiting_task :
    let manager := Run.after step new [.registerCore 0 .bootstrap,
      .registerCore 1 .application, .enqueueCoreTask 1 Scheduler.firstObject, .planApStartup 1,
      .completeApStartup 1 1]
    (∃ core ∈ manager.cores.items, core.state = .online ∧ core.runQueueDepth = 0 ∧
      core.runQueue.items.length = 1) ∧ (manager.stealTask 0).isNone := by
  decide +kernel

end MultiCoreManager
end Cdk.Scheduling

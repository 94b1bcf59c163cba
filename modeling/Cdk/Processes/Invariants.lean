import Cdk.Processes.LifeCycle

/-!
# The process table over whole runs

At every point of a run the table is consistent and only a scheduled process that
is ready starts to run.  A process that has ended never runs again, a blocked one
runs again only after it was unblocked, and one that is not selected runs only
after a new selection.
-/

namespace Cdk.Processes
namespace ProcessTable

variable {table : ProcessTable} {op : Op} {slot : SlotId} {pid : UInt32}

def after (table : ProcessTable) (ops : List Op) : ProcessTable := Run.after step table ops

theorem after_consistent (consistent : table.Consistent) (fresh : Run.Along step Fresh table ops) :
    (table.after ops).Consistent :=
  Run.invariant consistent (fun _ _ => step_consistent) fresh

theorem reachable_consistent (fresh : Run.Along step Fresh new ops) : (new.after ops).Consistent :=
  after_consistent consistent_new fresh

theorem runnable_of_starts (consistent : table.Consistent)
    (rested : (table.slots slot).state ≠ .running)
    (runs : ((table.step op).slots slot).state = .running) :
    (table.slots slot).scheduled ∧ (table.slots slot).state = .ready := by
  have move := step_moves consistent op slot
  generalize (table.step op).slots slot = process at move runs
  cases move with
  | kept | chosen | marked => exact absurd runs rested
  | ran _ scheduled ready => exact ⟨scheduled, ready⟩
  | charged _ isCurrent | left _ isCurrent =>
    exact absurd (consistent.runs isCurrent) rested
  | created | preempted | unblocked | reaped => cases runs

/-! ## Processes at rest -/

/-- The process does not run. -/
def Rests (pid : UInt32) (table : ProcessTable) : Prop :=
  ∀ slot, (table.slots slot).pid = pid → (table.slots slot).state ≠ .running

/-- The process has exited, crashed or was killed. -/
def ProcessState.ended : ProcessState → Bool
  | .zombie | .crashed | .killed => true
  | _ => false

/-- The process, if it is still in the table, has ended. -/
def Ended (pid : UInt32) (table : ProcessTable) : Prop :=
  ∀ slot, (table.slots slot).state ≠ .free → (table.slots slot).pid = pid →
    ProcessState.ended (table.slots slot).state

/-- The process is blocked. -/
def Waits (pid : UInt32) (table : ProcessTable) : Prop :=
  ∃ slot, (table.slots slot).pid = pid ∧ (table.slots slot).state = .blocked

/-- The process is neither selected to run nor running. -/
def Unselected (pid : UInt32) (table : ProcessTable) : Prop :=
  ∀ slot, (table.slots slot).state ≠ .free → (table.slots slot).pid = pid →
    (table.slots slot).scheduled = false ∧ (table.slots slot).state ≠ .running

theorem Ended.rests (ended : table.Ended pid) : table.Rests pid := by
  intro slot isPid running
  have isEnded := ended slot (by simp [running]) isPid
  simp [running, ProcessState.ended] at isEnded

theorem Waits.rests (consistent : table.Consistent) (waits : table.Waits pid) :
    table.Rests pid := by
  intro slot isPid running
  obtain ⟨waiting, waitingPid, blocked⟩ := waits
  have same := consistent.distinct (by simp [running]) (by simp [blocked])
    (isPid.trans waitingPid.symm)
  rw [same, blocked] at running
  cases running

theorem Waits.not_current (consistent : table.Consistent) (waits : table.Waits pid) (cpu : Cpu) :
    table.current cpu ≠ some pid := by
  intro current
  obtain ⟨slot, isPid, running, _⟩ := consistent.current_runs current
  exact waits.rests consistent slot isPid running

theorem waits_of_blockCurrent (consistent : table.Consistent) (frame : TrapFrame)
    (current : table.current cpu = some pid) :
    (table.step (.blockCurrent cpu frame)).Waits pid := by
  obtain ⟨slot, rfl, running, _⟩ := consistent.current_runs current
  refine ⟨slot, ?_⟩
  rw [slots_of_leaving rfl (consistent.currentSlot_eq_some_iff.mpr ⟨running, current⟩)]
  exact ⟨rfl, rfl⟩

theorem Unselected.rests (unselected : table.Unselected pid) : table.Rests pid :=
  fun slot isPid running => (unselected slot (by simp [running]) isPid).2 running

theorem Ended.step (consistent : table.Consistent) (ended : table.Ended pid)
    (notCreated : op.created ≠ some pid) : (table.step op).Ended pid := by
  intro slot occupied isPid
  obtain ⟨before, samePid, still⟩ := (step_moves consistent op slot).same_process occupied
    (isPid ▸ notCreated) consistent
  have isEnded := ended slot before (samePid.trans isPid)
  obtain same | live := still
  · exact same ▸ isEnded
  · generalize (table.slots slot).state = state at isEnded live
    cases state <;> cases isEnded <;> cases live

theorem Waits.step (consistent : table.Consistent) (waits : table.Waits pid)
    (noUnblock : ∀ result, op ≠ .unblock pid result) : (table.step op).Waits pid := by
  obtain ⟨slot, isPid, blocked⟩ := waits
  refine ⟨slot, ?_⟩
  have move := step_moves consistent op slot
  generalize (table.step op).slots slot = process at move ⊢
  have notCurrent : ∀ cpu, table.currentSlot cpu ≠ some slot := by
    intro cpu isCurrent
    rw [consistent.runs isCurrent] at blocked
    cases blocked
  cases move with
  | kept | chosen | marked => exact ⟨isPid, blocked⟩
  | created _ free =>
    rw [free] at blocked
    cases blocked
  | ran _ _ ready =>
    rw [ready] at blocked
    cases blocked
  | charged _ isCurrent | preempted _ isCurrent | left _ isCurrent =>
    exact absurd isCurrent (notCurrent _)
  | unblocked isUnblock => exact absurd (isPid ▸ isUnblock) (noUnblock _)
  | reaped _ removable =>
    rw [blocked] at removable
    cases removable

theorem Unselected.step (consistent : table.Consistent) (unselected : table.Unselected pid)
    (noSelect : ∀ which homes, op ≠ .select which homes) : (table.step op).Unselected pid := by
  intro slot occupied isPid
  obtain ⟨_, _, _, _, -, isReady⟩ | ⟨before, samePid, -, scheduled, -⟩ :=
    (step_moves consistent op slot).created_or_survives occupied consistent
  · rw [isReady]
    exact ⟨rfl, nofun⟩
  · obtain ⟨notScheduled, rested⟩ := unselected slot before (samePid.trans isPid)
    refine ⟨(scheduled noSelect rested).symm.trans notScheduled, fun running => ?_⟩
    have starts := (runnable_of_starts consistent rested running).1
    rw [notScheduled] at starts
    cases starts

/-- A kind of rest that lasts until an operation ends it lasts over a run without
such operations. -/
theorem rest_lasts {Rest : ProcessTable → Prop} {Ends : Op → Prop}
    (kept : ∀ {table op}, table.Consistent → Rest table → ¬ Ends op → Rest (table.step op))
    (consistent : table.Consistent) (rests : Rest table) {later : List Op}
    (fresh : Run.Along step Fresh table later) (without : ∀ op ∈ later, ¬ Ends op) :
    Rest (table.after later) := by
  unfold after
  induction later generalizing table with
  | nil => exact rests
  | cons op later ih =>
    obtain ⟨freshOp, freshLater⟩ := fresh
    exact ih (step_consistent consistent freshOp)
      (kept consistent rests (without op List.mem_cons_self)) freshLater
      (fun op member => without op (List.mem_cons_of_mem _ member))

/-- The agreement between the CPUs and the slots, spelled out. -/
structure Agreement (table : ProcessTable) : Prop where
  current : ∀ cpu pid, table.current cpu = some pid → ∃ slot, (table.slots slot).state = .running ∧
      (table.slots slot).home.toNat = cpu.val ∧
      ∀ other, (table.slots other).state ≠ .free ∧ (table.slots other).pid = pid ↔ other = slot
  running : ∀ slot, (table.slots slot).state = .running →
    ∃! cpu, table.current cpu = some (table.slots slot).pid
  distinct : ∀ left right, (table.slots left).state ≠ .free → (table.slots right).state ≠ .free →
      (table.slots left).pid = (table.slots right).pid → left = right

theorem Consistent.agreement (consistent : table.Consistent) : table.Agreement where
  current cpu pid current := by
    obtain ⟨slot, rfl, running, home⟩ := consistent.current_runs current
    refine ⟨slot, running, ?_, fun other => ⟨?_, ?_⟩⟩
    · rw [home]
      exact toNat_ofNat_cpu cpu
    · rintro ⟨occupied, samePid⟩
      exact consistent.distinct occupied (by simp [running]) samePid
    · rintro rfl
      exact ⟨by simp [running], rfl⟩
  running slot running := by
    obtain ⟨cpu, current⟩ := consistent.running_is_current running
    exact ⟨cpu, current, fun other onOther => consistent.cpu_unique onOther current⟩
  distinct _ _ := consistent.distinct

/-- Every run keeps the table consistent, and a process at rest stays so until
the operation that wakes it. -/
theorem table_always_consistent
    (ops : List Op)
    (fresh : Run.Along step Fresh new ops) :
    (new.after ops).Agreement ∧ (∀ op slot, ((new.after ops).slots slot).state ≠ .running →
        (((new.after ops).step op).slots slot).state = .running →
          ((new.after ops).slots slot).scheduled ∧
            ((new.after ops).slots slot).state = .ready) ∧
      ∀ pid later, Run.Along step Fresh (new.after ops) later →
        ((new.after ops).Ended pid → (∀ op ∈ later, op.created ≠ some pid) →
          ((new.after ops).after later).Rests pid) ∧
        ((new.after ops).Waits pid → (∀ op ∈ later, ∀ result, op ≠ .unblock pid result) →
          ((new.after ops).after later).Rests pid) ∧
        ((new.after ops).Unselected pid → (∀ op ∈ later, ∀ which homes, op ≠ .select which homes) →
          ((new.after ops).after later).Rests pid) := by
  have consistent := reachable_consistent fresh
  refine ⟨consistent.agreement, fun op slot => runnable_of_starts consistent, ?_⟩
  intro pid later freshLater
  refine ⟨fun ended without => ?_, fun waits without => ?_, fun unselected without => ?_⟩
  · exact (rest_lasts Ended.step consistent ended freshLater without).rests
  · apply Waits.rests (after_consistent consistent freshLater)
    apply @rest_lasts _ (Waits pid) (fun op => ∃ result, op = .unblock pid result) _ consistent
      waits _ freshLater
    · intro op member ⟨result, isUnblock⟩
      exact without op member result isUnblock
    · intro table op consistent waits noUnblock
      exact waits.step consistent fun result isUnblock => noUnblock ⟨result, isUnblock⟩
  · apply Unselected.rests
    apply @rest_lasts _ (Unselected pid) (fun op => ∃ which homes, op = .select which homes) _
      consistent unselected _ freshLater
    · intro op member ⟨which, homes, isSelect⟩
      exact without op member which homes isSelect
    · intro table op consistent unselected noSelect
      exact unselected.step consistent fun which homes isSelect =>
        noSelect ⟨which, homes, isSelect⟩

/-- Two processes run on two CPUs, and the first one exits. -/
def twoRunning : List Op :=
  [.insert 7 0x1000 0x2000 0x3000, .insert 8 0x1000 0x2000 0x4000, .select .allReady [1, 2],
    .dispatchNext 1, .dispatchNext 2, .exitCurrent 1 19]

/-- The second process still runs; the first one stays at rest. -/
theorem table_always_consistent_sample :
    Run.Along step Fresh new twoRunning ∧
      ((new.after twoRunning).slots 1).state = .running ∧
      (new.after twoRunning).Agreement ∧
      ((new.after twoRunning).after [.select .allReady [1], .dispatchNext 1]).Rests 7 := by
  obtain ⟨agreement, _, rest⟩ := table_always_consistent twoRunning (by decide +kernel)
  have ended : (new.after twoRunning).Ended 7 := by
    unfold Ended
    decide +kernel
  exact ⟨by decide +kernel, by decide +kernel, agreement,
    (rest 7 [.select .allReady [1], .dispatchNext 1] (by decide +kernel)).1 ended (by decide)⟩

end ProcessTable
end Cdk.Processes

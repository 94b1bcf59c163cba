import Cdk.Processes.Turns
import Mathlib.Tactic.Ring

/-!
# The CPU budget of a process

Every tick of ring-3 time is charged to the process that ran, wherever it runs.
The counter is a 64-bit word, so it is the number of ticks as long as that number
is below 2⁶⁴.  A process is killed by the first tick over its budget, unless the
budget is the greatest word: no counter is greater than that.
-/

namespace Cdk.Processes
namespace ProcessTable

variable {table : ProcessTable} {op : Op} {cpu : Cpu} {slot : SlotId} {pid : UInt32}

/-! ## Charges -/

def charged (table : ProcessTable) : Op → Option UInt32
  | .tick cpu _ _ _ => (table.currentSlot cpu).map fun slot => (table.slots slot).pid
  | _ => none

/-- The process that a tick kills. -/
def killed (table : ProcessTable) : Op → Option UInt32
  | .tick cpu frame slice budget =>
    match (table.tick cpu frame slice budget).2.2 with
    | .kill pid _ => some pid
    | _ => none
  | _ => none

/-- The life of a process: the ticks it was charged until it was to be killed. -/
structure Life where
  charges : Nat
  killed : Bool
  deriving DecidableEq

def Life.new : Life where
  charges := 0
  killed := false

/-- Count a charge. -/
def Life.step (pid : UInt32) (table : ProcessTable) (life : Life) (op : Op) : Life :=
  if op.created = some pid then .new
  else if life.killed ∨ table.charged op ≠ some pid then life
  else { charges := life.charges + 1, killed := table.killed op = some pid }

def lifeAfter (pid : UInt32) (table : ProcessTable) (life : Life) : List Op → Life
  | [] => life
  | op :: rest => (table.step op).lifeAfter pid (life.step pid table op) rest

/-- A tick is made with this budget. -/
def Op.HasBudget (budget : UInt64) : Op → Prop
  | .tick _ _ _ given => given = budget
  | _ => True

theorem ticksUsed_charge : ((table.charge cpu running).slots slot).ticksUsed =
    if running = slot then (table.slots slot).ticksUsed + 1
    else (table.slots slot).ticksUsed := by
  split_ifs with isSlot
  · subst running
    rw [charge_slots_self]
    rfl
  · rw [charge_slots_of_ne (Ne.symm isSlot)]

theorem ticksUsed_switchTo (frame : TrapFrame) :
    ((table.switchTo cpu old next frame).slots slot).ticksUsed = (table.slots slot).ticksUsed := by
  have saved : ((table.modify old (Process.preempted frame)).slots slot).ticksUsed =
      (table.slots slot).ticksUsed := by
    by_cases isOld : slot = old
    · subst slot
      rw [modify_slots_self]
      rfl
    · rw [modify_slots_of_ne isOld]
  unfold switchTo
  by_cases isNext : slot = next
  · subst slot
    rw [runSlot_slots_self]
    exact saved
  · rw [runSlot_slots_of_ne isNext]
    exact saved

theorem ticksUsed_tick (frame : TrapFrame) (slice budget : UInt64) :
    ((table.tick cpu frame slice budget).1.slots slot).ticksUsed =
      if table.currentSlot cpu = some slot then (table.slots slot).ticksUsed + 1
      else (table.slots slot).ticksUsed := by
  have outcome := table.tick_cases cpu frame slice budget
  generalize table.tick cpu frame slice budget = result at outcome ⊢
  cases outcome with
  | idle noSlot => simp [noSlot]
  | kill isCurrent | stay _ isCurrent => simp [isCurrent, ticksUsed_charge]
  | switch isCurrent _ _ isSwitched =>
    simp [isSwitched, ticksUsed_switchTo, isCurrent, ticksUsed_charge]

theorem charged_eq_some_iff (consistent : table.Consistent)
    (occupied : (table.slots slot).state ≠ .free) :
    table.charged (.tick cpu frame slice budget) = some (table.slots slot).pid ↔
      table.currentSlot cpu = some slot := by
  simp only [charged, Option.map_eq_some_iff]
  constructor
  · rintro ⟨current, isCurrent, samePid⟩
    have running := consistent.runs isCurrent
    rwa [consistent.distinct (by simp [running]) occupied samePid] at isCurrent
  · intro isCurrent
    exact ⟨slot, isCurrent, rfl⟩

theorem ticksUsed_step (consistent : table.Consistent)
    (occupied : ((table.step op).slots slot).state ≠ .free)
    (notCreated : op.created ≠ some ((table.step op).slots slot).pid) :
    ((table.step op).slots slot).ticksUsed =
      if table.charged op = some (table.slots slot).pid then (table.slots slot).ticksUsed + 1
      else (table.slots slot).ticksUsed := by
  have move := step_moves consistent op slot
  obtain ⟨before, _⟩ := move.same_process occupied notCreated consistent
  cases op with
  | tick cpu frame slice budget =>
    simp only [charged_eq_some_iff consistent before]
    exact ticksUsed_tick frame slice budget
  | _ =>
    generalize ProcessTable.slots _ slot = process at move occupied notCreated ⊢
    cases move with
    | kept | chosen | ran | marked | unblocked => rfl
    | created isInsert =>
      rw [isInsert] at notCreated
      exact absurd rfl notCreated
    | charged isTick | preempted isTick => cases isTick
    | left leaving => exact (Op.leaving_spec leaving _).2.1
    | reaped => exact absurd rfl occupied

/-! ## The budget -/

/-- The tick that goes over the budget says that the process is to be killed. -/
theorem killed_tick (isCurrent : table.currentSlot cpu = some slot) (frame : TrapFrame)
    (slice budget : UInt64) : table.killed (.tick cpu frame slice budget) =
      if budget < (table.slots slot).ticksUsed + 1 then some (table.slots slot).pid else none := by
  have outcome := table.tick_cases cpu frame slice budget
  simp only [killed]
  generalize table.tick cpu frame slice budget = result at outcome ⊢
  cases outcome with
  | idle noSlot =>
    rw [isCurrent] at noSlot
    cases noSlot
  | kill isOther exceeded =>
    obtain rfl := Option.some.inj (isCurrent.symm.trans isOther)
    exact (if_pos exceeded).symm
  | stay _ isOther within | switch isOther within =>
    obtain rfl := Option.some.inj (isCurrent.symm.trans isOther)
    exact (if_neg within).symm

/-- A process that is not to be killed is within its budget, and its counter is
the number of ticks it was charged. -/
structure Within (pid : UInt32) (budget : UInt64) (table : ProcessTable) (life : Life) : Prop where
  bounded : life.charges ≤ budget.toNat + 1
  counted : life.killed = false → life.charges ≤ budget.toNat ∧
    ∀ slot, (table.slots slot).state ≠ .free → (table.slots slot).pid = pid →
      (table.slots slot).ticksUsed.toNat = life.charges

theorem within_new (pid : UInt32) (budget : UInt64) : Within pid budget new .new where
  bounded := Nat.zero_le _
  counted _ := ⟨Nat.zero_le _, fun _ occupied => absurd rfl occupied⟩

theorem toNat_add_one {word bound : UInt64} (notMax : bound.toNat + 1 < 2 ^ 64)
    (atMost : word.toNat ≤ bound.toNat) : (word + 1).toNat = word.toNat + 1 := by
  rw [UInt64.toNat_add, Nat.mod_eq_of_lt]
  · rfl
  · exact Nat.lt_of_le_of_lt (Nat.add_le_add_right atMost 1) notMax

/-- A process that is created starts a new life. -/
theorem within_created (consistent : table.Consistent) (fresh : table.Fresh op)
    (created : op.created = some pid) (budget : UInt64) :
    Within pid budget (table.step op) .new where
  bounded := Nat.zero_le _
  counted _ := by
    refine ⟨Nat.zero_le _, fun slot occupied isPid => ?_⟩
    have absent := find_eq_none_iff.mp (fresh pid created)
    cases op with
    | insert inserted entry stackTop pml4Phys =>
      rcases slots_insert consistent inserted entry stackTop pml4Phys slot with
        isKept | ⟨_, isNew⟩
      · rw [isKept] at occupied isPid
        exact absurd isPid (absent slot occupied)
      · rw [isNew]
        rfl
    | _ => cases created

theorem within_step (notMax : budget.toNat + 1 < 2 ^ 64) (consistent : table.Consistent)
    (fresh : table.Fresh op) (hasBudget : op.HasBudget budget)
    (within : Within pid budget table life) :
    Within pid budget (table.step op) (life.step pid table op) := by
  unfold Life.step
  split_ifs with created untouched
  · exact within_created consistent fresh created budget
  · refine ⟨within.bounded, fun alive => ?_⟩
    obtain ⟨bounded, counted⟩ := within.counted alive
    refine ⟨bounded, fun slot occupied isPid => ?_⟩
    obtain ⟨before, samePid, -⟩ := (step_moves consistent op slot).same_process occupied
      (isPid ▸ created) consistent
    have notCharged : table.charged op ≠ some (table.slots slot).pid := by
      rw [samePid, isPid]
      exact untouched.resolve_left (by simp [alive])
    rw [ticksUsed_step consistent occupied (isPid ▸ created), if_neg notCharged]
    exact counted slot before (samePid.trans isPid)
  · rw [not_or, not_not, Bool.not_eq_true] at untouched
    obtain ⟨alive, isCharged⟩ := untouched
    obtain ⟨bounded, counted⟩ := within.counted alive
    refine ⟨Nat.add_le_add_right bounded 1, fun stillAlive => ?_⟩
    cases op with
    | tick cpu frame slice given =>
      obtain rfl : given = budget := hasBudget
      obtain ⟨running, isCurrent, isPid⟩ := Option.map_eq_some_iff.mp isCharged
      have isRunning := consistent.runs isCurrent
      have isCounted := counted running (by simp [isRunning]) isPid
      have next := toNat_add_one notMax (isCounted.trans_le bounded)
      have notOver : ¬ given < (table.slots running).ticksUsed + 1 := by
        intro exceeded
        simp [killed_tick isCurrent, exceeded, isPid] at stillAlive
      constructor
      · rw [UInt64.lt_iff_toNat_lt, next, isCounted] at notOver
        exact Nat.not_lt.mp notOver
      intro slot occupied samePid
      obtain ⟨before, keptPid, -⟩ := (step_moves consistent _ slot).same_process occupied
        (samePid ▸ created) consistent
      have sameSlot : slot = running := consistent.distinct before (by simp [isRunning])
        (keptPid.trans (samePid.trans isPid.symm))
      subst slot
      rw [ticksUsed_step consistent occupied (samePid ▸ created), keptPid, samePid,
        if_pos isCharged, next, isCounted]
    | _ => cases isCharged

theorem within_after (notMax : budget.toNat + 1 < 2 ^ 64) (consistent : table.Consistent)
    (fresh : Run.Along step Fresh table ops) (hasBudget : ∀ op ∈ ops, op.HasBudget budget)
    (within : Within pid budget table life) :
    Within pid budget (table.after ops) (table.lifeAfter pid life ops) := by
  induction ops generalizing table life with
  | nil => exact within
  | cons op rest ih =>
    obtain ⟨freshOp, freshRest⟩ := fresh
    exact ih (step_consistent consistent freshOp) freshRest
      (fun op member => hasBudget op (List.mem_cons_of_mem _ member))
      (within_step notMax consistent freshOp (hasBudget op List.mem_cons_self) within)

/-! ## A budget that is never exceeded -/

def maxBudget : UInt64 := 0xffffffffffffffff

theorem not_maxBudget_lt (word : UInt64) : ¬ maxBudget < word := by
  rw [UInt64.lt_iff_toNat_lt]
  have bound := word.toNat_lt
  change ¬ 2 ^ 64 - 1 < word.toNat
  omega

theorem toNat_add_one_lt_iff : budget.toNat + 1 < 2 ^ 64 ↔ budget ≠ maxBudget := by
  rw [Ne, ← UInt64.toNat_inj]
  have bound := budget.toNat_lt
  change _ ↔ ¬ budget.toNat = 2 ^ 64 - 1
  omega

/-- Process 1 runs alone on the first CPU. -/
def loneProcess : List Op :=
  [.insert 1 0x1000 0x2000 0x3000, .select .allReady [0], .dispatchNext 0]

def loneTick : Op := .tick 0 (.userEntry 0x1000 0x2000) 1 maxBudget

/-- Process 1 runs on CPU 0, and no other can run. -/
structure Alone (table : ProcessTable) : Prop where
  isCurrent : table.currentSlot 0 = some 0
  isPid : (table.slots 0).pid = 1
  others : ∀ slot, table.runnable slot = false

theorem alone_loneProcess : (new.after loneProcess).Alone where
  isCurrent := by decide +kernel
  isPid := by decide +kernel
  others := by decide +kernel

theorem runnable_charge : (table.charge cpu running).runnable slot = table.runnable slot := by
  unfold runnable
  by_cases isSlot : slot = running
  · subst slot
    rw [charge_slots_self]
    rfl
  · rw [charge_slots_of_ne isSlot]

theorem Alone.step (alone : table.Alone) : (table.step loneTick).Alone := by
  simp only [ProcessTable.step, loneTick]
  have outcome := table.tick_cases 0 (.userEntry 0x1000 0x2000) 1 maxBudget
  generalize table.tick 0 (.userEntry 0x1000 0x2000) 1 maxBudget = result at outcome ⊢
  cases outcome with
  | idle => exact alone
  | kill _ exceeded => exact absurd exceeded (not_maxBudget_lt _)
  | @stay slot sliceUsed isCurrent =>
    obtain rfl := Option.some.inj (alone.isCurrent.symm.trans isCurrent)
    constructor
    · rw [currentSlot_charge]
      exact isCurrent
    · change ((table.charge 0 0).slots 0).pid = 1
      rw [charge_slots_self]
      exact alone.isPid
    · intro slot
      change (table.charge 0 0).runnable slot = false
      rw [runnable_charge]
      exact alone.others slot
  | @switch slot next _ _ _ runs =>
    obtain ⟨scheduled, ready⟩ := runnable_of_nextRunnable runs
    have runs : (table.charge 0 slot).runnable next := by
      simp [runnable, scheduled, ready]
    rw [runnable_charge, alone.others] at runs
    cases runs

theorem Alone.life_step (alone : table.Alone) (charges : Nat) :
    Life.step 1 table { charges := charges, killed := false } loneTick =
      { charges := charges + 1, killed := false } := by
  have isCharged : table.charged loneTick = some 1 := by
    simp [charged, loneTick, alone.isCurrent, alone.isPid]
  have notKilled : table.killed loneTick = none := by
    rw [loneTick, killed_tick alone.isCurrent, if_neg (not_maxBudget_lt _)]
  have notCreated : loneTick.created = none := rfl
  simp [Life.step, isCharged, notKilled, notCreated]

theorem Alone.lifeAfter (alone : table.Alone) (charges count : Nat) :
    table.lifeAfter 1 { charges := charges, killed := false }
      (List.replicate count loneTick) = { charges := charges + count, killed := false } := by
  induction count generalizing table charges with
  | zero => rfl
  | succ count ih =>
    rw [List.replicate_succ, ProcessTable.lifeAfter, alone.life_step, ih alone.step]
    congr 1
    omega

theorem lifeAfter_append (life : Life) (early late : List Op) :
    table.lifeAfter pid life (early ++ late) =
      (table.after early).lifeAfter pid (table.lifeAfter pid life early) late := by
  induction early generalizing table life with
  | nil => rfl
  | cons op rest ih => exact ih _

def loneRun (count : Nat) : List Op := loneProcess ++ List.replicate count loneTick

theorem lifeAfter_loneRun (count : Nat) :
    new.lifeAfter 1 .new (loneRun count) = { charges := count, killed := false } := by
  have early : new.lifeAfter 1 .new loneProcess = { charges := 0, killed := false } := by
    decide +kernel
  rw [loneRun, lifeAfter_append, early, alone_loneProcess.lifeAfter, Nat.zero_add]

theorem loneRun_fresh (count : Nat) : Run.Along step Fresh new (loneRun count) := by
  rw [loneRun, Run.along_append]
  constructor
  · decide +kernel
  generalize Run.after step new loneProcess = table
  induction count generalizing table with
  | zero => trivial
  | succ count ih =>
    exact ⟨nofun, ih _⟩

theorem loneRun_hasBudget (count : Nat) : ∀ op ∈ loneRun count, op.HasBudget maxBudget := by
  intro op member
  rcases List.mem_append.mp member with early | late
  · simp only [loneProcess, List.mem_cons, List.not_mem_nil, or_false] at early
    rcases early with rfl | rfl | rfl <;> trivial
  · rw [List.eq_of_mem_replicate late]
    rfl

/-- No process is charged more than its budget and one tick, unless the budget is
the greatest word, and no process in the queue of a CPU waits for more turns of it
than there are slots. -/
theorem budget_kept_iff_and_no_starvation
    (budget : UInt64) :
    ((∀ ops, Run.Along step Fresh new ops → (∀ op ∈ ops, op.HasBudget budget) →
      ∀ pid, (new.lifeAfter pid .new ops).charges ≤ budget.toNat + 1) ↔ budget ≠ maxBudget) ∧
      ∀ ops later cpu slot, Run.Along step Fresh new ops →
        Run.Along step Fresh (new.after ops) later → (new.after ops).Queued cpu slot →
        StaysUntilRun cpu slot (new.after ops) later →
        maxProcesses ≤ (new.after ops).turns cpu later → ∃ early late, later = early ++ late ∧
            (new.after ops).turns cpu early ≤ maxProcesses ∧
            (((new.after ops).after early).slots slot).state = .running := by
  refine ⟨⟨?_, ?_⟩, ?_⟩
  · rintro kept rfl
    have charges := kept (loneRun (2 ^ 64 + 1)) (loneRun_fresh _) (loneRun_hasBudget _) 1
    rw [lifeAfter_loneRun] at charges
    change 2 ^ 64 + 1 ≤ 2 ^ 64 - 1 + 1 at charges
    omega
  · intro notMax ops fresh hasBudget pid
    exact (within_after (toNat_add_one_lt_iff.mpr notMax) consistent_new fresh hasBudget
      (within_new pid budget)).bounded
  · intro ops later cpu slot fresh freshLater queued stays enough
    exact runs_within_turns (reachable_consistent fresh) queued freshLater stays enough

/-- Process 8 waits for CPU 1, which runs process 7. -/
def waitingRun : List Op :=
  [.insert 7 0x1000 0x2000 0x3000, .insert 8 0x1000 0x2000 0x4000, .select .allReady [1],
    .dispatchNext 1]

/-- Turns of CPU 1, as many as there are slots. -/
def turnsOfOne : List Op :=
  List.replicate maxProcesses (.tick 1 (.userEntry 0x1000 0x2000) 1 5)

/-- A process with a budget of five ticks is charged at most six; one that waits
for CPU 1 is run within eight turns. -/
theorem budget_kept_iff_and_no_starvation_sample :
    (new.lifeAfter 7 .new (waitingRun ++ turnsOfOne)).charges ≤ 6 ∧
      ∃ early late, turnsOfOne = early ++ late ∧
        (new.after waitingRun).turns 1 early ≤ maxProcesses ∧
        (((new.after waitingRun).after early).slots 1).state = .running := by
  obtain ⟨bounded, served⟩ := budget_kept_iff_and_no_starvation 5
  constructor
  · refine bounded.mpr (by decide) _ (by decide +kernel) ?_ 7
    simp [waitingRun, turnsOfOne, Op.HasBudget]
  · refine served waitingRun turnsOfOne 1 1 (by decide +kernel) (by decide +kernel)
      ⟨by decide +kernel, by decide +kernel, by decide +kernel⟩ ?_ (by decide +kernel)
    -- the first turn is already that of the waiting process
    have first : turnsOfOne = .tick 1 (.userEntry 0x1000 0x2000) 1 5 :: turnsOfOne.tail := rfl
    rintro (_ | ⟨before, early⟩) op late isRun through
    · obtain ⟨rfl, -⟩ := List.cons.inj (first.symm.trans isRun)
      exact .inr (by decide +kernel)
    · obtain ⟨rfl, -⟩ := List.cons.inj (first.symm.trans isRun)
      have queued := (through [.tick 1 (.userEntry 0x1000 0x2000) 1 5] (by simp)).ready
      exact absurd queued (by decide +kernel)

/-- With the greatest budget a process is charged 2⁶⁴ + 1 ticks and is still not to
be killed. -/
theorem greatest_budget_never_exceeded : Run.Along step Fresh new (loneRun (2 ^ 64 + 1)) ∧
    (∀ op ∈ loneRun (2 ^ 64 + 1), op.HasBudget maxBudget) ∧
    new.lifeAfter 1 .new (loneRun (2 ^ 64 + 1)) =
      { charges := maxBudget.toNat + 2, killed := false } :=
  ⟨loneRun_fresh _, loneRun_hasBudget _, lifeAfter_loneRun _⟩

end ProcessTable
end Cdk.Processes

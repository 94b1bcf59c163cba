import Cdk.Processes.Consistent

/-!
# The life cycle of a process

Every operation does one of a few things to the table.  From the side of one
slot, what it does is a move of the life cycle: a process is created, selected,
run, charged, preempted, blocked, released, ended and removed, and nothing else
ever happens to it.
-/

namespace Cdk.Processes
namespace ProcessTable

variable {table : ProcessTable} {op : Op} {cpu : Cpu} {slot : SlotId} {pid : UInt32}

/-! ## What an operation does -/

section

variable (table cpu) (frame : TrapFrame) (budget : UInt64)

/-- The outcomes of a tick. -/
inductive TickCase : ProcessTable × TrapFrame × TickAction → Prop
  | idle (noSlot : table.currentSlot cpu = none) : TickCase (table, frame, .continue)
  | kill {slot : SlotId} (isCurrent : table.currentSlot cpu = some slot)
      (exceeded : budget < (table.slots slot).ticksUsed + 1) :
      TickCase (table.charge cpu slot, frame,
          .kill (table.slots slot).pid ((table.slots slot).ticksUsed + 1))
  | stay {slot : SlotId} (sliceUsed : Cpu → UInt64) (isCurrent : table.currentSlot cpu = some slot)
      (within : ¬ budget < (table.slots slot).ticksUsed + 1) :
      TickCase
        ({ table.charge cpu slot with sliceUsed := sliceUsed }, frame, .continue)
  | switch {slot next : SlotId} {switched : ProcessTable}
      (isCurrent : table.currentSlot cpu = some slot)
      (within : ¬ budget < (table.slots slot).ticksUsed + 1)
      (runs : (table.charge cpu slot).nextRunnable cpu = some next)
      (isSwitched : switched = ((table.charge cpu slot).renew cpu).switchTo cpu slot next frame) :
      TickCase (switched, resumedFrame (switched.slots next).frame frame,
          .switch (switched.slots next).pml4Phys slot next)

end

@[simp] theorem charge_slots_self :
    (table.charge cpu slot).slots slot = (table.slots slot).charged :=
  Function.update_self ..

theorem charge_slots_of_ne (different : other ≠ slot) :
    (table.charge cpu slot).slots other = table.slots other :=
  Function.update_of_ne different ..

theorem tick_cases (table : ProcessTable) (cpu : Cpu) (frame : TrapFrame) (slice budget : UInt64) :
    TickCase table cpu frame budget (table.tick cpu frame slice budget) := by
  unfold tick
  cases current : table.current cpu with
  | none => exact .idle (by simp [currentSlot, current])
  | some pid =>
    simp only
    cases found : table.find pid with
    | none => exact .idle (by simp [currentSlot, current, found])
    | some slot =>
      have isCurrent : table.currentSlot cpu = some slot := by
        simp [currentSlot, current, found]
      simp only [charge_slots_self]
      split_ifs with exceeded early
      · rw [← (of_find_eq_some found).2]
        exact .kill isCurrent exceeded
      · exact .stay _ isCurrent exceeded
      · cases runs : ((table.charge cpu slot).renew cpu).nextRunnable cpu with
        | none => exact .stay _ isCurrent exceeded
        | some next => exact .switch isCurrent exceeded runs rfl

/-- What happens to the registers of a process. -/
inductive FrameEvent
  | created (pid : UInt32) (frame : TrapFrame)
  | left (pid : UInt32) (frame : TrapFrame)
  | answered (pid : UInt32) (result : UInt64)
  | dispatched (pid : UInt32) (frame : TrapFrame)
  | switched (pid : UInt32) (interrupted frame : TrapFrame)
  deriving DecidableEq

/-- What an operation does to registers, as its arguments and its results say. -/
def events (table : ProcessTable) : Op → List FrameEvent
  | .insert pid entry stackTop pml4Phys =>
    match (table.insert pid entry stackTop pml4Phys).2 with
    | .ok _ => [.created pid (.userEntry entry stackTop)]
    | .error _ => []
  | .dispatchNext cpu =>
    match (table.dispatchNext cpu).2 with
    | some process => [.dispatched process.pid process.frame]
    | none => []
  | .tick cpu frame slice budget =>
    match (table.tick cpu frame slice budget).2 with
    | (received, .switch _ old next) =>
      [.left (table.slots old).pid frame, .switched (table.slots next).pid frame received]
    | _ => []
  | .blockCurrent cpu frame =>
    match (table.blockCurrent cpu frame).2 with
    | some pid => [.left pid frame]
    | none => []
  | .unblock pid result =>
    match (table.unblock pid result).2 with
    | true => [.answered pid result]
    | false => []
  | _ => []

/-- The frame that an operation takes from the process it stops. -/
def Op.saved : Op → Option TrapFrame
  | .blockCurrent _ frame => some frame
  | _ => none

variable (table)

/-- What an operation does to the table and to registers. -/
inductive Change : Op → ProcessTable → List FrameEvent → Prop
  | unchanged {op : Op} : Change op table []
  | inserted {pid : UInt32} {entry stackTop pml4Phys : UInt64} {slot : SlotId}
      (free : (table.slots slot).state = .free) :
      Change (.insert pid entry stackTop pml4Phys)
        (table.modify slot fun _ => .ready pid entry stackTop pml4Phys)
        [.created pid (.userEntry entry stackTop)]
  | selected {which : Select} {homes : List Nat} {next : ProcessTable}
      (changed : ∀ slot, ∃ home, next.slots slot =
        { table.slots slot with
          scheduled := Select.takes which (table.slots slot), home := home } ∧
        ((table.slots slot).state ≠ .ready → home = (table.slots slot).home))
      (sameCurrent : next.current = table.current) (sameCursor : next.cursor = table.cursor) :
      Change (.select which homes) next []
  | dispatched {cpu : Cpu} {slot : SlotId} (idle : table.current cpu = none)
      (runs : table.nextRunnable cpu = some slot) :
      Change (.dispatchNext cpu) (table.runSlot cpu slot)
        [.dispatched (table.slots slot).pid (table.slots slot).frame]
  | marked {pid : UInt32} {slot : SlotId} (found : table.find pid = some slot) :
      Change (.markStarted pid) (table.modify slot Process.marked) []
  | charged {cpu : Cpu} {frame : TrapFrame} {slice budget : UInt64} {slot : SlotId}
      (sliceUsed : Cpu → UInt64) (isCurrent : table.currentSlot cpu = some slot) :
      Change (.tick cpu frame slice budget)
        { table.charge cpu slot with sliceUsed := sliceUsed } []
  | switched {cpu : Cpu} {frame : TrapFrame} {slice budget : UInt64} {slot next : SlotId}
      {switched : ProcessTable} (isCurrent : table.currentSlot cpu = some slot)
      (runs : (table.charge cpu slot).nextRunnable cpu = some next)
      (isSwitched : switched = ((table.charge cpu slot).renew cpu).switchTo cpu slot next frame) :
      Change (.tick cpu frame slice budget) switched [.left (table.slots slot).pid frame,
          .switched (table.slots next).pid frame (resumedFrame (switched.slots next).frame frame)]
  | left {op : Op} {cpu : Cpu} {slot : SlotId} {update : Process → Process}
      (leaving : op.leaving = some (cpu, update)) (isCurrent : table.currentSlot cpu = some slot) :
      Change op ((table.setCurrent cpu none).modify slot update)
        (op.saved.toList.map (.left (table.slots slot).pid))
  | orphaned {op : Op} {cpu : Cpu} {pid : UInt32} (frames : List FrameEvent)
      (current : table.current cpu = some pid) (notFound : table.find pid = none) :
      Change op (table.setCurrent cpu none) frames
  | unblocked {pid : UInt32} {result : UInt64} {slot : SlotId} (found : table.find pid = some slot)
      (blocked : (table.slots slot).state = .blocked) :
      Change (.unblock pid result)
        (table.modify slot (Process.answered result)) [.answered pid result]
  | reaped {pid : UInt32} {slot : SlotId} (found : table.find pid = some slot)
      (removable : reapable (table.slots slot).state) :
      Change (.takeForReap pid) (table.modify slot fun _ => .freeSlot) []

variable {table}

/-! ### Selection -/

section Selection

variable {which : Select} {homes : List Nat}

theorem state_of_takes (taken : Select.takes which process) : process.state = .ready := by
  simp only [Select.takes, Bool.and_eq_true, beq_iff_eq] at taken
  exact taken.1

theorem selectSlot_slots_self (selected : ProcessTable × List UInt32) (slot : SlotId) :
    ∃ home, (selectSlot which homes selected slot).1.slots slot = { selected.1.slots slot with
          scheduled := Select.takes which (selected.1.slots slot), home := home } ∧
      ((selected.1.slots slot).state ≠ .ready → home = (selected.1.slots slot).home) := by
  unfold selectSlot
  simp only
  split_ifs with taken
  · rw [modify_slots_self, taken]
    exact ⟨_, rfl, fun notReady => absurd (state_of_takes taken) notReady⟩
  · refine ⟨(selected.1.slots slot).home, ?_, fun _ => rfl⟩
    rw [modify_slots_self, Bool.eq_false_iff.mpr taken]

theorem selectSlot_slots_of_ne (different : other ≠ slot) :
    (selectSlot which homes selected slot).1.slots other = selected.1.slots other := by
  unfold selectSlot
  simp only
  split_ifs <;> rw [modify_slots_of_ne different]

theorem selectSlot_rest (selected : ProcessTable × List UInt32) (slot : SlotId) :
    (selectSlot which homes selected slot).1.current = selected.1.current ∧
      (selectSlot which homes selected slot).1.cursor = selected.1.cursor := by
  unfold selectSlot
  simp only
  split_ifs <;> exact ⟨rfl, rfl⟩

theorem foldl_selectSlot_rest (order : List SlotId) (selected : ProcessTable × List UInt32) :
    (order.foldl (selectSlot which homes) selected).1.current = selected.1.current ∧
      (order.foldl (selectSlot which homes) selected).1.cursor = selected.1.cursor := by
  induction order generalizing selected with
  | nil => exact ⟨rfl, rfl⟩
  | cons slot rest ih =>
    rw [List.foldl_cons, (ih _).1, (ih _).2]
    exact selectSlot_rest selected slot

theorem foldl_selectSlot_of_notMem {order : List SlotId} (absent : other ∉ order)
    (selected : ProcessTable × List UInt32) :
    (order.foldl (selectSlot which homes) selected).1.slots other = selected.1.slots other := by
  induction order generalizing selected with
  | nil => rfl
  | cons slot rest ih =>
    rw [List.foldl_cons, ih (List.not_mem_of_not_mem_cons absent)]
    exact selectSlot_slots_of_ne (List.ne_of_not_mem_cons absent)

theorem foldl_selectSlot_of_mem {order : List SlotId} (nodup : order.Nodup) {slot : SlotId}
    (present : slot ∈ order) (selected : ProcessTable × List UInt32) :
    ∃ home, (order.foldl (selectSlot which homes) selected).1.slots slot =
        { selected.1.slots slot with
          scheduled := Select.takes which (selected.1.slots slot), home := home } ∧
      ((selected.1.slots slot).state ≠ .ready → home = (selected.1.slots slot).home) := by
  induction order generalizing selected with
  | nil => cases present
  | cons first rest ih =>
    rw [List.nodup_cons] at nodup
    rw [List.foldl_cons]
    by_cases isFirst : slot = first
    · subst slot
      rw [foldl_selectSlot_of_notMem nodup.1]
      exact selectSlot_slots_self selected first
    · have later := (List.mem_cons.mp present).resolve_left isFirst
      have visited := ih nodup.2 later (selectSlot which homes selected first)
      rwa [selectSlot_slots_of_ne isFirst] at visited

theorem select_change (table : ProcessTable) :
    Change table (.select which homes) (table.select which homes).1 [] := by
  unfold select
  cases table.selectError which with
  | some error => exact .unchanged
  | none =>
    have visited := fun slot : SlotId =>
      @foldl_selectSlot_of_mem which homes _ (List.nodup_finRange maxProcesses) slot
        (List.mem_finRange slot) (table, [])
    have rest := @foldl_selectSlot_rest which homes (List.finRange maxProcesses) (table, [])
    generalize (List.finRange maxProcesses).foldl (selectSlot which homes) (table, []) =
      selected at visited rest ⊢
    exact .selected visited rest.1 rest.2

end Selection

section

variable (leaving : op.leaving = some (cpu, update))
include leaving

theorem Op.leaving_spec (process : Process) :
    (update process).pid = process.pid ∧ (update process).ticksUsed = process.ticksUsed ∧
      (update process).state ≠ .running ∧ (update process).pml4Phys = process.pml4Phys := by
  cases op <;> simp only [Op.leaving, Option.some.injEq, Prod.mk.injEq, reduceCtorEq] at leaving
  all_goals
    obtain ⟨_, rfl⟩ := leaving
    simp

theorem step_of_leaving : table.step op = (table.leaveCurrent cpu update).1 := by
  cases op <;> simp only [Op.leaving, Option.some.injEq, Prod.mk.injEq, reduceCtorEq] at leaving
  all_goals
    obtain ⟨rfl, rfl⟩ := leaving
    rfl

theorem events_of_leaving : table.events op =
    (table.leaveCurrent cpu update).2.toList.flatMap fun pid =>
      op.saved.toList.map (.left pid) := by
  cases op with
  | blockCurrent other frame =>
    obtain ⟨rfl, rfl⟩ := Prod.mk.inj (Option.some.inj leaving)
    simp only [events, blockCurrent, Op.saved]
    split <;> rename_i stopped <;> rw [stopped] <;> rfl
  | putBack | exitCurrent | crashCurrent | killCurrent => simp [events, Op.saved]
  | _ => cases leaving

theorem leaving_change : Change table op (table.step op) (table.events op) := by
  rw [step_of_leaving leaving, events_of_leaving leaving]
  unfold leaveCurrent
  cases current : table.current cpu with
  | none => exact .unchanged
  | some pid =>
    simp only
    cases found : table.find pid with
    | none => exact .orphaned _ current found
    | some slot =>
      have samePid := (of_find_eq_some found).2
      have isCurrent : table.currentSlot cpu = some slot := by
        simp [currentSlot, current, found]
      simpa [samePid] using Change.left leaving isCurrent

end

theorem step_change (table : ProcessTable) (op : Op) :
    Change table op (table.step op) (table.events op) := by
  cases op with
  | insert pid entry stackTop pml4Phys =>
    simp only [step, events, insert]
    cases found : (List.finRange maxProcesses).find? fun slot => !table.occupied slot with
    | none => exact .unchanged
    | some slot => exact .inserted (by simpa [occupied] using List.find?_some found)
  | select which homes => exact select_change table
  | dispatchNext cpu =>
    simp only [step, events, dispatchNext]
    split_ifs with busy
    · exact .unchanged
    cases runs : table.nextRunnable cpu with
    | none => exact .unchanged
    | some slot =>
      simp only [runSlot_slots_self]
      exact .dispatched (by simpa using busy) runs
  | tick cpu frame slice budget =>
    simp only [step, events]
    have outcome := table.tick_cases cpu frame slice budget
    generalize table.tick cpu frame slice budget = result at outcome ⊢
    cases outcome with
    | idle => exact .unchanged
    | kill isCurrent => exact .charged _ isCurrent
    | stay sliceUsed isCurrent => exact .charged sliceUsed isCurrent
    | switch isCurrent _ runs isSwitched => exact .switched isCurrent runs isSwitched
  | markStarted pid =>
    simp only [step, events, markStarted]
    cases found : table.find pid with
    | none => exact .unchanged
    | some slot => exact .marked found
  | unblock pid result =>
    simp only [step, events, unblock]
    cases found : table.find pid with
    | none => exact .unchanged
    | some slot =>
      simp only
      split_ifs with blocked
      · exact .unblocked found blocked
      · exact .unchanged
  | takeForReap pid =>
    simp only [step, events, takeForReap]
    cases found : table.find pid with
    | none => exact .unchanged
    | some slot =>
      simp only
      split_ifs with removable
      · exact .reaped found removable
      · exact .unchanged
  | putBack | blockCurrent | exitCurrent | crashCurrent | killCurrent => exact leaving_change rfl

/-! ## Consistency -/

theorem Consistent.charge (consistent : table.Consistent) (sliceUsed : Cpu → UInt64) :
    { table.charge cpu slot with sliceUsed := sliceUsed }.Consistent := by
  have modified : (table.modify slot Process.charged).Consistent :=
    consistent.modify_same rfl rfl rfl
  exact modified.congr (fun _ => rfl) (fun _ => rfl) (fun _ _ => rfl) rfl

theorem currentSlot_charge (sliceUsed : Cpu → UInt64) {other : Cpu} :
    { table.charge cpu slot with sliceUsed := sliceUsed }.currentSlot other =
      table.currentSlot other := by
  have same : ∀ pid, { table.charge cpu slot with sliceUsed := sliceUsed }.find pid =
      table.find pid := by
    intro pid
    unfold find
    congr 1
    funext other
    by_cases isSlot : other = slot
    · subst other
      simp only [occupied, charge_slots_self, Process.charged]
    · simp only [occupied, charge_slots_of_ne isSlot]
  unfold currentSlot
  rw [funext same]
  rfl

variable {next : SlotId}

section

variable (consistent : table.Consistent) (isCurrent : table.currentSlot cpu = some slot)
  (runs : (table.charge cpu slot).nextRunnable cpu = some next)
include consistent isCurrent runs

theorem Consistent.next_ne : next ≠ slot := by
  rintro rfl
  have ready := (runnable_of_nextRunnable runs).2
  have running := consistent.runs isCurrent
  simp [Process.charged, running] at ready

theorem Consistent.switchTo (frame : TrapFrame) :
    (((table.charge cpu slot).renew cpu).switchTo cpu slot next frame).Consistent := by
  have charged : ((table.charge cpu slot).renew cpu).Consistent := consistent.charge _
  have stillCurrent : ((table.charge cpu slot).renew cpu).currentSlot cpu = some slot := by
    rw [renew, currentSlot_charge]
    exact isCurrent
  have saved : ((((table.charge cpu slot).renew cpu).setCurrent cpu none).modify slot
      (Process.preempted frame)).Consistent := by
    apply charged.leave stillCurrent rfl
    simp [Process.preempted]
  apply saved.runSlot (setCurrent_current_self none)
  rw [modify_slots_of_ne (consistent.next_ne isCurrent runs)]
  exact (runnable_of_nextRunnable runs).2

theorem Consistent.switchTo_slots (frame : TrapFrame) :
    (((table.charge cpu slot).renew cpu).switchTo cpu slot next frame).slots next =
      (table.slots next).dispatched cpu := by
  have different := consistent.next_ne isCurrent runs
  unfold ProcessTable.switchTo
  rw [runSlot_slots_self, setCurrent_slots, modify_slots_of_ne different, renew_slots,
    charge_slots_of_ne different]

theorem Consistent.runnable_next :
    (table.slots next).scheduled ∧ (table.slots next).state = .ready := by
  have runnable := runnable_of_nextRunnable runs
  rwa [charge_slots_of_ne (consistent.next_ne isCurrent runs)] at runnable

end

theorem step_consistent (consistent : table.Consistent) (fresh : table.Fresh op) :
    (table.step op).Consistent := by
  have change := step_change table op
  generalize table.step op = next, table.events op = frames at change ⊢
  cases change with
  | unchanged => exact consistent
  | inserted free =>
    apply consistent.modify_resting
    · simp [free]
    · simp [Process.ready]
    · intro _ other _ occupied
      exact find_eq_none_iff.mp (fresh _ rfl) other occupied
  | selected changed sameCurrent _ =>
    apply consistent.congr _ _ _ sameCurrent
    · intro slot
      obtain ⟨home, isNext, _⟩ := changed slot
      rw [isNext]
    · intro slot
      obtain ⟨home, isNext, _⟩ := changed slot
      rw [isNext]
    · intro slot running
      obtain ⟨home, isNext, keepsHome⟩ := changed slot
      rw [isNext]
      exact keepsHome (by simp [running])
  | dispatched idle runs => exact consistent.runSlot idle (runnable_of_nextRunnable runs).2
  | marked => exact consistent.modify_same rfl rfl rfl
  | charged sliceUsed isCurrent => exact consistent.charge sliceUsed
  | switched isCurrent runs isSwitched =>
    rw [isSwitched]
    exact consistent.switchTo isCurrent runs _
  | @left op cpu slot update leaving isCurrent =>
    obtain ⟨samePid, _, stops, _⟩ := Op.leaving_spec leaving (table.slots slot)
    exact consistent.leave isCurrent samePid stops
  | orphaned _ current notFound => exact absurd notFound (consistent.find_current current)
  | @unblocked pid result slot found blocked =>
    apply consistent.modify_resting
    · simp [blocked]
    · simp [Process.answered]
    · intro _ other different occupied samePid
      exact different (consistent.distinct occupied (by simp [blocked]) samePid)
  | @reaped pid slot found removable =>
    apply consistent.modify_resting
    · intro running
      simp [running, reapable] at removable
    · simp [Process.freeSlot]
    · intro occupied
      exact absurd rfl occupied

/-! ## The moves of one process -/

variable (table op slot)

/-- What an operation does to the process of one slot. -/
inductive Moves : Process → Prop
  | kept : Moves (table.slots slot)
  | created {pid : UInt32} {entry stackTop pml4Phys : UInt64}
      (isInsert : op = .insert pid entry stackTop pml4Phys)
      (free : (table.slots slot).state = .free) : Moves (.ready pid entry stackTop pml4Phys)
  | chosen {which : Select} {homes : List Nat} (home : UInt8) (isSelect : op = .select which homes)
      (keepsHome : (table.slots slot).state ≠ .ready → home = (table.slots slot).home) :
      Moves
        { table.slots slot with
          scheduled := Select.takes which (table.slots slot), home := home }
  | ran {cpu : Cpu}
      (isRun : op = .dispatchNext cpu ∨ ∃ frame slice budget, op = .tick cpu frame slice budget)
      (scheduled : (table.slots slot).scheduled)
      (ready : (table.slots slot).state = .ready) : Moves ((table.slots slot).dispatched cpu)
  | marked (isMark : op = .markStarted (table.slots slot).pid) : Moves (table.slots slot).marked
  | charged {cpu : Cpu} {frame : TrapFrame} {slice budget : UInt64}
      (isTick : op = .tick cpu frame slice budget) (isCurrent : table.currentSlot cpu = some slot) :
      Moves (table.slots slot).charged
  | preempted {cpu : Cpu} {frame : TrapFrame} {slice budget : UInt64}
      (isTick : op = .tick cpu frame slice budget) (isCurrent : table.currentSlot cpu = some slot) :
      Moves (Process.preempted frame (table.slots slot).charged)
  | left {cpu : Cpu} {update : Process → Process} (leaving : op.leaving = some (cpu, update))
      (isCurrent : table.currentSlot cpu = some slot) : Moves (update (table.slots slot))
  | unblocked {result : UInt64} (isUnblock : op = .unblock (table.slots slot).pid result)
      (blocked : (table.slots slot).state = .blocked) :
      Moves (Process.answered result (table.slots slot))
  | reaped (isReap : op = .takeForReap (table.slots slot).pid)
      (removable : reapable (table.slots slot).state) : Moves .freeSlot

variable {table op slot}

theorem moves_modify (move : Moves table op slot (update (table.slots slot))) :
    Moves table op other ((table.modify slot update).slots other) := by
  by_cases isSlot : other = slot
  · subst other
    rw [modify_slots_self]
    exact move
  · rw [modify_slots_of_ne isSlot]
    exact .kept

section

variable (consistent : table.Consistent)
include consistent

theorem step_moves (op : Op) (slot : SlotId) :
    Moves table op slot ((table.step op).slots slot) := by
  have change := step_change table op
  generalize table.step op = next, table.events op = frames at change ⊢
  cases change with
  | unchanged => exact .kept
  | inserted free => exact moves_modify (.created rfl free)
  | selected changed _ _ =>
    obtain ⟨home, isNext, keepsHome⟩ := changed slot
    rw [isNext]
    exact .chosen home rfl keepsHome
  | dispatched _ runs =>
    obtain ⟨scheduled, ready⟩ := runnable_of_nextRunnable runs
    exact moves_modify (.ran (.inl rfl) scheduled ready)
  | marked found =>
    apply moves_modify
    exact .marked (by rw [(of_find_eq_some found).2])
  | charged _ isCurrent => exact moves_modify (.charged rfl isCurrent)
  | @switched cpu frame slice budget old next _ isCurrent runs isSwitched =>
    subst isSwitched
    by_cases isNext : slot = next
    · subst slot
      obtain ⟨scheduled, ready⟩ := consistent.runnable_next isCurrent runs
      rw [consistent.switchTo_slots isCurrent runs]
      exact .ran (.inr ⟨frame, slice, budget, rfl⟩) scheduled ready
    unfold switchTo
    rw [runSlot_slots_of_ne isNext, setCurrent_slots]
    by_cases isOld : slot = old
    · subst slot
      rw [modify_slots_self, renew_slots, charge_slots_self]
      exact .preempted rfl isCurrent
    · rw [modify_slots_of_ne isOld, renew_slots, charge_slots_of_ne isOld]
      exact .kept
  | left leaving isCurrent => exact moves_modify (.left leaving isCurrent)
  | orphaned => exact .kept
  | unblocked found blocked =>
    apply moves_modify
    exact .unblocked (by rw [(of_find_eq_some found).2]) blocked
  | reaped found removable =>
    apply moves_modify
    exact .reaped (by rw [(of_find_eq_some found).2]) removable

theorem slots_insert (pid : UInt32) (entry stackTop pml4Phys : UInt64) (slot : SlotId) :
    (table.step (.insert pid entry stackTop pml4Phys)).slots slot = table.slots slot ∨
      (table.slots slot).state = .free ∧
        (table.step (.insert pid entry stackTop pml4Phys)).slots slot =
          .ready pid entry stackTop pml4Phys := by
  have move := step_moves consistent (.insert pid entry stackTop pml4Phys) slot
  generalize (table.step (.insert pid entry stackTop pml4Phys)).slots slot = process at move ⊢
  cases move with
  | kept => exact .inl rfl
  | created isInsert free =>
    cases isInsert
    exact .inr ⟨free, rfl⟩
  | ran isOther => rcases isOther with isOther | ⟨_, _, _, isOther⟩ <;> cases isOther
  | chosen _ isOther | marked isOther | charged isOther | preempted isOther | unblocked isOther
  | reaped isOther | left isOther => cases isOther

end

def ProcessState.live : ProcessState → Bool
  | .ready | .running | .blocked => true
  | _ => false

theorem ProcessState.ne_free_of_live (live : ProcessState.live state) : state ≠ .free := by
  rintro rfl
  cases live

/-- A process in the table was created by the step, or it is the one that was there, and then
only one that can still run changes its state. -/
theorem Moves.created_or_survives (move : Moves table op slot process)
    (occupied : process.state ≠ .free) (consistent : table.Consistent) :
    (∃ pid entry stackTop pml4Phys, op = .insert pid entry stackTop pml4Phys ∧
      process = .ready pid entry stackTop pml4Phys) ∨
    (table.slots slot).state ≠ .free ∧ (table.slots slot).pid = process.pid ∧
      (table.slots slot).pml4Phys = process.pml4Phys ∧
      ((∀ which homes, op ≠ .select which homes) → (table.slots slot).state ≠ .running →
        (table.slots slot).scheduled = process.scheduled) ∧
      ((table.slots slot).state = process.state ∨
        ProcessState.live (table.slots slot).state) := by
  have ofCurrent : ∀ {cpu}, table.currentSlot cpu = some slot →
      ProcessState.live (table.slots slot).state := by
    intro cpu isCurrent
    simp [consistent.runs isCurrent, ProcessState.live]
  cases move with
  | kept | marked => exact .inr ⟨occupied, rfl, rfl, fun _ _ => rfl, .inl rfl⟩
  | created isInsert => exact .inl ⟨_, _, _, _, isInsert, rfl⟩
  | chosen _ isSelect =>
    exact .inr ⟨occupied, rfl, rfl, fun noSelect _ => absurd isSelect (noSelect _ _), .inl rfl⟩
  | ran _ _ old | unblocked _ old =>
    exact .inr ⟨by simp [old], rfl, rfl, fun _ _ => rfl, .inr (by rw [old]; rfl)⟩
  | charged _ isCurrent | preempted _ isCurrent =>
    have live := ofCurrent isCurrent
    exact .inr ⟨ProcessState.ne_free_of_live live, rfl, rfl, fun _ _ => rfl, .inr live⟩
  | left leaving isCurrent =>
    have live := ofCurrent isCurrent
    obtain ⟨samePid, -, -, sameSpace⟩ := Op.leaving_spec leaving (table.slots slot)
    exact .inr ⟨ProcessState.ne_free_of_live live, samePid.symm, sameSpace.symm,
      fun _ rested => absurd (consistent.runs isCurrent) rested, .inr live⟩
  | reaped => exact absurd rfl occupied

theorem Moves.same_process (move : Moves table op slot process) (occupied : process.state ≠ .free)
    (notCreated : op.created ≠ some process.pid) (consistent : table.Consistent) :
    (table.slots slot).state ≠ .free ∧ (table.slots slot).pid = process.pid ∧
      ((table.slots slot).state = process.state ∨
        ProcessState.live (table.slots slot).state) := by
  obtain ⟨_, _, _, _, rfl, rfl⟩ | ⟨before, samePid, -, -, still⟩ :=
    move.created_or_survives occupied consistent
  · exact absurd rfl notCreated
  · exact ⟨before, samePid, still⟩

/-- A process that can still run could do so before. -/
theorem live_of_live_step (consistent : table.Consistent)
    (notCreated : op.created ≠ some ((table.step op).slots slot).pid)
    (live : ProcessState.live ((table.step op).slots slot).state) :
    ProcessState.live (table.slots slot).state ∧
      (table.slots slot).pid = ((table.step op).slots slot).pid := by
  obtain ⟨-, samePid, still⟩ := (step_moves consistent op slot).same_process
    (ProcessState.ne_free_of_live live) notCreated consistent
  exact ⟨still.elim (fun same => same ▸ live) id, samePid⟩

/-! ## Other CPUs -/

theorem Op.cpu_of_leaving (leaving : op.leaving = some (cpu, update)) : op.cpu = some cpu := by
  cases op <;> simp only [Op.leaving, Option.some.injEq, Prod.mk.injEq, reduceCtorEq] at leaving
  all_goals rw [Op.cpu, leaving.1]

theorem Op.of_cpu (isOwn : op.cpu = some cpu) :
    op.created = none ∧ ∀ which homes, op ≠ .select which homes := by
  constructor
  · cases op with
    | insert => cases isOwn
    | _ => rfl
  · rintro which homes rfl
    cases isOwn

theorem fresh_of_cpu (isOwn : op.cpu = some cpu) : table.Fresh op := by
  intro pid created
  rw [(Op.of_cpu isOwn).1] at created
  cases created

section

variable (consistent : table.Consistent)
include consistent

/-- An operation does not change what another CPU runs. -/
theorem current_step_of_ne (foreign : op.cpu ≠ some cpu) :
    (table.step op).current cpu = table.current cpu := by
  have change := step_change table op
  generalize table.step op = next, table.events op = frames at change ⊢
  have notOwner : ∀ {owner : Cpu}, op.cpu = some owner → cpu ≠ owner := by
    rintro owner isOwner rfl
    exact foreign isOwner
  cases change with
  | unchanged | inserted | marked | charged | unblocked | reaped => rfl
  | selected _ sameCurrent _ => rw [sameCurrent]
  | dispatched => exact runSlot_current_of_ne (notOwner rfl)
  | switched _ _ isSwitched =>
    rw [isSwitched]
    exact (runSlot_current_of_ne (notOwner rfl)).trans
      (setCurrent_current_of_ne (notOwner rfl) none)
  | left leaving => exact setCurrent_current_of_ne (notOwner (Op.cpu_of_leaving leaving)) none
  | orphaned _ current notFound => exact absurd notFound (consistent.find_current current)

theorem running_step_of_ne (foreign : op.cpu ≠ some cpu)
    (isCurrent : table.currentSlot cpu = some slot) :
    ((table.step op).slots slot).state = .running ∧
      ((table.step op).slots slot).pid = (table.slots slot).pid := by
  have running := (consistent.currentSlot_eq_some_iff.mp isCurrent)
  have move := step_moves consistent op slot
  generalize (table.step op).slots slot = process at move ⊢
  have notOwner : ∀ {owner : Cpu}, op.cpu = some owner → table.currentSlot owner ≠ some slot := by
    intro owner isOwner ownerCurrent
    have onOwner := (consistent.currentSlot_eq_some_iff.mp ownerCurrent).2
    rw [consistent.cpu_unique onOwner running.2] at isOwner
    exact foreign isOwner
  cases move with
  | kept | chosen | marked => exact ⟨running.1, rfl⟩
  | created _ free => simp [running.1] at free
  | ran _ _ ready => simp [running.1] at ready
  | charged isTick isOther | preempted isTick isOther =>
    exact absurd isOther (notOwner (isTick ▸ rfl))
  | left leaving isOther => exact absurd isOther (notOwner (Op.cpu_of_leaving leaving))
  | unblocked _ blocked => simp [running.1] at blocked
  | reaped _ removable => simp [running.1, reapable] at removable

theorem currentSlot_step_of_ne (fresh : table.Fresh op) (foreign : op.cpu ≠ some cpu) :
    (table.step op).currentSlot cpu = table.currentSlot cpu := by
  have sameCurrent := current_step_of_ne consistent foreign
  cases isCurrent : table.currentSlot cpu with
  | none =>
    cases current : table.current cpu with
    | none =>
      rw [current] at sameCurrent
      simp [currentSlot, sameCurrent]
    | some pid =>
      rw [currentSlot, current] at isCurrent
      exact absurd isCurrent (consistent.find_current current)
  | some slot =>
    obtain ⟨running, samePid⟩ := running_step_of_ne consistent foreign isCurrent
    have current := (consistent.currentSlot_eq_some_iff.mp isCurrent).2
    apply (step_consistent consistent fresh).currentSlot_eq_some_iff.mpr
    rw [sameCurrent, samePid]
    exact ⟨running, current⟩

/-! ## The CPU of an operation -/

theorem current_of_leaving (leaving : op.leaving = some (cpu, update)) :
    (table.step op).current cpu = none := by
  rw [step_of_leaving leaving]
  unfold leaveCurrent
  cases current : table.current cpu with
  | none => exact current
  | some pid =>
    simp only
    cases found : table.find pid with
    | none => exact absurd found (consistent.find_current current)
    | some slot => exact setCurrent_current_self none

end

theorem slots_of_leaving (leaving : op.leaving = some (cpu, update))
    (isCurrent : table.currentSlot cpu = some slot) :
    (table.step op).slots slot = update (table.slots slot) := by
  obtain ⟨current, found⟩ := currentSlot_eq_some_iff.mp isCurrent
  rw [step_of_leaving leaving]
  simp only [leaveCurrent, current, found]
  exact modify_slots_self

theorem current_of_dispatchNext (isProcess : (table.dispatchNext cpu).2 = some process) :
    (table.step (.dispatchNext cpu)).current cpu = some process.pid := by
  simp only [step]
  unfold dispatchNext at isProcess ⊢
  split_ifs at isProcess ⊢ with busy
  cases runs : table.nextRunnable cpu with
  | none => simp [runs] at isProcess
  | some slot =>
    simp only [runs, Option.some.injEq] at isProcess ⊢
    subst isProcess
    rw [runSlot_current_self, runSlot_slots_self]
    rfl

theorem currentSlot_of_not_switch (noSwitch : ∀ pml4Phys old next,
      (table.tick cpu frame slice budget).2.2 ≠ .switch pml4Phys old next) (other : Cpu) :
    (table.step (.tick cpu frame slice budget)).currentSlot other = table.currentSlot other := by
  have outcome := table.tick_cases cpu frame slice budget
  simp only [step]
  generalize table.tick cpu frame slice budget = result at outcome noSwitch ⊢
  cases outcome with
  | idle => rfl
  | stay => exact currentSlot_charge _
  | @kill slot => exact @currentSlot_charge table cpu slot (table.charge cpu slot).sliceUsed other
  | switch => exact absurd rfl (noSwitch _ _ _)

theorem currentSlot_of_switch (consistent : table.Consistent)
    (isSwitch : (table.tick cpu frame slice budget).2.2 = .switch pml4Phys old next) :
    table.currentSlot cpu = some old ∧ (table.slots next).state = .ready ∧
      (table.step (.tick cpu frame slice budget)).currentSlot cpu = some next := by
  have outcome := table.tick_cases cpu frame slice budget
  have stillConsistent : (table.step (.tick cpu frame slice budget)).Consistent :=
    step_consistent consistent nofun
  simp only [step] at stillConsistent ⊢
  generalize table.tick cpu frame slice budget = result at outcome isSwitch stillConsistent ⊢
  cases outcome with
  | @switch slot target _ isCurrent _ runs isSwitched =>
    obtain ⟨_, rfl, rfl⟩ := TickAction.switch.inj isSwitch
    subst isSwitched
    refine ⟨isCurrent, (consistent.runnable_next isCurrent runs).2, ?_⟩
    apply stillConsistent.currentSlot_eq_some_iff.mpr
    rw [consistent.switchTo_slots isCurrent runs]
    refine ⟨rfl, ?_⟩
    unfold switchTo
    rw [runSlot_current_self, setCurrent_slots,
      modify_slots_of_ne (consistent.next_ne isCurrent runs), renew_slots,
      charge_slots_of_ne (consistent.next_ne isCurrent runs)]
    rfl
  | idle | kill | stay => cases isSwitch

end ProcessTable
end Cdk.Processes

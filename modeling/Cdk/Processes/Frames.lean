import Cdk.Processes.Invariants

/-!
# Registers of a process

The history of a run says which frames the kernel took from a process and what
its system calls returned.  `lastFrame` reads off the history alone what a
process has to resume with.  The table hands out exactly that frame, so the
registers of a process depend on nothing that another process did.
-/

namespace Cdk.Processes
namespace ProcessTable

variable {table : ProcessTable} {op : Op} {cpu : Cpu} {slot other : SlotId} {pid : UInt32}

/-! ## What a process has to resume with -/

/-- The frame that a process resumes with. -/
def FrameEvent.resume (pid : UInt32) (last : Option TrapFrame) : FrameEvent → Option TrapFrame
  | .created owner frame | .left owner frame => if owner = pid then some frame else last
  | .answered owner result =>
    if owner = pid then last.map fun frame => { frame with rax := result } else last
  | .dispatched _ _ | .switched _ _ _ => last

/-- The frame with which a process last left a CPU, or its first one, with the
result of the system call that it waited for. -/
def lastFrame (pid : UInt32) (log : List FrameEvent) : Option TrapFrame :=
  log.foldl (FrameEvent.resume pid) none

@[simp] theorem lastFrame_append (log late : List FrameEvent) :
    lastFrame pid (log ++ late) = late.foldl (FrameEvent.resume pid) (lastFrame pid log) :=
  List.foldl_append

/-- The event sets what a process resumes with. -/
def FrameEvent.Touches (pid : UInt32) : FrameEvent → Prop
  | .created owner _ | .left owner _ | .answered owner _ => owner = pid
  | .dispatched _ _ | .switched _ _ _ => False

theorem foldl_resume_of_untouched {late : List FrameEvent}
    (untouched : ∀ event ∈ late, ¬ event.Touches pid) (last : Option TrapFrame) :
    late.foldl (FrameEvent.resume pid) last = last := by
  refine List.foldlRecOn (motive := (· = last)) late _ rfl ?_
  rintro _ rfl event member
  have foreign := untouched event member
  cases event <;> first | rfl | exact if_neg foreign

variable {frame : TrapFrame}

/-- What happened to registers in a run. -/
def history (table : ProcessTable) : List Op → List FrameEvent
  | [] => []
  | op :: rest => table.events op ++ (table.step op).history rest

/-- Every slot holds the last frame of its process. -/
def Keeps (table : ProcessTable) (log : List FrameEvent) : Prop :=
  ∀ slot, (table.slots slot).state ≠ .free →
    lastFrame (table.slots slot).pid log = some (table.slots slot).frame

theorem Consistent.pid_ne (consistent : table.Consistent)
    (occupied : (table.slots other).state ≠ .free) (slotOccupied : (table.slots slot).state ≠ .free)
    (different : other ≠ slot) : (table.slots slot).pid ≠ (table.slots other).pid :=
  fun same => different (consistent.distinct occupied slotOccupied same.symm)

theorem Op.frame_of_leaving (leaving : op.leaving = some (cpu, update)) (process : Process) :
    (update process).frame = op.saved.getD process.frame := by
  cases op <;> simp only [Op.leaving, Option.some.injEq, Prod.mk.injEq, reduceCtorEq] at leaving
  all_goals
    obtain ⟨_, rfl⟩ := leaving
    rfl

/-- A change of one slot keeps the table right if it is right for that slot and
the events are about no other process. -/
theorem keeps_modify {update : Process → Process} {log late : List FrameEvent}
    (keeps : table.Keeps log) (own : (update (table.slots slot)).state ≠ .free →
      lastFrame (update (table.slots slot)).pid (log ++ late) =
        some (update (table.slots slot)).frame)
    (others : ∀ other, other ≠ slot → (table.slots other).state ≠ .free →
      lastFrame (table.slots other).pid (log ++ late) = lastFrame (table.slots other).pid log) :
    (table.modify slot update).Keeps (log ++ late) := by
  intro other occupied
  by_cases isSlot : other = slot
  · subst other
    rw [modify_slots_self] at occupied ⊢
    exact own occupied
  · rw [modify_slots_of_ne isSlot] at occupied ⊢
    rw [others other isSlot occupied]
    exact keeps other occupied

variable {log : List FrameEvent}

theorem step_keeps (consistent : table.Consistent) (fresh : table.Fresh op)
    (keeps : table.Keeps log) : (table.step op).Keeps (log ++ table.events op) := by
  have change := step_change table op
  generalize table.step op = next, table.events op = frames at change ⊢
  cases change with
  | unchanged => simpa using keeps
  | @inserted pid entry stackTop pml4Phys slot free =>
    have absent := find_eq_none_iff.mp (fresh _ rfl)
    apply keeps_modify keeps
    · intro _
      simp [FrameEvent.resume, Process.ready]
    · intro other _ occupied
      simp [FrameEvent.resume, (absent other occupied).symm]
  | selected changed _ _ =>
    intro slot occupied
    obtain ⟨home, isNext, _⟩ := changed slot
    rw [isNext] at occupied ⊢
    simpa using keeps slot occupied
  | @dispatched cpu slot idle runs =>
    apply keeps_modify keeps
    · intro _
      have ready := (runnable_of_nextRunnable runs).2
      exact (lastFrame_append log _).trans (keeps slot (by simp [ready]))
    · intro other _ _
      exact lastFrame_append log _
  | @marked pid slot found =>
    apply keeps_modify keeps
    · intro occupied
      simpa [Process.marked] using keeps slot occupied
    · simp
  | @charged cpu frame slice budget slot sliceUsed isCurrent =>
    apply keeps_modify keeps
    · intro occupied
      simpa [Process.charged] using keeps slot occupied
    · simp
  | @switched cpu frame slice budget slot next _ isCurrent runs isSwitched =>
    subst isSwitched
    have running := consistent.runs isCurrent
    have occupiedSlot : (table.slots slot).state ≠ .free := by simp [running]
    intro other occupied
    by_cases isSlot : other = slot
    · subst other
      have different := (consistent.next_ne isCurrent runs).symm
      unfold switchTo
      rw [runSlot_slots_of_ne different, setCurrent_slots, modify_slots_self, renew_slots,
        charge_slots_self]
      simp [FrameEvent.resume, Process.preempted, Process.charged]
    · have unchanged : (((((table.charge cpu slot).renew cpu).switchTo cpu slot next
          frame).slots other).pid = (table.slots other).pid ∧
          ((((table.charge cpu slot).renew cpu).switchTo cpu slot next
            frame).slots other).frame = (table.slots other).frame) ∧
          (table.slots other).state ≠ .free := by
        by_cases isNext : other = next
        · subst other
          rw [consistent.switchTo_slots isCurrent runs]
          exact ⟨⟨rfl, rfl⟩, by simp [(consistent.runnable_next isCurrent runs).2]⟩
        · unfold switchTo at occupied ⊢
          rw [runSlot_slots_of_ne isNext, setCurrent_slots, modify_slots_of_ne isSlot,
            renew_slots, charge_slots_of_ne isSlot] at occupied ⊢
          exact ⟨⟨rfl, rfl⟩, occupied⟩
      obtain ⟨⟨samePid, sameFrame⟩, occupiedBefore⟩ := unchanged
      have differentPid := consistent.pid_ne occupiedBefore occupiedSlot isSlot
      rw [samePid, sameFrame]
      simpa [FrameEvent.resume, differentPid] using keeps other occupiedBefore
  | @left op cpu slot update leaving isCurrent =>
    have running := consistent.runs isCurrent
    have occupiedSlot : (table.slots slot).state ≠ .free := by simp [running]
    apply @keeps_modify (table.setCurrent cpu none) slot _ _ _ keeps
    · intro _
      rw [setCurrent_slots, (Op.leaving_spec leaving _).1, Op.frame_of_leaving leaving,
        lastFrame_append]
      cases op.saved with
      | none => exact keeps slot occupiedSlot
      | some frame => simp [FrameEvent.resume]
    · intro other different occupied
      have differentPid := consistent.pid_ne occupied occupiedSlot different
      rw [setCurrent_slots, lastFrame_append]
      cases op.saved with
      | none => rfl
      | some frame => simp [FrameEvent.resume, differentPid]
  | orphaned _ current notFound => exact absurd notFound (consistent.find_current current)
  | @unblocked pid result slot found blocked =>
    obtain ⟨occupiedSlot, rfl⟩ := of_find_eq_some found
    apply keeps_modify keeps
    · intro _
      simp [FrameEvent.resume, Process.answered, keeps slot occupiedSlot]
    · intro other different occupied
      simp [FrameEvent.resume, consistent.pid_ne occupied occupiedSlot different]
  | reaped =>
    apply keeps_modify keeps
    · intro occupied
      exact absurd rfl occupied
    · simp

theorem after_keeps (consistent : table.Consistent) (fresh : Run.Along step Fresh table ops)
    (keeps : table.Keeps log) : (table.after ops).Keeps (log ++ table.history ops) := by
  induction ops generalizing table log with
  | nil => simpa [history, after] using keeps
  | cons op rest ih =>
    obtain ⟨freshOp, freshRest⟩ := fresh
    have later := ih (step_consistent consistent freshOp) freshRest
      (step_keeps consistent freshOp keeps)
    rwa [List.append_assoc] at later

/-! ## What the kernel hands out -/

theorem exists_slot_of_dispatched (consistent : table.Consistent)
    (isEvent : .dispatched pid frame ∈ table.events op) :
    ∃ slot, (table.slots slot).state = .ready ∧ (table.slots slot).pid = pid ∧
      (table.slots slot).frame = frame := by
  have change := step_change table op
  generalize table.step op = next, table.events op = frames at change isEvent
  cases change with
  | @dispatched cpu slot _ runs =>
    obtain ⟨rfl, rfl⟩ := FrameEvent.dispatched.inj (List.mem_singleton.mp isEvent)
    exact ⟨slot, (runnable_of_nextRunnable runs).2, rfl, rfl⟩
  | orphaned _ current notFound => exact absurd notFound (consistent.find_current current)
  | unchanged | inserted | selected | marked | charged | switched | left | unblocked | reaped =>
    simp at isEvent

theorem frame_of_switched (consistent : table.Consistent) (keeps : table.Keeps log)
    (isEvent : .switched pid interrupted frame ∈ table.events op) :
    ∃ saved, lastFrame pid log = some saved ∧ frame = resumedFrame saved interrupted := by
  have change := step_change table op
  generalize table.step op = next, table.events op = frames at change isEvent
  cases change with
  | @switched cpu given slice budget slot next _ isCurrent runs isSwitched =>
    have isReceived : FrameEvent.switched pid interrupted frame =
        .switched (table.slots next).pid given
          (resumedFrame ((table.slots next).dispatched cpu).frame given) := by
      simpa [isSwitched, consistent.switchTo_slots isCurrent runs] using isEvent
    obtain ⟨rfl, rfl, rfl⟩ := FrameEvent.switched.inj isReceived
    exact ⟨_, keeps next (by simp [(consistent.runnable_next isCurrent runs).2]), rfl⟩
  | orphaned _ current notFound => exact absurd notFound (consistent.find_current current)
  | unchanged | inserted | selected | dispatched | marked | charged | left | unblocked | reaped =>
    simp at isEvent

/-- The operations that may change the saved registers of a process: its CPU is
interrupted or it blocks, its own system call returns, or it is removed. -/
def OwnOperation (table : ProcessTable) (slot : SlotId) : Op → Prop
  | .tick cpu _ _ _ | .blockCurrent cpu _ => table.current cpu = some (table.slots slot).pid
  | .unblock pid _ | .takeForReap pid => pid = (table.slots slot).pid
  | _ => False

theorem frame_unchanged (consistent : table.Consistent)
    (occupied : (table.slots slot).state ≠ .free) (foreign : ¬ table.OwnOperation slot op) :
    ((table.step op).slots slot).frame = (table.slots slot).frame := by
  have move := step_moves consistent op slot
  generalize (table.step op).slots slot = process at move ⊢
  cases move with
  | kept | chosen | ran | marked | charged => rfl
  | created _ free => exact absurd free occupied
  | preempted isTick isCurrent =>
    subst isTick
    exact absurd (consistent.currentSlot_eq_some_iff.mp isCurrent).2 foreign
  | left leaving isCurrent =>
    have current := (consistent.currentSlot_eq_some_iff.mp isCurrent).2
    rw [Op.frame_of_leaving leaving]
    cases op with
    | blockCurrent owner frame =>
      obtain ⟨rfl, _⟩ := Prod.mk.inj (Option.some.inj leaving)
      exact absurd current foreign
    | _ => rfl
  | unblocked isUnblock =>
    subst isUnblock
    exact absurd rfl foreign
  | reaped isReap =>
    subst isReap
    exact absurd rfl foreign

/-! ## Entering ring 3 -/

/-- The frame with which a dispatched process enters ring 3. -/
def enteredFrame (userCode userData : UInt64) (frame : TrapFrame) : TrapFrame :=
  { frame with cs := userCode, ss := userData, rflags := frame.rflags ||| 0x200 }

/-- The frames that an operation is given come from ring 3. -/
def Op.FromUser (userCode userData : UInt64) : Op → Prop
  | .tick _ frame _ _ | .blockCurrent _ frame => frame.cs = userCode ∧ frame.ss = userData
  | _ => True

/-- The selectors of a frame are those of ring 3, or they are still missing. -/
def UserSelectors (userCode userData : UInt64) (frame : TrapFrame) : Prop :=
  frame.cs = 0 ∨ frame.cs = userCode ∧ frame.ss = userData

variable {userCode userData : UInt64}

theorem step_userSelectors (consistent : table.Consistent)
    (selectors : ∀ slot, UserSelectors userCode userData (table.slots slot).frame)
    (fromUser : op.FromUser userCode userData) (slot : SlotId) :
    UserSelectors userCode userData ((table.step op).slots slot).frame := by
  have move := step_moves consistent op slot
  generalize (table.step op).slots slot = process at move ⊢
  cases move with
  | kept | chosen | ran | marked | charged | unblocked => exact selectors slot
  | created | reaped => exact .inl rfl
  | preempted isTick =>
    subst isTick
    exact .inr fromUser
  | left leaving =>
    rw [Op.frame_of_leaving leaving]
    cases op with
    | blockCurrent owner frame => exact .inr fromUser
    | _ => exact selectors slot

theorem after_userSelectors (consistent : table.Consistent) (fresh : Run.Along step Fresh table ops)
    (fromUser : ∀ op ∈ ops, op.FromUser userCode userData)
    (selectors : ∀ slot, UserSelectors userCode userData (table.slots slot).frame) (slot : SlotId) :
    UserSelectors userCode userData ((table.after ops).slots slot).frame := by
  refine @rest_lasts _ (fun table => ∀ slot, UserSelectors userCode userData
    (table.slots slot).frame) (fun op => ¬ op.FromUser userCode userData) ?_ consistent selectors
    ops fresh (fun op member => not_not.mpr (fromUser op member)) slot
  intro table op consistent selectors fromUser
  exact step_userSelectors consistent selectors (not_not.mp fromUser)

theorem enteredFrame_eq_resumedFrame (selectors : UserSelectors userCode userData frame)
    (fromUser : interrupted.cs = userCode ∧ interrupted.ss = userData) :
    enteredFrame userCode userData frame = resumedFrame frame interrupted := by
  obtain ⟨rfl, rfl⟩ := fromUser
  unfold enteredFrame resumedFrame
  rcases selectors with missing | ⟨isCode, isData⟩
  · simp [missing]
  · by_cases missing : frame.cs = 0
    · simp [missing]
    · simp only [missing, if_false]
      rw [← isCode, ← isData]

/-! ## Isolation -/

/-- A process gets back the registers with which it last left a CPU, or its first
ones, and no other process changes them. -/
theorem registers_isolated
    (ops : List Op)
    (fresh : Run.Along step Fresh new ops) :
    (∀ op pid frame, .dispatched pid frame ∈ (new.after ops).events op →
      lastFrame pid (new.history ops) = some frame ∧
        ∀ userCode userData, (∀ op ∈ ops, op.FromUser userCode userData) →
          ∀ interrupted : TrapFrame, interrupted.cs = userCode ∧ interrupted.ss = userData →
            enteredFrame userCode userData frame = resumedFrame frame interrupted) ∧
      (∀ op pid interrupted frame, .switched pid interrupted frame ∈ (new.after ops).events op →
          ∃ saved, lastFrame pid (new.history ops) = some saved ∧
            frame = resumedFrame saved interrupted) ∧ (∀ pid entry stackTop early late,
        new.history ops = early ++ .created pid (.userEntry entry stackTop) :: late →
        (∀ event ∈ late, ¬ event.Touches pid) →
          lastFrame pid (new.history ops) = some (.userEntry entry stackTop)) ∧
      ∀ op slot, ((new.after ops).slots slot).state ≠ .free →
        ¬ (new.after ops).OwnOperation slot op → (((new.after ops).step op).slots slot).frame =
            ((new.after ops).slots slot).frame := by
  have consistent := reachable_consistent fresh
  have started : new.Keeps [] := fun _ occupied => absurd rfl occupied
  have keeps : (new.after ops).Keeps (new.history ops) := after_keeps consistent_new fresh started
  refine ⟨?_, ?_, ?_, ?_⟩
  · intro op pid frame isEvent
    obtain ⟨slot, ready, rfl, rfl⟩ := exists_slot_of_dispatched consistent isEvent
    refine ⟨keeps slot (by simp [ready]), ?_⟩
    intro userCode userData fromUser interrupted isUser
    apply enteredFrame_eq_resumedFrame _ isUser
    exact after_userSelectors consistent_new fresh fromUser (fun _ => .inl rfl) slot
  · intro op pid interrupted frame isEvent
    exact frame_of_switched consistent keeps isEvent
  · intro pid entry stackTop early late isHistory untouched
    rw [isHistory, lastFrame_append, List.foldl_cons, foldl_resume_of_untouched untouched]
    exact if_pos rfl
  · intro op slot
    exact frame_unchanged consistent

def twoProcesses : List Op :=
  [.insert 7 0x1000 0x2000 0x3000, .insert 8 0x5000 0x6000 0x7000, .select .allReady [0],
    .dispatchNext 0]

def interruptedFrame : TrapFrame :=
  { TrapFrame.userEntry 0x1008 0x1ff0 with rax := 5, cs := 0x23, ss := 0x1b }

/-- The second process gets its own first frame, with selectors. -/
theorem registers_isolated_sample : Run.Along step Fresh new twoProcesses ∧
    .switched 8 interruptedFrame
        { TrapFrame.userEntry 0x5000 0x6000 with cs := 0x23, ss := 0x1b } ∈
      (new.after twoProcesses).events (.tick 0 interruptedFrame 1 100) ∧
    ∃ saved, lastFrame 8 (new.history twoProcesses) = some saved ∧
      { TrapFrame.userEntry 0x5000 0x6000 with cs := 0x23, ss := 0x1b } =
        resumedFrame saved interruptedFrame :=
  ⟨by decide +kernel, by decide +kernel,
    (registers_isolated twoProcesses (by decide +kernel)).2.1 (.tick 0 interruptedFrame 1 100)
      8 _ _ (by decide +kernel)⟩

end ProcessTable
end Cdk.Processes

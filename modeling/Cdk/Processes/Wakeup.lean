import Cdk.Processes.Outstanding

/-!
# No wake-up is lost that comes in time

A system call marks its process as blocked last.  A result that is there before
that finds no blocked process, or no recorded call, and is lost: the process then
waits for nothing, or for the call to time out.  A result that comes in time is what
the process resumes with.
-/

namespace Cdk.Processes

namespace ProcessTable

variable {table : ProcessTable} {op : Op} {slot : SlotId} {pid : UInt32}

/-! ## Resuming -/

def FrameEvent.resumes (pid : UInt32) : FrameEvent → Option TrapFrame
  | .dispatched owner frame | .switched owner _ frame => if owner = pid then some frame else none
  | _ => none

def resumed (table : ProcessTable) (op : Op) (pid : UInt32) : Option TrapFrame :=
  (table.events op).findSome? (FrameEvent.resumes pid)

/-- The process is ready, with the result in its frame. -/
def Answered (pid : UInt32) (result : UInt64) (table : ProcessTable) : Prop :=
  ∃ slot, (table.slots slot).pid = pid ∧ (table.slots slot).state = .ready ∧
    (table.slots slot).frame.rax = result

theorem rax_resumedFrame (saved interrupted : TrapFrame) :
    (resumedFrame saved interrupted).rax = saved.rax := by
  unfold resumedFrame
  split_ifs <;> rfl

theorem ready_of_resumed (consistent : table.Consistent)
    (isResumed : table.resumed op pid = some frame) : table.Answered pid frame.rax := by
  have change := step_change table op
  unfold resumed at isResumed
  generalize table.step op = next, table.events op = frames at change isResumed
  cases change with
  | unchanged | selected | marked | charged | unblocked | reaped | inserted => cases isResumed
  | @dispatched cpu slot idle runs =>
    simp only [List.findSome?_singleton, FrameEvent.resumes, Option.ite_none_right_eq_some,
      Option.some.injEq] at isResumed
    obtain ⟨isPid, rfl⟩ := isResumed
    exact ⟨slot, isPid, (runnable_of_nextRunnable runs).2, rfl⟩
  | @switched cpu interrupted slice budget slot next _ isCurrent runs isSwitched =>
    subst isSwitched
    simp only [List.findSome?_cons, FrameEvent.resumes, List.findSome?_nil] at isResumed
    split_ifs at isResumed with isPid
    cases isResumed
    refine ⟨next, isPid, (consistent.runnable_next isCurrent runs).2, ?_⟩
    rw [rax_resumedFrame, consistent.switchTo_slots isCurrent runs]
    rfl
  | @left op cpu slot update leaving isCurrent =>
    cases saved : op.saved with
    | none => simp [saved] at isResumed
    | some frame => simp [saved, FrameEvent.resumes] at isResumed
  | orphaned _ current notFound => exact absurd notFound (consistent.find_current current)

theorem resumed_of_runs (consistent : table.Consistent) (ready : (table.slots slot).state = .ready)
    (runs : ((table.step op).slots slot).state = .running) :
    table.resumed op (table.slots slot).pid ≠ none := by
  have change := step_change table op
  have stays : ∀ {other : SlotId} {update : Process → Process},
      ((table.modify other update).slots slot).state = .running →
      slot = other ∧ (update (table.slots other)).state = .running := by
    intro other update running
    by_cases isOther : slot = other
    · subst other
      rw [modify_slots_self] at running
      exact ⟨rfl, running⟩
    · rw [modify_slots_of_ne isOther, ready] at running
      cases running
  unfold resumed
  generalize table.step op = next, table.events op = frames at change runs ⊢
  cases change with
  | unchanged =>
    rw [ready] at runs
    cases runs
  | inserted | unblocked found blocked | reaped => cases (stays runs).2
  | selected changed =>
    obtain ⟨home, isNext, _⟩ := changed slot
    rw [isNext] at runs
    exact absurd (ready.symm.trans runs) nofun
  | dispatched idle isNext =>
    obtain ⟨rfl, _⟩ := stays runs
    simp [FrameEvent.resumes]
  | marked found | charged _ isCurrent =>
    obtain ⟨rfl, running⟩ := stays runs
    exact absurd (ready.symm.trans running) nofun
  | @switched cpu interrupted slice budget old chosen _ isCurrent isNext isSwitched =>
    subst isSwitched
    by_cases isChosen : slot = chosen
    · subst chosen
      simp [FrameEvent.resumes]
    have running := consistent.runs isCurrent
    have notOld : slot ≠ old := by
      rintro rfl
      exact absurd (ready.symm.trans running) nofun
    unfold ProcessTable.switchTo at runs
    rw [runSlot_slots_of_ne isChosen, setCurrent_slots, modify_slots_of_ne notOld,
      renew_slots, charge_slots_of_ne notOld, ready] at runs
    cases runs
  | left leaving isCurrent =>
    obtain ⟨rfl, _⟩ := stays runs
    have running := consistent.runs isCurrent
    exact absurd (ready.symm.trans running) nofun
  | orphaned _ current notFound => exact absurd notFound (consistent.find_current current)

theorem Answered.step {result : UInt64} (consistent : table.Consistent)
    (answered : table.Answered pid result) (notReaped : op ≠ .takeForReap pid)
    (notResumed : table.resumed op pid = none) : (table.step op).Answered pid result := by
  obtain ⟨slot, rfl, ready, isResult⟩ := answered
  refine ⟨slot, ?_⟩
  have starts := @resumed_of_runs table op slot consistent ready
  have move := step_moves consistent op slot
  generalize (table.step op).slots slot = process at move starts ⊢
  have notCurrent : ∀ cpu, table.currentSlot cpu ≠ some slot := by
    intro cpu isCurrent
    rw [consistent.runs isCurrent] at ready
    cases ready
  cases move with
  | kept | chosen | marked => exact ⟨rfl, ready, isResult⟩
  | created _ free =>
    rw [free] at ready
    cases ready
  | ran => exact absurd notResumed (starts rfl)
  | charged _ isCurrent | preempted _ isCurrent | left _ isCurrent =>
    exact absurd isCurrent (notCurrent _)
  | unblocked _ blocked =>
    rw [blocked] at ready
    cases ready
  | reaped isReap => exact absurd isReap notReaped

theorem Answered.unique (consistent : table.Consistent) (answered : table.Answered pid result)
    (also : table.Answered pid other) : result = other := by
  obtain ⟨slot, isPid, ready, rfl⟩ := answered
  obtain ⟨rival, alsoPid, alsoReady, rfl⟩ := also
  rw [consistent.distinct (by simp [ready]) (by simp [alsoReady]) (isPid.trans alsoPid.symm)]

theorem Waits.answered (consistent : table.Consistent) (waits : table.Waits pid) (result : UInt64) :
    (table.step (.unblock pid result)).Answered pid result := by
  obtain ⟨slot, rfl, blocked⟩ := waits
  have found := consistent.find_eq_some (by simp [blocked] : (table.slots slot).state ≠ .free)
  refine ⟨slot, ?_⟩
  simp only [ProcessTable.step, unblock, found, blocked]
  simp [modify_slots_self, Process.answered]

end ProcessTable

namespace System

open ByteFormat ProcessTable Run

variable {setting : Approvals.Setting} {system : System} {label : Label} {pid : UInt32}
  {result : UInt64}

/-- The frame a process resumes with. -/
def resumes (system : System) (pid : UInt32) : Label → Option TrapFrame
  | .table op =>
    if system.stage ≠ .stuck ∧ system.allows op then system.table.resumed op pid else none
  | _ => none

/-- What a step does to the table. -/
inductive TableStep (system next : System) (label : Label) : Prop
  | same (sameTable : next.table = system.table)
  | operated (op : Op) (isLabel : label = .table op) (isTable : next.table = system.table.step op)
      (isResumed : ∀ pid, system.resumes pid label = system.table.resumed op pid)
  | parked (cpu : Cpu) (frame : TrapFrame)
      (isTable : next.table = system.table.step (.blockCurrent cpu frame))
  | woken (pid : UInt32) (result : UInt64)
      (isTable : next.table = system.table.step (.unblock pid result))

theorem table_operate (op : Op) : (system.operate op).table = system.table.step op := by
  unfold operate
  cases op with
  | select which homes =>
    simp only
    split <;> rfl
  | _ => rfl

theorem table_supervise (input : Input)
    (notWaking : ∀ pid result task, system.stage ≠ .waking pid result task) :
    (system.supervise setting input).table = system.table := by
  unfold supervise
  cases isStage : system.stage with
  | doing task =>
    cases task with
    | resolving late =>
      simp only [resolve]
      split <;> rfl
    | polling site done =>
      dsimp only [poll]
      split
      · rfl
      · rfl
      · split <;> rfl
    | expiring site now done =>
      dsimp only [expire]
      split
      · rfl
      · cases site <;> rfl
  | deciding late request =>
    simp only [decideRequest]
    split <;> rfl
  | dispatching late sending =>
    simp only [superviseSending]
    split <;> rfl
  | waking pid result task => exact absurd isStage (notWaking pid result task)
  | _ => rfl

variable {task : Task}

theorem supervise_of_waking (isStage : system.stage = .waking pid result task) (input : Input) :
    (system.supervise setting input).table = system.table.step (.unblock pid result) := by
  simp only [supervise, isStage]
  rfl

theorem step_table (label : Label) : TableStep system (system.step setting label) label := by
  cases label with
  | table op =>
    simp only [step]
    split_ifs with goes
    · exact .operated op rfl (table_operate op) fun pid => if_pos goes
    · exact .same rfl
  | send cpu handle prepared asking answer =>
    simp only [step, whenFree, sysSend]
    split_ifs
    · split <;> exact .same rfl
    · exact .same rfl
  | toolCall cpu handle lookup asking =>
    simp only [step, whenFree, sysToolCall]
    split_ifs
    · split
      · exact .same rfl
      · split_ifs <;> exact .same rfl
    · exact .same rfl
  | advance cpu input =>
    simp only [step, advance]
    split
    · split <;> exact .same rfl
    · exact .same rfl
  | park cpu frame =>
    simp only [step]
    split_ifs
    · unfold park
      split
      · exact .parked cpu frame rfl
      · exact .same rfl
    · exact .same rfl
  | supervise input =>
    by_cases waking : ∃ pid result task, system.stage = .waking pid result task
    · obtain ⟨pid, result, task, isStage⟩ := waking
      exact .woken pid result (supervise_of_waking isStage input)
    · apply TableStep.same
      apply table_supervise
      intro pid result task isStage
      exact waking ⟨pid, result, task, isStage⟩

theorem Sound.not_resumed (sound : Sound system) (attended : system.Attended pid) (label : Label) :
    system.resumes pid label = none := by
  by_contra resumed
  obtain ⟨frame, isFrame⟩ := Option.ne_none_iff_exists'.mp resumed
  cases label with
  | table op =>
    simp only [resumes, Option.ite_none_right_eq_some] at isFrame
    obtain ⟨slot, isPid, ready, _⟩ := ready_of_resumed sound.consistent isFrame.2
    obtain ⟨other, alsoPid, blocked⟩ | ⟨cpu, current, _⟩ := attended
    · have same := sound.consistent.distinct (by simp [ready]) (by simp [blocked])
        (isPid.trans alsoPid.symm)
      rw [same, blocked] at ready
      cases ready
    · obtain ⟨other, alsoPid, running, _⟩ := sound.consistent.current_runs current
      have same := sound.consistent.distinct (by simp [ready]) (by simp [running])
        (isPid.trans alsoPid.symm)
      rw [same, running] at ready
      cases ready
  | _ => cases isFrame

/-! ## Results -/

/-- A response to a call not yet recorded. -/
def unrecorded (system : System) (input : Input) : Option (UInt32 × UInt64) :=
  match system.stage, input.received with
  | .doing (.polling _ _), some (.inr ⟨callId, some status, body⟩) =>
    (List.finRange Percpu.maxCpus).findSome? fun cpu =>
      match system.phase cpu with
      | .calling (.sent id call) =>
        if id = callId then
          let entry := InFlight.ofCall id input.now call
          some (call.pid, (entry.receive input.copies body).result status)
        else none
      | _ => none
  | _, _ => none

/-- The result that the supervising CPU comes to have for a process in a step: it
decides a request, fails to send an approved call, or receives a response. -/
def decides (setting : Approvals.Setting) (system : System) : Label → Option (UInt32 × UInt64)
  | .supervise input =>
    match system.stage with
    | .waking _ _ _ | .doing (.expiring _ _ _) => none
    | _ =>
      match (system.supervise setting input).stage with
      | .waking pid result _ => some (pid, result)
      | _ => system.unrecorded input
  | _ => none

/-- A response does not come before its call is recorded. -/
def Recorded (system : System) : Label → Prop
  | .supervise input => system.unrecorded input = none
  | _ => True

/-- The process is blocked when it is woken. -/
def Parked (pid : UInt32) (system : System) : Label → Prop
  | .supervise _ =>
    match system.stage with
    | .waking owner _ _ => owner = pid → system.table.Waits pid
    | _ => True
  | _ => True

/-- The process neither resumes nor is removed. -/
def Unresumed (pid : UInt32) (system : System) (label : Label) : Prop :=
  system.resumes pid label = none ∧ label ≠ .table (.takeForReap pid)

variable {labels : List Label}

theorem sound_after (fresh : Run.Along (step setting) Fresh boot labels) :
    Sound (boot.after setting labels) :=
  invariant sound_boot (fun _ _ sound fresh => sound.step fresh) fresh

theorem waking_of_decides (decided : system.decides setting label = some (pid, result))
    (recorded : system.Recorded label) :
    ∃ task, (system.step setting label).stage = .waking pid result task := by
  cases label with
  | supervise input =>
    simp only [decides] at decided
    split at decided
    · cases decided
    · cases decided
    split at decided
    · rename_i owner answer task isStage
      obtain ⟨rfl, rfl⟩ := Prod.mk.inj (Option.some.inj decided)
      exact ⟨task, isStage⟩
    · rw [recorded] at decided
      cases decided
  | _ => cases decided

theorem stage_of_waking (isStage : system.stage = .waking pid result task)
    (notSupervise : ∀ input, label ≠ .supervise input) :
    (system.step setting label).stage = .waking pid result task := by
  cases label with
  | table op =>
    simp only [step]
    split_ifs with goes
    · cases op with
      | select => simp [allows, isStage] at goes
      | _ => exact isStage
    · exact isStage
  | send cpu handle prepared asking answer =>
    simp only [step, whenFree, sysSend]
    split_ifs
    · split <;> exact isStage
    · exact isStage
  | toolCall cpu handle lookup asking =>
    simp only [step, whenFree, sysToolCall]
    split_ifs
    · split
      · exact isStage
      · split_ifs <;> exact isStage
    · exact isStage
  | advance cpu input =>
    simp only [step, advance]
    split
    · split <;> exact isStage
    · exact isStage
  | park cpu frame =>
    simp only [step, park]
    split_ifs
    · split <;> exact isStage
    · exact isStage
  | supervise input => exact absurd rfl (notSupervise input)

theorem answered_step (sound : Sound system) (answered : system.table.Answered pid result)
    (unresumed : system.Unresumed pid label) :
    (system.step setting label).table.Answered pid result := by
  have change := @step_table setting system label
  generalize system.step setting label = next at change ⊢
  cases change with
  | same sameTable =>
    rw [sameTable]
    exact answered
  | operated op isLabel isTable isResumed =>
    rw [isTable]
    refine answered.step sound.consistent ?_ ((isResumed pid).symm.trans unresumed.1)
    rintro rfl
    exact unresumed.2 isLabel
  | parked cpu frame isTable | woken owner answer isTable =>
    rw [isTable]
    refine answered.step sound.consistent (by simp) ?_
    simp only [resumed, events]
    split <;> rfl

theorem answered_after (sound : Sound system) (answered : system.table.Answered pid result)
    (fresh : Run.Along (step setting) Fresh system labels)
    (unresumed : Run.Along (step setting) (Unresumed pid) system labels) :
    (system.after setting labels).table.Answered pid result := by
  have both : ∀ system label, Sound system ∧ system.table.Answered pid result →
      system.Fresh label ∧ system.Unresumed pid label →
      Sound (system.step setting label) ∧ (system.step setting label).table.Answered pid result :=
    fun _ _ holds met => ⟨holds.1.step met.1, answered_step holds.1 holds.2 met.2⟩
  exact (invariant ⟨sound, answered⟩ both (along_and fresh unresumed)).2

/-- The result that is at hand reaches the process as long as it does not resume. -/
theorem delivered_of_waking (sound : Sound system)
    (isStage : system.stage = .waking pid result task)
    (fresh : Run.Along (step setting) Fresh system labels)
    (parked : Run.Along (step setting) (Parked pid) system labels)
    (unresumed : Run.Along (step setting) (Unresumed pid) system labels) :
    let last := system.after setting labels
    (last.stage = .waking pid result task ∧ ∀ input, .supervise input ∉ labels) ∨
      last.table.Answered pid result := by
  induction labels generalizing system with
  | nil => exact .inl ⟨isStage, fun _ => List.not_mem_nil⟩
  | cons label rest ih =>
    have soundNext := @Sound.step setting system label sound fresh.1
    by_cases supervises : ∃ input, label = .supervise input
    · obtain ⟨input, rfl⟩ := supervises
      right
      -- The process is blocked, so it has its result from here on.
      have waits : system.table.Waits pid := by
        have condition := parked.1
        simp only [Parked, isStage] at condition
        exact condition trivial
      have answered : (system.step setting (.supervise input)).table.Answered pid result := by
        rw [show (system.step setting (.supervise input)).table = _ from
          supervise_of_waking isStage input]
        exact waits.answered sound.consistent result
      have lasting := answered_after soundNext answered fresh.2 unresumed.2
      exact lasting
    · have notSupervise : ∀ input, label ≠ .supervise input :=
        fun input isLabel => supervises ⟨input, isLabel⟩
      obtain ⟨still, absent⟩ | answered :=
        ih soundNext (stage_of_waking isStage notSupervise) fresh.2 parked.2 unresumed.2
      · refine .inl ⟨still, fun input present => ?_⟩
        obtain isHead | later := List.mem_cons.mp present
        · exact notSupervise input isHead.symm
        · exact absent input later
      · exact .inr answered

/-- A result that comes in time, for a call that is recorded and a process that is
blocked when it is woken, is in the frame of the process from the next step of the
supervising CPU on, and is what the process resumes with. -/
theorem result_in_time_delivered
    (setting : Approvals.Setting)
    (early late : List Label)
    (label : Label)
    (pid : UInt32)
    (result : UInt64)
    (fresh : Run.Along (step setting) Fresh boot (early ++ label :: late))
    (decided : (boot.after setting early).decides setting label = some (pid, result))
    (recorded : (boot.after setting early).Recorded label)
    (parked : Run.Along (step setting) (Parked pid) (boot.after setting (early ++ [label])) late)
    (unresumed : Run.Along (step setting) (Unresumed pid)
      (boot.after setting (early ++ [label])) late) :
    let last := boot.after setting (early ++ label :: late)
    ((∃ input, .supervise input ∈ late) → last.table.Answered pid result) ∧
      ∀ next frame, last.resumes pid next = some frame → frame.rax = result := by
  have isStart : boot.after setting (early ++ [label]) =
      (boot.after setting early).step setting label := by
    simp only [after, after_append, after_cons, after_nil]
  have isLast : boot.after setting (early ++ label :: late) =
      (boot.after setting (early ++ [label])).after setting late := by
    simp only [after, after_append, after_cons, after_nil]
  obtain ⟨freshEarly, freshLabel, freshLate⟩ := along_append.mp fresh
  obtain ⟨task, isStage⟩ := waking_of_decides decided recorded
  have sound := @Sound.step setting _ label (sound_after freshEarly) freshLabel
  rw [isStart] at parked unresumed
  have soundLast := sound_after fresh
  have delivered := delivered_of_waking sound isStage freshLate parked unresumed
  rw [← isStart, ← isLast] at delivered
  obtain ⟨still, absent⟩ | answered := delivered
  · refine ⟨fun ⟨input, present⟩ => absurd present (absent input), ?_⟩
    intro next frame resumed
    rw [soundLast.not_resumed (soundLast.attended _ (by simp [owed, held, still]))] at resumed
    cases resumed
  · refine ⟨fun _ => answered, ?_⟩
    intro next frame resumed
    cases next with
    | table op =>
      simp only [resumes, Option.ite_none_right_eq_some] at resumed
      exact (ready_of_resumed soundLast.consistent resumed.2).unique soundLast.consistent answered
    | _ => cases resumed

/-! ## Sample runs -/

/-- No operator keys are pinned, so requests are decided at the console. -/
def consoleSetting : Approvals.Setting where
  crypto := Link.sampleCrypto
  operators := Approvals.loadOperators Link.sampleCrypto []
  issuer := .replicate 16 7

def sampleFrame : TrapFrame := { TrapFrame.userEntry 0x400000 0x7000 with rax := 9 }

def sampleInput (now : UInt64) : Input where
  approved := true
  answer := ⟨true, none, none⟩
  encodes := true
  sealed := true
  received := none
  copies := true
  now := now

def supervises (count : Nat) : List Label := List.replicate count (.supervise (sampleInput 0))

/-- A process runs on CPU 1 and sends a message that takes an approval. -/
def gatedSend : List Label :=
  [.table (.insert 1 0x400000 0x7000 0x1000), .table (.select .allReady [1]),
    .table (.dispatchNext 1),
    .send 1 3
      (.ok (⟨ascii "obj-2", [.sendMessage, .requiresApproval]⟩, ascii "hello"))
      ⟨"hello".toList, 1, 60, ⟨true, true, 0⟩⟩ ⟨true, none, none⟩]

/-- The process is blocked and its request is about to be decided. -/
def parkedSend : List Label := gatedSend ++ [.park 1 sampleFrame] ++ supervises 2

/-- The request is decided and the process woken before it is blocked. -/
def hastySend : List Label := gatedSend ++ supervises 4 ++ [.park 1 sampleFrame]

/-- Two processes call a tool.  The call of the first is recorded; the call of the
second is sent. -/
def twoCalls : List Label :=
  let call (cpu : Cpu) : Label :=
    .toolCall cpu 4
      ⟨none, ascii "args", 0x5000, 16, true, true, some ⟨ascii "tool-1", [.execute]⟩, true,
        some (ascii "echo"), true, true, some 0x1000⟩
      ⟨[], 1, 60, ⟨true, true, 0⟩⟩
  let advance (cpu : Cpu) : Label := .advance cpu (sampleInput 0)
  [.table (.insert 1 0x400000 0x7000 0x1000), .table (.insert 2 0x400000 0x7000 0x2000),
    .table (.select .allReady [1, 2]), .table (.dispatchNext 1), .table (.dispatchNext 2),
    call 1, advance 1, advance 1, advance 1, .park 1 sampleFrame,
    call 2, advance 2, advance 2] ++ supervises 2

def secondResponse : Label :=
  .supervise { sampleInput 0 with received := some (.inr ⟨2, some .ok, ascii "ok"⟩) }

/-- The call is recorded, its process blocks, and in the end the calls time out. -/
def timeOut : List Label := [.advance 2 (sampleInput 0), .park 2 sampleFrame] ++ supervises 8 ++
    List.replicate 7 (.supervise (sampleInput 40000000000))

/-- The approved request of a process that is blocked in time. -/
theorem result_in_time_delivered_sample :
    (boot.after consoleSetting parkedSend).decides consoleSetting
        (.supervise (sampleInput 0)) = some (1, 0) ∧
      let last := boot.after consoleSetting
        (parkedSend ++ .supervise (sampleInput 0) :: supervises 1)
      last.table.Answered 1 0 ∧ ∀ next frame, last.resumes 1 next = some frame → frame.rax = 0 := by
  have decided : (boot.after consoleSetting parkedSend).decides consoleSetting
      (.supervise (sampleInput 0)) = some (1, 0) := by decide +kernel
  have recorded : (boot.after consoleSetting parkedSend).unrecorded (sampleInput 0) = none := by
    decide +kernel
  have delivered := result_in_time_delivered consoleSetting parkedSend (supervises 1)
    (.supervise (sampleInput 0)) 1 0 (by decide +kernel) decided recorded
    ⟨fun _ => ⟨0, by decide +kernel, by decide +kernel⟩, trivial⟩
    ⟨⟨rfl, nofun⟩, trivial⟩
  exact ⟨decided, delivered.1 ⟨_, List.mem_singleton_self _⟩, delivered.2⟩

/-- An approval that comes before its process is blocked is lost: the process waits,
and nothing is outstanding for it.  A response that comes before its call is recorded
is lost too: the process resumes with a time-out. -/
theorem result_before_block_lost : (Run.Along (step consoleSetting) Fresh boot hastySend ∧
      (boot.after consoleSetting (gatedSend ++ supervises 2)).decides consoleSetting
        (.supervise (sampleInput 0)) = some (1, 0) ∧
      let last := boot.after consoleSetting (hastySend ++ supervises 6)
      last.stage = .release ∧ last.table.blockedScheduled = [1] ∧
        last.agents.queue.items = [] ∧ last.tools.inflight.items = [] ∧
        (last.table.slots 0).frame.rax = 9) ∧
    Run.Along (step consoleSetting) Fresh boot (twoCalls ++ secondResponse :: timeOut) ∧
      (boot.after consoleSetting twoCalls).decides consoleSetting secondResponse = some (2, 2) ∧
      let last := boot.after consoleSetting (twoCalls ++ secondResponse :: timeOut)
      (last.resumes 2 (.table (.dispatchNext 2))).map TrapFrame.rax =
        some (Agent.err Agent.ETIMEDOUT) := by
  decide +kernel

/-- At most one request or call is outstanding for a process at any point of a run, and the
process is blocked or still in its system call. -/
theorem one_outstanding_per_process
    (fresh : Run.Along (step setting) Fresh boot labels) :
    let system := boot.after setting labels
    system.owed.Nodup ∧ (∀ pid ∈ system.owed, system.Attended pid) ∧
      ∀ cpu sending, system.phase cpu = .calling sending →
        system.table.current cpu = some sending.call.pid ∧ sending.call.pid ∉ system.owed :=
  have sound := sound_after fresh
  ⟨sound.distinct, sound.attended, sound.calling⟩

/-- The call of the first process is in flight; that of the second is being sent. -/
theorem one_outstanding_per_process_sample :
    let system := boot.after consoleSetting twoCalls
    system.owed = {1} ∧ system.owed.Nodup ∧ system.Attended 1 ∧
      ∃ sending, system.phase 2 = .calling sending ∧
        system.table.current 2 = some sending.call.pid ∧ sending.call.pid ∉ system.owed := by
  intro system
  obtain ⟨distinct, attended, calling⟩ :=
    @one_outstanding_per_process consoleSetting twoCalls (by decide +kernel)
  have owes : system.owed = {1} := by decide +kernel
  have notFree : system.phase 2 ≠ .free := by decide +kernel
  have notParking : system.phase 2 ≠ .parking := by decide +kernel
  refine ⟨owes, distinct, attended 1 (by rw [owes]; exact Multiset.mem_singleton_self 1), ?_⟩
  cases phase : system.phase 2 with
  | free => exact absurd phase notFree
  | calling sending => exact ⟨sending, rfl, calling 2 sending phase⟩
  | parking => exact absurd phase notParking

end System

end Cdk.Processes

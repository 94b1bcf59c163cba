import Cdk.Processes.Waiting
import Mathlib.Algebra.Order.Group.Multiset

/-!
# What is outstanding for a process

A request or a call is outstanding from when it is queued or recorded until the
supervising CPU has woken its process.  At most one is outstanding for a process,
and that process is blocked or still in its system call.
-/

namespace Cdk.Processes
namespace System

open ByteFormat ProcessTable Agent BoundedVec Function

variable {setting : Approvals.Setting} {system next : System} {label : Label}
  {cpu other : Cpu} {pid : UInt32}

/-! ## What is outstanding -/

def queued (agents : Agents) : Multiset UInt32 := agents.queue.items.map Pending.pid

def flying (tools : Tools) : Multiset UInt32 := tools.inflight.items.map InFlight.pid

/-- The process whose request or result the supervising CPU has at hand. -/
def held : Stage → Multiset UInt32
  | .deciding _ request => {request.pid}
  | .dispatching _ sending => {sending.call.pid}
  | .waking pid _ _ => {pid}
  | _ => 0

/-- The processes for which a request or a call is outstanding. -/
def owed (system : System) : Multiset UInt32 :=
  queued system.agents + held system.stage + flying system.tools

variable {request : Pending}

theorem queued_of_popFront {queue rest : BoundedVec Pending maxPending}
    (popped : queue.popFront = some (request, rest)) : queue.items = request :: rest.items := by
  obtain ⟨items, fits⟩ := queue
  cases items with
  | nil => cases popped
  | cons first others =>
    obtain ⟨rfl, rfl⟩ := Prod.mk.inj (Option.some.inj popped)
    rfl

theorem queued_of_takeRequest (taken : system.takeRequest setting = some (request, queue)) :
    queued system.agents = request.pid ::ₘ (queue.items.map Pending.pid : List UInt32) := by
  unfold takeRequest at taken
  unfold queued
  split_ifs at taken
  · obtain ⟨isNone, _⟩ | ⟨early, item, late, others, items, _, isSome, rest⟩ :=
      system.agents.queue.takeFirst_cases (ready system.agents.desk)
    · rw [isNone] at taken
      cases taken
    · rw [isSome] at taken
      obtain ⟨rfl, rfl⟩ := Prod.mk.inj (Option.some.inj taken)
      rw [items, rest, Multiset.cons_coe, Multiset.coe_eq_coe]
      simp only [List.map_append, List.map_cons]
      exact List.perm_middle.trans (List.Perm.cons _ List.perm_append_comm)
  · rw [queued_of_popFront taken]
    rfl

theorem flying_of_swapRemove {calls rest : BoundedVec InFlight maxInFlight}
    (removed : calls.swapRemove? place = some (call, rest)) :
    ((calls.items.map InFlight.pid : List UInt32) : Multiset UInt32) =
      call.pid ::ₘ (rest.items.map InFlight.pid : List UInt32) := by
  rw [Multiset.cons_coe, Multiset.coe_eq_coe]
  exact (swapRemove?_perm removed).map InFlight.pid

theorem map_pid_modify (calls : List InFlight) (place : Nat) (copies : Bool) (body : Bytes) :
    (calls.modify place (InFlight.receive copies body)).map InFlight.pid =
      calls.map InFlight.pid := by
  induction calls generalizing place with
  | nil => cases place <;> rfl
  | cons call rest ih =>
    cases place with
    | zero => rfl
    | succ place => exact congrArg (call.pid :: ·) (ih place)

/-- A part of a result takes out the call that it finishes, and nothing else. -/
inductive Delivered (tools : Tools) : Tools × Option (UInt32 × UInt64) → Prop
  | open {later : Tools} (same : flying later = flying tools) : Delivered tools (later, none)
  | finished {later : Tools} {pid : UInt32} (result : UInt64)
      (taken : flying tools = pid ::ₘ flying later) : Delivered tools (later, some (pid, result))

theorem deliver_delivered (tools : Tools) (copies : Bool) (message : CallMessage) :
    Delivered tools (tools.deliver copies message) := by
  unfold Tools.deliver
  cases tools.inflight.items.findIdx? fun call => call.callId == message.callId with
  | none => exact .open rfl
  | some place =>
    have samePids := map_pid_modify tools.inflight.items place copies message.body
    simp only
    split
    · rename_i status call rest _ removed
      have taken := flying_of_swapRemove removed
      rw [samePids] at taken
      exact .finished _ taken
    · exact .open (congrArg (fun pids : List UInt32 => (pids : Multiset UInt32)) samePids)

theorem flying_of_takeExpired {tools rest : Tools}
    (taken : tools.takeExpired now = some (pid, rest)) : flying tools = pid ::ₘ flying rest := by
  unfold Tools.takeExpired at taken
  obtain ⟨place, _, removed⟩ := Option.bind_eq_some_iff.mp taken
  obtain ⟨⟨call, others⟩, isRemoved, isTaken⟩ := Option.map_eq_some_iff.mp removed
  obtain ⟨rfl, rfl⟩ := Prod.mk.inj isTaken
  exact flying_of_swapRemove isRemoved

/-- Sending a call records it at the end, if at all. -/
inductive Advanced (tools : Tools) (sending : Sending) :
    Tools × Except UInt64 (Option Sending) → Prop
  | failed {later : Tools} (code : UInt64) (same : flying later = flying tools) :
      Advanced tools sending (later, .error code)
  | went {later : Tools} {farther : Sending} (same : flying later = flying tools)
      (sameCall : farther.call = sending.call) : Advanced tools sending (later, .ok (some farther))
  | recorded {later : Tools} (added : flying later ≤ sending.call.pid ::ₘ flying tools) :
      Advanced tools sending (later, .ok none)

theorem advance_advanced (input : Input) (tools : Tools) (sending : Sending) :
    Advanced tools sending (sending.advance input tools) := by
  cases sending with
  | prepared call =>
    simp only [Sending.advance]
    split_ifs
    · exact .failed _ rfl
    · exact .failed _ rfl
    · exact .went rfl rfl
  | checked callId call =>
    simp only [Sending.advance]
    split_ifs
    · exact .went rfl rfl
    · exact .failed _ rfl
  | sent callId call =>
    apply Advanced.recorded
    simp only [flying, Sending.call]
    cases pushed : tools.inflight.push? (.ofCall callId input.now call) with
    | none => exact Multiset.le_cons_self _ _
    | some calls =>
      have items := (push?_eq_some_iff.mp pushed).2
      rw [Option.getD_some, items, List.map_append, Multiset.cons_coe, Multiset.coe_le]
      exact (List.perm_append_singleton _ _).subperm

/-- A request that is queued is the caller's. -/
theorem queued_enqueue (asking : Asking) (pid : UInt32) (handle : UInt64)
    (capability : Capability) (payload : Bytes) (action : Action) (agents : Agents) :
    let outcome := enqueue setting asking pid handle capability payload action agents
    queued outcome.1 = if outcome.2 then pid ::ₘ queued agents else queued agents := by
  have keepsPid : ∀ (request : Pending) desk,
      (openSigned setting asking request desk).2.pid = request.pid := by
    intro request desk
    unfold openSigned
    split
    · rfl
    · simp only
      split <;> rfl
  have pushes : ∀ (request : Pending) queue,
      agents.queue.push? request = some queue → request.pid = pid →
      ((queue.items.map Pending.pid : List UInt32) : Multiset UInt32) = pid ::ₘ queued agents := by
    rintro request queue pushed rfl
    rw [(push?_eq_some_iff.mp pushed).2, List.map_append, queued,
      Multiset.cons_coe, Multiset.coe_eq_coe]
    exact List.perm_append_singleton _ _
  unfold enqueue
  simp only
  by_cases long : payload.length > pendingPayload
  · rw [if_pos long]
    rfl
  rw [if_neg long]
  split
  · rfl
  rename_i queue pushed
  apply pushes _ queue pushed
  by_cases signing : signedMode setting
  · rw [if_pos signing]
    exact keepsPid _ _
  · rw [if_neg signing]

/-! ## What a step does -/

/-- What a step does to the table, to the CPUs and to what is outstanding. -/
inductive Turn (system next : System) : Prop
  | noted (sameTable : next.table = system.table) (samePhase : next.phase = system.phase)
      (fewer : next.owed ≤ system.owed)
  | operated (op : Op) (isTable : next.table = system.table.step op)
      (samePhase : next.phase = system.phase) (sameOwed : next.owed = system.owed)
      (fresh : system.table.Fresh op) (isFree : ∀ cpu, op.cpu = some cpu → system.phase cpu = .free)
      (noUnblock : ∀ pid result, op ≠ .unblock pid result)
  | asked (cpu : Cpu) (pid : UInt32) (sameTable : next.table = system.table)
      (current : system.table.current cpu = some pid) (isFree : system.phase cpu = .free)
      (isPhase : next.phase = update system.phase cpu .parking)
      (added : next.owed = pid ::ₘ system.owed)
  | called (cpu : Cpu) (sending : Sending) (sameTable : next.table = system.table)
      (current : system.table.current cpu = some sending.call.pid)
      (isFree : system.phase cpu = .free)
      (isPhase : next.phase = update system.phase cpu (.calling sending))
      (sameOwed : next.owed = system.owed)
  | went (cpu : Cpu) (sending later : Sending) (sameTable : next.table = system.table)
      (isCalling : system.phase cpu = .calling sending) (sameCall : later.call = sending.call)
      (isPhase : next.phase = update system.phase cpu (.calling later))
      (sameOwed : next.owed = system.owed)
  | failed (cpu : Cpu) (sending : Sending) (sameTable : next.table = system.table)
      (isCalling : system.phase cpu = .calling sending)
      (isPhase : next.phase = update system.phase cpu .free)
      (sameOwed : next.owed = system.owed)
  | recorded (cpu : Cpu) (sending : Sending) (sameTable : next.table = system.table)
      (isCalling : system.phase cpu = .calling sending)
      (isPhase : next.phase = update system.phase cpu .parking)
      (added : next.owed ≤ sending.call.pid ::ₘ system.owed)
  | parked (cpu : Cpu) (frame : TrapFrame)
      (isTable : next.table = system.table.step (.blockCurrent cpu frame))
      (isPhase : next.phase = update system.phase cpu .free)
      (sameOwed : next.owed = system.owed)
  | woken (pid : UInt32) (result : UInt64)
      (isTable : next.table = system.table.step (.unblock pid result))
      (samePhase : next.phase = system.phase) (removed : system.owed = pid ::ₘ next.owed)

theorem owed_of_nothing (nothing : held system.stage = 0) :
    system.owed = queued system.agents + flying system.tools := by
  rw [owed, nothing, add_zero]

theorem Turn.refl : Turn system system := .noted rfl rfl le_rfl

theorem Turn.congr (sameTable : next.table = system.table) (samePhase : next.phase = system.phase)
    (sameOwed : next.owed = system.owed) : Turn system next :=
  .noted sameTable samePhase sameOwed.le

/-! ### System calls -/

/-- The outcome of `enqueue` on a CPU. -/
theorem enqueue_turn {agents : Agents} {accepted : Bool} (isQueued : queued agents =
      if accepted then pid ::ₘ queued system.agents else queued system.agents)
    (current : system.table.current cpu = some pid) (isFree : system.phase cpu = .free) :
    let called := { system with agents := agents }
    Turn system (if accepted then called.setPhase cpu .parking else called) := by
  cases accepted with
  | false =>
    refine .congr rfl rfl ?_
    exact congrArg (· + held system.stage + flying system.tools) isQueued
  | true =>
    refine .asked cpu pid rfl current isFree rfl ?_
    have grown : queued agents + held system.stage + flying system.tools = pid ::ₘ system.owed := by
      rw [isQueued, if_pos rfl, Multiset.cons_add, Multiset.cons_add, owed]
    exact grown

theorem sysSend_turn (isFree : system.phase cpu = .free) (handle : UInt64)
    (prepared : Except UInt64 (Capability × Bytes)) (asking : Asking) (answer : Answer) :
    Turn system (system.sysSend setting cpu handle prepared asking answer) := by
  unfold sysSend sysSendOutcome
  cases current : system.table.current cpu with
  | none => exact .refl
  | some pid =>
    cases prepared with
    | error code => exact .refl
    | ok found =>
      obtain ⟨capability, payload⟩ := found
      simp only
      split_ifs
      · exact .congr rfl rfl rfl
      · exact .refl
      have isQueued := @queued_enqueue setting asking pid handle capability payload .send
        system.agents
      generalize enqueue setting asking pid handle capability payload .send
        system.agents = outcome at isQueued
      obtain ⟨agents, accepted⟩ := outcome
      have turn := enqueue_turn isQueued current isFree
      cases accepted <;> exact turn

theorem pid_of_checkTool (checked : checkTool lookup = .ok (capability, call)) :
    lookup.pid = some call.pid := by
  unfold checkTool at checked
  cases isPid : lookup.pid with
  | none => simp [isPid] at checked
  | some pid =>
    simp only [isPid, bind, Except.bind] at checked
    repeat' split at checked
    all_goals cases checked
    rfl

theorem sysToolCall_turn (isFree : system.phase cpu = .free) (handle : UInt64)
    (lookup : ToolLookup) (asking : Asking) :
    Turn system (system.sysToolCall setting cpu handle lookup asking) := by
  unfold sysToolCall
  cases checked : checkTool { lookup with pid := system.table.current cpu } with
  | error code => exact .refl
  | ok found =>
    obtain ⟨capability, call⟩ := found
    have current : system.table.current cpu = some call.pid := pid_of_checkTool checked
    simp only
    by_cases gated : capability.hasPermission .requiresApproval
    · have isQueued := @queued_enqueue setting asking call.pid handle capability call.args
        (.tool call.tool call.outPtr call.outLen call.pml4) system.agents
      rw [if_pos gated]
      exact enqueue_turn isQueued current isFree
    · rw [if_neg gated]
      exact .called cpu (.prepared call) rfl current isFree rfl rfl

theorem advance_turn (cpu : Cpu) (input : Input) : Turn system (system.advance cpu input) := by
  unfold advance
  cases isPhase : system.phase cpu with
  | free | parking => exact .refl
  | calling sending =>
    have advanced := advance_advanced input system.tools sending
    simp only
    generalize sending.advance input system.tools = outcome at advanced ⊢
    cases advanced with
    | failed code same =>
      exact .failed cpu sending rfl isPhase rfl (congrArg (_ + ·) same)
    | went same sameCall =>
      exact .went cpu sending _ rfl isPhase sameCall rfl (congrArg (_ + ·) same)
    | recorded added =>
      refine .recorded cpu sending rfl isPhase rfl ?_
      exact (add_le_add_right added _).trans_eq (Multiset.add_cons _ _ _)

theorem park_turn (cpu : Cpu) (frame : TrapFrame) : Turn system (system.park cpu frame) := by
  unfold park
  cases isPhase : system.phase cpu with
  | free | calling => exact .refl
  | parking => exact .parked cpu frame rfl rfl rfl

/-! ### The supervising CPU -/

theorem operate_turn (fresh : system.table.Fresh op) (allowed : system.allows op) :
    Turn system (system.operate op) := by
  have isFree : ∀ cpu, op.cpu = some cpu → system.phase cpu = .free := by
    intro cpu isOwn
    cases op <;> simp_all [allows, Op.cpu]
  have noUnblock : ∀ pid result, op ≠ .unblock pid result := by
    rintro pid result rfl
    cases allowed
  cases op with
  | select which homes =>
    have isIdle : system.stage = .idle := by simpa [allows] using allowed
    unfold operate
    simp only
    split
    · refine .operated (.select which homes) rfl rfl ?_ fresh isFree noUnblock
      simp [owed, setStage, isIdle, held]
    · exact .operated (.select which homes) rfl rfl rfl fresh isFree noUnblock
  | _ => exact .operated _ rfl rfl rfl fresh isFree noUnblock

theorem setStage_turn {stage : Stage} (nothing : held system.stage = 0)
    (stillNothing : held stage = 0) : Turn system (system.setStage stage) := by
  refine .congr rfl rfl ?_
  rw [owed_of_nothing nothing, owed_of_nothing stillNothing]
  rfl

theorem held_enterResolve (late : Bool) : held (enterResolve setting late) = 0 := by
  unfold enterResolve
  split_ifs <;> rfl

theorem resolve_turn (nothing : held system.stage = 0) (late : Bool) :
    Turn system (system.resolve setting late) := by
  unfold resolve
  cases taken : system.takeRequest setting with
  | none =>
    apply setStage_turn nothing
    cases late <;> rfl
  | some found =>
    obtain ⟨request, queue⟩ := found
    refine .congr rfl rfl ?_
    rw [owed_of_nothing nothing, queued_of_takeRequest taken, ← Multiset.singleton_add,
      add_comm ({request.pid} : Multiset UInt32)]
    rfl

/-- The request at hand stays at hand. -/
theorem decideRequest_turn (isStage : system.stage = .deciding late request) (input : Input) :
    Turn system (system.decideRequest setting late request input) := by
  unfold decideRequest
  simp only
  split
  all_goals
    refine .congr rfl rfl ?_
    simp only [owed, setStage, held, isStage]
    rfl

variable {sending : Sending}

theorem superviseSending_turn (isStage : system.stage = .dispatching late sending) (input : Input) :
    Turn system (system.superviseSending late sending input) := by
  have advanced := advance_advanced input system.tools sending
  unfold superviseSending
  generalize sending.advance input system.tools = outcome at advanced ⊢
  cases advanced with
  | failed code same =>
    refine .congr rfl rfl ?_
    simp only [owed, setStage, held, isStage, same]
  | went same sameCall =>
    refine .congr rfl rfl ?_
    simp only [owed, setStage, held, isStage, same, sameCall]
  | recorded added =>
    refine .noted rfl rfl ?_
    simp only [owed, setStage, held, isStage, add_zero]
    rw [add_assoc, Multiset.singleton_add]
    exact add_le_add_right added _

theorem poll_turn (nothing : held system.stage = 0) (site : PollSite) (done : Nat) (input : Input) :
    Turn system (system.poll setting site done input) := by
  unfold poll
  split
  · exact setStage_turn nothing rfl
  · exact .congr rfl rfl rfl
  rename_i message _
  have delivered := deliver_delivered system.tools input.copies message
  simp only
  generalize system.tools.deliver input.copies message = outcome at delivered ⊢
  cases delivered with
  | «open» same =>
    refine .congr rfl rfl ?_
    rw [owed_of_nothing nothing, ← same]
    exact owed_of_nothing rfl
  | @finished _ pid result taken =>
    refine .congr rfl rfl ?_
    rw [owed_of_nothing nothing, taken, ← Multiset.singleton_add, ← add_assoc]
    rfl

theorem afterPoll_turn (nothing : held system.stage = 0) (site : PollSite) (now : UInt64)
    (done : Nat) : Turn system (system.afterPoll site now done) := by
  have stages : ∀ {stage : Stage} (desk : Approvals.Desk), held stage = 0 →
      Turn system ({ system with agents := { system.agents with desk } }.setStage stage) := by
    intro stage desk stillNothing
    refine .congr rfl rfl ?_
    rw [owed_of_nothing nothing]
    exact owed_of_nothing stillNothing
  unfold afterPoll
  cases site with
  | inflight => exact setStage_turn nothing rfl
  | waitProgress =>
    apply setStage_turn nothing
    split_ifs <;> rfl
  | pump late => exact stages _ rfl
  | waitAny =>
    apply stages
    split_ifs <;> rfl

theorem expire_turn (nothing : held system.stage = 0) (site : PollSite) (now : UInt64)
    (done : Nat) : Turn system (system.expire site now done) := by
  unfold expire
  cases taken : system.tools.takeExpired now with
  | none => exact afterPoll_turn nothing site now done
  | some found =>
    obtain ⟨pid, tools⟩ := found
    refine .congr rfl rfl ?_
    rw [owed_of_nothing nothing, flying_of_takeExpired taken, ← Multiset.singleton_add, ← add_assoc]
    rfl

theorem supervise_turn (input : Input) : Turn system (system.supervise setting input) := by
  unfold supervise
  cases isStage : system.stage with
  | idle | stuck => exact .refl
  | pending =>
    apply setStage_turn (by rw [isStage]; rfl)
    split_ifs
    · rfl
    · exact held_enterResolve false
  | inflight | progress | waitProgress | release | signed =>
    apply setStage_turn (by rw [isStage]; rfl)
    split_ifs <;> rfl
  | outstanding =>
    apply setStage_turn (by rw [isStage]; rfl)
    split_ifs
    · rfl
    · rfl
    · exact held_enterResolve true
  | doing task =>
    have nothing : held system.stage = 0 := by rw [isStage]; rfl
    cases task with
    | resolving late => exact resolve_turn nothing late
    | polling site done => exact poll_turn nothing site done input
    | expiring site now done => exact expire_turn nothing site now done
  | deciding late request => exact decideRequest_turn isStage input
  | dispatching late sending => exact superviseSending_turn isStage input
  | waking pid result task =>
    refine .woken pid result rfl rfl ?_
    simp only [owed, setStage, held, isStage, add_zero]
    rw [add_comm (queued _), add_assoc, Multiset.singleton_add]

theorem step_turn (fresh : system.Fresh label) : Turn system (system.step setting label) := by
  cases label with
  | table op =>
    simp only [step]
    split_ifs with goes
    · exact operate_turn fresh goes.2
    · exact .refl
  | send cpu handle prepared asking answer =>
    simp only [step, whenFree]
    split_ifs with goes
    · exact sysSend_turn goes.2 handle prepared asking answer
    · exact .refl
  | toolCall cpu handle lookup asking =>
    simp only [step, whenFree]
    split_ifs with goes
    · exact sysToolCall_turn goes.2 handle lookup asking
    · exact .refl
  | advance cpu input => exact advance_turn cpu input
  | park cpu frame =>
    simp only [step]
    split_ifs
    · exact park_turn cpu frame
    · exact .refl
  | supervise input => exact supervise_turn input

/-! ## At most one thing is outstanding for a process -/

/-- The process is blocked, or still in its system call. -/
def Attended (system : System) (pid : UInt32) : Prop := system.table.Waits pid ∨
    ∃ cpu, system.table.current cpu = some pid ∧ system.phase cpu ≠ .free

/-- At most one request or call is outstanding for a process. -/
structure Sound (system : System) : Prop where
  consistent : system.table.Consistent
  distinct : system.owed.Nodup
  attended : ∀ pid ∈ system.owed, system.Attended pid
  /-- Nothing is outstanding for a process whose call is being sent. -/
  calling : ∀ cpu sending, system.phase cpu = .calling sending →
    system.table.current cpu = some sending.call.pid ∧ sending.call.pid ∉ system.owed

theorem sound_boot : Sound boot where
  consistent := consistent_new
  distinct := Multiset.nodup_zero
  attended _ present := absurd present (Multiset.notMem_zero _)
  calling _ _ isCalling := nomatch isCalling

theorem Attended.congr (attended : system.Attended pid) (sameTable : next.table = system.table)
    (samePhase : next.phase = system.phase) : next.Attended pid := by
  unfold Attended
  rw [sameTable, samePhase]
  exact attended

/-- A CPU changes its phase, but does not leave the process alone. -/
theorem Attended.update {phase : Phase} (attended : system.Attended pid)
    (sameTable : next.table = system.table)
    (isPhase : next.phase = update system.phase cpu phase)
    (stays : system.table.current cpu = some pid → phase ≠ .free) : next.Attended pid := by
  obtain waits | ⟨owner, current, notFree⟩ := attended
  · exact .inl (by rwa [sameTable])
  refine .inr ⟨owner, by rwa [sameTable], ?_⟩
  rw [isPhase]
  by_cases isOwner : owner = cpu
  · subst owner
    rw [update_self]
    exact stays current
  · rwa [update_of_ne isOwner]

variable (sound : Sound system)
include sound

theorem Sound.phase_of_attended (attended : system.Attended pid)
    (current : system.table.current cpu = some pid) : system.phase cpu ≠ .free := by
  obtain waits | ⟨owner, onOwner, notFree⟩ := attended
  · exact absurd current (waits.not_current sound.consistent cpu)
  · rwa [sound.consistent.cpu_unique current onOwner]

theorem Sound.not_owed (current : system.table.current cpu = some pid)
    (isFree : system.phase cpu = .free) : pid ∉ system.owed :=
  fun isOwed => sound.phase_of_attended (sound.attended pid isOwed) current isFree

/-- Two CPUs do not run the process of one call. -/
theorem Sound.calling_of_update {phase : Phase}
    (isPhase : next.phase = update system.phase cpu phase)
    (notCalling : ∀ sending, phase ≠ .calling sending)
    (isCalling : next.phase other = .calling sending) :
    other ≠ cpu ∧ system.phase other = .calling sending ∧
      system.table.current other = some sending.call.pid ∧ sending.call.pid ∉ system.owed := by
  rw [isPhase] at isCalling
  by_cases isCpu : other = cpu
  · subst other
    rw [update_self] at isCalling
    exact absurd isCalling (notCalling sending)
  · rw [update_of_ne isCpu] at isCalling
    exact ⟨isCpu, isCalling, sound.calling other sending isCalling⟩

theorem Attended.operate (attended : system.Attended pid)
    (isTable : next.table = system.table.step op) (samePhase : next.phase = system.phase)
    (foreign : ∀ cpu, op.cpu = some cpu → system.phase cpu = .free)
    (noUnblock : ∀ result, op ≠ .unblock pid result) : next.Attended pid := by
  obtain waits | ⟨owner, current, notFree⟩ := attended
  · left
    rw [isTable]
    exact waits.step sound.consistent noUnblock
  · refine .inr ⟨owner, ?_, by rwa [samePhase]⟩
    rw [isTable, current_step_of_ne sound.consistent fun isOwn => notFree (foreign _ isOwn)]
    exact current

theorem Attended.park (attended : system.Attended pid)
    (isTable : next.table = system.table.step (.blockCurrent cpu frame))
    (isPhase : next.phase = Function.update system.phase cpu .free) : next.Attended pid := by
  obtain waits | ⟨owner, current, notFree⟩ := attended
  · left
    rw [isTable]
    exact waits.step sound.consistent fun _ => nofun
  by_cases isCpu : owner = cpu
  · subst owner
    left
    rw [isTable]
    exact waits_of_blockCurrent sound.consistent frame current
  · refine .inr ⟨owner, ?_, by rwa [isPhase, update_of_ne isCpu]⟩
    rw [isTable, current_step_of_ne sound.consistent]
    · exact current
    · intro isOwn
      exact isCpu (Option.some.inj isOwn).symm

/-- A request or a call of the process that a CPU runs is outstanding from now on. -/
theorem Sound.added (sameTable : next.table = system.table)
    (current : system.table.current cpu = some pid) (notOwed : pid ∉ system.owed)
    (isPhase : next.phase = update system.phase cpu .parking)
    (added : next.owed ≤ pid ::ₘ system.owed) : Sound next where
  consistent := sameTable ▸ sound.consistent
  distinct := Multiset.nodup_of_le added (Multiset.nodup_cons.mpr ⟨notOwed, sound.distinct⟩)
  attended := by
    intro owner isOwed
    obtain rfl | isOwed := Multiset.mem_cons.mp (Multiset.mem_of_le added isOwed)
    · refine .inr ⟨cpu, sameTable ▸ current, ?_⟩
      rw [isPhase, update_self]
      exact nofun
    · exact (sound.attended owner isOwed).update sameTable isPhase fun _ => nofun
  calling := by
    intro other sending isCalling
    obtain ⟨different, _, onOther, notOwedOther⟩ :=
      sound.calling_of_update isPhase (fun _ => nofun) isCalling
    refine ⟨sameTable ▸ onOther, fun isOwed => ?_⟩
    obtain samePid | isOwed := Multiset.mem_cons.mp (Multiset.mem_of_le added isOwed)
    · exact different (sound.consistent.cpu_unique (samePid ▸ onOther) current)
    · exact notOwedOther isOwed

theorem Sound.sends (sameTable : next.table = system.table)
    (own : system.table.current cpu = some sending.call.pid ∧ sending.call.pid ∉ system.owed)
    (isPhase : next.phase = update system.phase cpu (.calling sending))
    (sameOwed : next.owed = system.owed) : Sound next where
  consistent := sameTable ▸ sound.consistent
  distinct := sameOwed ▸ sound.distinct
  attended pid isOwed :=
    (sound.attended pid (sameOwed ▸ isOwed)).update sameTable isPhase fun _ => nofun
  calling := by
    intro other later isCalling
    rw [sameTable, sameOwed]
    rw [isPhase] at isCalling
    by_cases isCpu : other = cpu
    · subst other
      rw [update_self] at isCalling
      cases isCalling
      exact own
    · rw [update_of_ne isCpu] at isCalling
      exact sound.calling other later isCalling

/-- An operation that does not touch what is outstanding. -/
theorem Sound.operates (isTable : next.table = system.table.step op)
    (samePhase : next.phase = system.phase) (fewer : next.owed ≤ system.owed)
    (fresh : system.table.Fresh op) (isFree : ∀ cpu, op.cpu = some cpu → system.phase cpu = .free)
    (noUnblock : ∀ pid ∈ next.owed, ∀ result, op ≠ .unblock pid result) : Sound next where
  consistent := isTable ▸ step_consistent sound.consistent fresh
  distinct := Multiset.nodup_of_le fewer sound.distinct
  attended pid isOwed := (sound.attended pid (Multiset.mem_of_le fewer isOwed)).operate sound
    isTable samePhase isFree (noUnblock pid isOwed)
  calling := by
    intro cpu sending isCalling
    rw [samePhase] at isCalling
    obtain ⟨current, notOwed⟩ := sound.calling cpu sending isCalling
    have foreign : op.cpu ≠ some cpu := by
      intro isOwn
      rw [isFree cpu isOwn] at isCalling
      cases isCalling
    rw [isTable, current_step_of_ne sound.consistent foreign]
    exact ⟨current, fun isOwed => notOwed (Multiset.mem_of_le fewer isOwed)⟩

theorem Sound.step (fresh : system.Fresh label) : Sound (system.step setting label) := by
  have turn := @step_turn setting system label fresh
  generalize system.step setting label = next at turn ⊢
  cases turn with
  | noted sameTable samePhase fewer =>
    exact {
      consistent := sameTable ▸ sound.consistent
      distinct := Multiset.nodup_of_le fewer sound.distinct
      attended := fun pid isOwed =>
        (sound.attended pid (Multiset.mem_of_le fewer isOwed)).congr sameTable samePhase
      calling := by
        intro cpu sending isCalling
        obtain ⟨current, notOwed⟩ := sound.calling cpu sending (samePhase ▸ isCalling)
        exact ⟨sameTable ▸ current, fun isOwed => notOwed (Multiset.mem_of_le fewer isOwed)⟩ }
  | operated op isTable samePhase sameOwed fresh isFree noUnblock =>
    exact sound.operates isTable samePhase sameOwed.le fresh isFree fun pid _ => noUnblock pid
  | asked cpu pid sameTable current isFree isPhase added =>
    exact sound.added sameTable current (sound.not_owed current isFree) isPhase added.le
  | called cpu sending sameTable current isFree isPhase sameOwed =>
    exact sound.sends sameTable ⟨current, sound.not_owed current isFree⟩ isPhase sameOwed
  | went cpu sending farther sameTable wasCalling sameCall isPhase sameOwed =>
    have own := sound.calling cpu sending wasCalling
    rw [← sameCall] at own
    exact sound.sends sameTable own isPhase sameOwed
  | failed cpu sending sameTable wasCalling isPhase sameOwed =>
    obtain ⟨current, notOwed⟩ := sound.calling cpu sending wasCalling
    exact {
      consistent := sameTable ▸ sound.consistent
      distinct := sameOwed ▸ sound.distinct
      attended := by
        intro pid isOwed
        rw [sameOwed] at isOwed
        refine (sound.attended pid isOwed).update sameTable isPhase fun onCpu => ?_
        rw [current] at onCpu
        cases onCpu
        exact absurd isOwed notOwed
      calling := by
        intro other later isCalling
        rw [sameTable, sameOwed]
        exact (sound.calling_of_update isPhase (fun _ => nofun) isCalling).2.2 }
  | recorded cpu sending sameTable wasCalling isPhase added =>
    obtain ⟨current, notOwed⟩ := sound.calling cpu sending wasCalling
    exact sound.added sameTable current notOwed isPhase added
  | parked cpu frame isTable isPhase sameOwed =>
    exact {
      consistent := isTable ▸ step_consistent sound.consistent (fresh_of_cpu rfl)
      distinct := sameOwed ▸ sound.distinct
      attended := fun pid isOwed =>
        (sound.attended pid (sameOwed ▸ isOwed)).park sound isTable isPhase
      calling := by
        intro other later isCalling
        obtain ⟨different, _, onOther, notOwed⟩ :=
          sound.calling_of_update isPhase (fun _ => nofun) isCalling
        rw [isTable, sameOwed, current_step_of_ne sound.consistent]
        · exact ⟨onOther, notOwed⟩
        · intro isOwn
          exact different (Option.some.inj isOwn).symm }
  | woken pid result isTable samePhase removed =>
    have distinct := sound.distinct
    rw [removed, Multiset.nodup_cons] at distinct
    refine sound.operates isTable samePhase (removed ▸ Multiset.le_cons_self _ _)
      (fun _ created => by cases created) (fun _ => nofun) ?_
    rintro owner isOwed answer ⟨⟩
    exact distinct.1 isOwed

end System
end Cdk.Processes

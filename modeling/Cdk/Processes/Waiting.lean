import Cdk.Agent.Pending
import Cdk.Processes.Frames

/-!
# System calls that wait

A gated action waits for a decision and a tool call for its result.  The CPU that runs the
process queues the request, or sends the call and records it as in flight, and only then marks
the process as blocked; another CPU supervises the run.  A step is one critical section, or the
sending of a call.  Interrupts are masked in a system call.
-/

namespace Cdk.Processes

open ByteFormat Agent

/-! ## Tool calls -/

/-- A tool call whose result has not arrived. -/
structure InFlight where
  callId : UInt32
  pid : UInt32
  outPtr : UInt64
  outLen : UInt64
  pml4 : UInt64
  started : UInt64
  timeoutMs : UInt64
  /-- Result bytes received so far. -/
  received : Nat
  /-- A part could not be copied to the agent. -/
  failed : Bool
  deriving DecidableEq

def maxInFlight : Nat := 8

def callTimeoutMs : UInt64 := 15000

def modelCallTimeoutMs : UInt64 := 120000

/-- The outcome of a tool call. -/
inductive Status
  | ok
  | toolError
  | unknownTool
  | refused
  | unavailable
  | truncated
  deriving DecidableEq

def Status.code : Status → UInt64
  | .ok => 0
  | .toolError => 1
  | .unknownTool => 2
  | .refused => 3
  | .unavailable => 4
  | .truncated => 5

/-- A part of a result; the last one has the status. -/
structure CallMessage where
  callId : UInt32
  status : Option Status
  body : Bytes
  deriving DecidableEq

def InFlight.ofCall (callId : UInt32) (now : UInt64) (call : Call) : InFlight where
  callId := callId
  pid := call.pid
  outPtr := call.outPtr
  outLen := call.outLen
  pml4 := call.pml4
  started := now
  timeoutMs :=
    if (ascii "model:").isPrefixOf call.tool then modelCallTimeoutMs else callTimeoutMs
  received := 0
  failed := false

/-- A part of the result goes to the agent, as far as there is room. -/
def InFlight.receive (copies : Bool) (body : Bytes) (call : InFlight) : InFlight :=
  let count := min body.length (call.outLen.toNat - call.received)
  { call with
    failed := if 0 < count && !call.failed then !copies else call.failed
    received := call.received + body.length }

def InFlight.result (status : Status) (call : InFlight) : UInt64 :=
  let copied := min call.received call.outLen.toNat
  if call.failed then err EINVAL
  else
    let shown := if copied < call.received && status == .ok then .truncated else status
    shown.code <<< 32 ||| UInt64.ofNat copied

def InFlight.expired (now : UInt64) (call : InFlight) : Bool :=
  now - call.started > call.timeoutMs * 2000000

/-- The tool calls of the kernel. -/
structure Tools where
  nextCall : UInt32
  inflight : BoundedVec InFlight maxInFlight
  deriving DecidableEq

namespace Tools

def boot : Tools := ⟨1, .empty⟩

/-- Handle a part of a result; the last part finishes the call. -/
def deliver (tools : Tools) (copies : Bool) (message : CallMessage) :
    Tools × Option (UInt32 × UInt64) :=
  match tools.inflight.items.findIdx? fun call => call.callId == message.callId with
  | none => (tools, none)
  | some place =>
    let received : BoundedVec InFlight maxInFlight :=
      ⟨tools.inflight.items.modify place (InFlight.receive copies message.body), by
        rw [List.length_modify]
        exact tools.inflight.fits⟩
    match message.status, received.swapRemove? place with
    | some status, some (call, rest) =>
      ({ tools with inflight := rest }, some (call.pid, call.result status))
    | _, _ => ({ tools with inflight := received }, none)

/-- Take out a call that timed out. -/
def takeExpired (tools : Tools) (now : UInt64) : Option (UInt32 × Tools) :=
  (tools.inflight.items.findIdx? (InFlight.expired now)).bind fun place =>
    (tools.inflight.swapRemove? place).map fun removed =>
      (removed.1.pid, { tools with inflight := removed.2 })

end Tools

/-- What the surroundings contribute to a step. -/
structure Input where
  /-- The answer at the console. -/
  approved : Bool
  /-- How the kernel takes a message. -/
  answer : Answer
  /-- The call can be encoded. -/
  encodes : Bool
  /-- The call goes out sealed. -/
  sealed : Bool
  /-- What comes in on the link next, if anything. -/
  received : Option (Bytes ⊕ CallMessage)
  /-- The agent's pages take the result. -/
  copies : Bool
  now : UInt64

/-- Where `tools::dispatch` is. -/
inductive Sending
  | prepared (call : Call)
  | checked (callId : UInt32) (call : Call)
  | sent (callId : UInt32) (call : Call)
  deriving DecidableEq

def Sending.call : Sending → Call
  | .prepared call | .checked _ call | .sent _ call => call

/-- The next step of `tools::dispatch`: it fails, goes on or is finished.  There is
room when it is checked, and the entry is dropped if there is none any more. -/
def Sending.advance (input : Input) (tools : Tools) :
    Sending → Tools × Except UInt64 (Option Sending)
  | .prepared call =>
    let counted := { tools with nextCall := tools.nextCall + 1 }
    if !input.encodes then (counted, .error EINVAL)
    else if tools.inflight.isFull then (counted, .error EFULL)
    else (counted, .ok (some (.checked tools.nextCall call)))
  | .checked callId call =>
    (tools, if input.sealed then .ok (some (.sent callId call)) else .error ENOLINK)
  | .sent callId call =>
    ({ tools with
        inflight :=
          (tools.inflight.push? (.ofCall callId input.now call)).getD tools.inflight },
      .ok none)

/-! ## The two sides -/

/-- Where a CPU is in a system call that waits. -/
inductive Phase
  /-- In ring 3, or in the kernel and not in such a call. -/
  | free
  | calling (sending : Sending)
  /-- The handler said `Block`; the process is not blocked yet. -/
  | parking
  deriving DecidableEq

/-- From where `tools::poll` was called. -/
inductive PollSite
  | inflight
  | pump (late : Bool)
  | waitAny
  | waitProgress
  deriving DecidableEq

/-- The loops of the supervising CPU in which it wakes processes.  The second
`resolve_approvals` of a round is the late one. -/
inductive Task
  | resolving (late : Bool)
  | polling (site : PollSite) (done : Nat)
  | expiring (site : PollSite) (now : UInt64) (done : Nat)
  deriving DecidableEq

/-- Where the supervising CPU is. -/
inductive Stage
  /-- Not in `run_scheduled`. -/
  | idle
  | pending
  | inflight
  | outstanding
  | signed
  | progress
  | waitProgress
  | release
  | doing (task : Task)
  | deciding (late : Bool) (request : Pending)
  | dispatching (late : Bool) (sending : Sending)
  | waking (pid : UInt32) (result : UInt64) (task : Task)
  /-- It waits for the lock of the table, which it holds itself. -/
  | stuck
  deriving DecidableEq

/-- Table, agents, tools and CPUs. -/
structure System where
  table : ProcessTable
  agents : Agents
  tools : Tools
  phase : Cpu → Phase
  stage : Stage

namespace System

open ProcessTable

/-- What can happen. -/
inductive Label
  /-- An operation on the table that no system call here makes. -/
  | table (op : Op)
  | send (cpu : Cpu) (handle : UInt64)
      (prepared : Except UInt64 (Capability × Bytes)) (asking : Asking) (answer : Answer)
  | toolCall (cpu : Cpu) (handle : UInt64) (lookup : ToolLookup) (asking : Asking)
  | advance (cpu : Cpu) (input : Input)
  | park (cpu : Cpu) (frame : TrapFrame)
  | supervise (input : Input)

def boot : System where
  table := .new
  agents := .boot
  tools := .boot
  phase _ := .free
  stage := .idle

section Steps

variable (setting : Approvals.Setting) (system : System)

def setPhase (cpu : Cpu) (phase : Phase) : System :=
  { system with phase := Function.update system.phase cpu phase }

def setStage (stage : Stage) : System := { system with stage := stage }

/-- `send` on a CPU. -/
def sysSend (cpu : Cpu) (handle : UInt64)
    (prepared : Except UInt64 (Capability × Bytes)) (asking : Asking) (answer : Answer) : System :=
  let outcome := sysSendOutcome setting (system.table.current cpu) handle prepared
    asking answer system.agents
  let called := { system with agents := outcome.1 }
  match outcome.2 with
  | .value _ => called
  | .block => called.setPhase cpu .parking

/-- `tool_call` on a CPU, up to the gate. -/
def sysToolCall (cpu : Cpu) (handle : UInt64) (lookup : ToolLookup) (asking : Asking) : System :=
  match checkTool { lookup with pid := system.table.current cpu } with
  | .error _ => system
  | .ok (capability, call) =>
    if capability.hasPermission .requiresApproval then
      let queued :=
        requestToolApproval setting asking handle capability call system.agents
      let called := { system with agents := queued.1 }
      if queued.2 then called.setPhase cpu .parking else called
    else system.setPhase cpu (.calling (.prepared call))

/-- The next step of `tools::dispatch` on a CPU. -/
def advance (cpu : Cpu) (input : Input) : System :=
  match system.phase cpu with
  | .calling sending =>
    let outcome := sending.advance input system.tools
    let advanced := { system with tools := outcome.1 }
    match outcome.2 with
    | .error _ => advanced.setPhase cpu .free
    | .ok (some later) => advanced.setPhase cpu (.calling later)
    | .ok none => advanced.setPhase cpu .parking
  | _ => system

/-- `block_current` on a CPU. -/
def park (cpu : Cpu) (frame : TrapFrame) : System :=
  match system.phase cpu with
  | .parking =>
    { system with table := system.table.step (.blockCurrent cpu frame) }.setPhase cpu .free
  | _ => system

/-- The operation is made while nothing keeps its thread from it. -/
def allows : Op → Bool
  | .unblock _ _ | .blockCurrent _ _ => false
  | .insert _ _ _ _ | .select _ _ | .takeForReap _ => system.stage == .idle
  | op => op.cpu.all fun cpu => system.phase cpu == .free

def operate (op : Op) : System :=
  let operated := { system with table := system.table.step op }
  match op with
  | .select which homes =>
    match (system.table.select which homes).2 with
    | .ok _ => operated.setStage .pending
    | .error _ => operated
  | _ => operated

/-! ### The supervising CPU -/

/-- Enter `resolve_approvals`; in signed mode it receives messages first. -/
def enterResolve (late : Bool) : Stage :=
  if signedMode setting then .doing (.polling (.pump late) 0)
  else .doing (.resolving late)

/-- The request to decide next. -/
def takeRequest : Option (Pending × BoundedVec Pending maxPending) :=
  if signedMode setting then
    system.agents.queue.takeFirst (ready system.agents.desk)
  else system.agents.queue.popFront

/-- Begin to decide a request. -/
def resolve (late : Bool) : System :=
  match system.takeRequest setting with
  | some (request, queue) =>
    { system with agents := { system.agents with queue := queue } }.setStage
      (.deciding late request)
  | none => system.setStage (if late then .signed else .inflight)

/-- Decide a request. -/
def decideRequest (late : Bool) (request : Pending) (input : Input) : System :=
  let approved :=
    if signedMode setting then approves system.agents.desk request
    else input.approved
  let desk :=
    if signedMode setting then closeFor system.agents.desk request
    else system.agents.desk
  let decided := { system with agents := { system.agents with desk := desk } }
  match approved, request.action with
  | false, _ =>
    decided.setStage (.waking request.pid (err EDENIED) (.resolving late))
  | true, .send =>
    let sent :=
      performSend input.answer request.pid request.capability request.payload
    decided.setStage (.waking request.pid (resultValue sent.2) (.resolving late))
  | true, .tool tool outPtr outLen pml4 =>
    decided.setStage (.dispatching late (.prepared (request.call tool outPtr outLen pml4)))

def superviseSending (late : Bool) (sending : Sending) (input : Input) : System :=
  let outcome := sending.advance input system.tools
  let advanced := { system with tools := outcome.1 }
  match outcome.2 with
  | .error code =>
    advanced.setStage (.waking sending.call.pid (err code) (.resolving late))
  | .ok (some later) => advanced.setStage (.dispatching late later)
  | .ok none => advanced.setStage (.doing (.resolving late))

/-- Receive a message in `tools::poll`. -/
def poll (site : PollSite) (done : Nat) (input : Input) : System :=
  match input.received with
  | none => system.setStage (.doing (.expiring site input.now done))
  | some (.inl message) =>
    let desk := system.agents.desk.onMessage setting message
    { system with agents := { system.agents with desk := desk } }
  | some (.inr message) =>
    let delivered := system.tools.deliver input.copies message
    let polled := { system with tools := delivered.1 }
    let task := Task.polling site (if message.status.isSome then done + 1 else done)
    match delivered.2 with
    | some (pid, result) => polled.setStage (.waking pid result task)
    | none => polled.setStage (.doing task)

/-- Where to go on after `tools::poll`. -/
def afterPoll (site : PollSite) (now : UInt64) (done : Nat) : System :=
  let timed :=
    { system with
      agents := { system.agents with desk := system.agents.desk.checkTimeouts now } }
  match site with
  | .inflight => system.setStage .outstanding
  | .waitProgress => system.setStage (if done = 0 then .waitProgress else .pending)
  | .pump late => timed.setStage (.doing (.resolving late))
  | .waitAny =>
    let decided := timed.agents.desk.opened.any fun entry => entry.outcome.isSome
    timed.setStage <|
      if decided || timed.agents.desk.opened.isEmpty then .pending
      else .doing (.polling .waitAny 0)

/-- Fail a call that timed out. -/
def expire (site : PollSite) (now : UInt64) (done : Nat) : System :=
  match system.tools.takeExpired now with
  | some (pid, tools) =>
    { system with tools := tools }.setStage
      (.waking pid (err ETIMEDOUT) (.expiring site now (done + 1)))
  | none => system.afterPoll site now done

/-- A step of the supervising thread. -/
def supervise (input : Input) : System :=
  match system.stage with
  | .idle => system
  | .pending =>
    system.setStage <|
      if system.agents.queue.items.isEmpty then .inflight else enterResolve setting false
  | .inflight =>
    system.setStage <|
      if system.tools.inflight.items.isEmpty then .outstanding
      else .doing (.polling .inflight 0)
  | .outstanding =>
    system.setStage <|
      if 0 < system.table.outstanding.1 then .pending
      else if system.table.outstanding.2.isEmpty then .idle
      else enterResolve setting true
  | .signed =>
    system.setStage <|
      if signedMode setting && !system.agents.queue.items.isEmpty then
        .doing (.polling .waitAny 0)
      else .progress
  | .progress =>
    system.setStage <|
      if system.tools.inflight.items.isEmpty then .release else .waitProgress
  | .waitProgress =>
    system.setStage <|
      if system.tools.inflight.items.isEmpty then .pending
      else .doing (.polling .waitProgress 0)
  | .release =>
    -- The list is made from a guard that lives until the loop over it ends, and
    -- the body of the loop locks the table again.
    system.setStage (if system.table.blockedScheduled.isEmpty then .pending else .stuck)
  | .doing (.resolving late) => system.resolve setting late
  | .doing (.polling site done) => system.poll setting site done input
  | .doing (.expiring site now done) => system.expire site now done
  | .deciding late request => system.decideRequest setting late request input
  | .dispatching late sending => system.superviseSending late sending input
  | .waking pid result task =>
    { system with table := system.table.step (.unblock pid result) }.setStage (.doing task)
  | .stuck => system

/-- A CPU that is not in a system call starts one; that needs the table. -/
def whenFree (cpu : Cpu) (next : System) : System :=
  if system.stage ≠ .stuck ∧ system.phase cpu = .free then next else system

/-- Nothing that needs the table goes on while its lock is held for good. -/
def step : Label → System
  | .table op =>
    if system.stage ≠ .stuck ∧ system.allows op then system.operate op else system
  | .send cpu handle prepared asking answer =>
    system.whenFree cpu (system.sysSend setting cpu handle prepared asking answer)
  | .toolCall cpu handle lookup asking =>
    system.whenFree cpu (system.sysToolCall setting cpu handle lookup asking)
  | .advance cpu input => system.advance cpu input
  | .park cpu frame => if system.stage ≠ .stuck then system.park cpu frame else system
  | .supervise input => system.supervise setting input

def after (labels : List Label) : System := Run.after (step setting) system labels

/-- Processes are created under new pids. -/
def Fresh : Label → Prop
  | .table op => system.table.Fresh op
  | _ => True

instance : ∀ label, Decidable (system.Fresh label)
  | .table op => inferInstanceAs (Decidable (system.table.Fresh op))
  | .send .. | .toolCall .. | .advance .. | .park .. | .supervise .. => .isTrue trivial

end Steps

end System

end Cdk.Processes

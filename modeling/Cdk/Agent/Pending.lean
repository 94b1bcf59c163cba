import Cdk.Approvals.Desk
import Cdk.Library.Deque

/-!
# Approval-gated actions of agents

An action through a handle that requires approval is not performed by the system call: it is
queued with everything it needs, and performed when the decision is there, which is the outcome
of a signed request or the answer of the person at the console.  `Kernel::send_message` and
`tools::dispatch` are the boundary of this model; the log records what is queued, applied and
reaches the boundary.
-/

namespace Cdk.Agent

open ByteFormat Link Approvals

/-! ## Capabilities and requests -/

/-- The permissions of a capability. -/
inductive Permission where
  | read
  | write
  | execute
  | sendMessage
  | receiveMessage
  | delete
  /-- A constraint, not a right: every action waits for a human. -/
  | requiresApproval
  deriving DecidableEq, Repr

/-- A capability, as far as gating is concerned. -/
structure Capability where
  objectId : Bytes
  permissions : List Permission
  deriving DecidableEq

/-- Whether the capability carries a permission. -/
def Capability.hasPermission (capability : Capability) (permission : Permission) : Bool :=
  capability.permissions.contains permission

/-- A tool call ready to go to the gateway. -/
structure Call where
  pid : UInt32
  tool : Bytes
  args : Bytes
  outPtr : UInt64
  outLen : UInt64
  pml4 : UInt64
  deriving DecidableEq

/-- What a pending request does if approved. -/
inductive Action where
  | send
  | tool (tool : Bytes) (outPtr outLen pml4 : UInt64)
  deriving DecidableEq

/-- A blocked action that waits for a decision. -/
structure Pending where
  id : UInt32
  pid : UInt32
  handle : UInt64
  capability : Capability
  payload : Bytes
  action : Action
  /-- The number of the signed request; the kernel keeps its 32-bit id. -/
  signed : Option Nat
  /-- Signed mode, but the request could not be sent. -/
  unsendable : Bool
  deriving DecidableEq

/-- The 32-bit id of the signed request. -/
def Pending.signedId (request : Pending) : Option UInt32 := request.signed.map UInt32.ofNat

/-- Requests queued at most. -/
def maxPending : Nat := 8

/-- Bytes a pending request carries at most. -/
def pendingPayload : Nat := Approval.maxPlaintext - 8 - 48

/-- An action at the boundary. -/
inductive Effect where
  | sendMessage (pid : UInt32) (capability : Capability) (payload : Bytes)
  | dispatch (capability : Capability) (call : Call)
  deriving DecidableEq

/-- The capability that an action at the boundary goes through. -/
def Effect.capability : Effect → Capability
  | sendMessage _ capability _ | dispatch capability _ => capability

/-- Whether the action goes through a handle that needs approval. -/
def Effect.gated (effect : Effect) : Bool := effect.capability.hasPermission .requiresApproval

/-- The tool call of a request; arguments that are too long are dropped. -/
def Pending.call (request : Pending) (tool : Bytes) (outPtr outLen pml4 : UInt64) : Call :=
  { pid := request.pid, tool, outPtr, outLen, pml4
    args :=
      if request.payload.length ≤ pendingPayload then request.payload else [] }

/-- The action that was captured when the request was queued. -/
def Pending.effect (request : Pending) : Effect :=
  match request.action with
  | .send => .sendMessage request.pid request.capability request.payload
  | .tool tool outPtr outLen pml4 =>
    .dispatch request.capability (request.call tool outPtr outLen pml4)

/-- How the other side of the boundary answers. -/
structure Answer where
  /-- There is a kernel, and the message can be built. -/
  ready : Bool
  /-- The error code of `Kernel::send_message`, if it fails. -/
  sendError : Option UInt64
  /-- The error code of `tools::dispatch`, if it fails. -/
  dispatchError : Option UInt64
  deriving DecidableEq

/-- Whether an approved action reaches the boundary: a tool call does, a message
if it can be built. -/
def Answer.reaches (answer : Answer) : Action → Bool
  | .send => answer.ready
  | .tool _ _ _ _ => true

/-- What happens, in order. -/
inductive Event where
  | enqueued (request : Pending)
  /-- A decision is applied; the entry is the one that was closed for it, and
  the answer is the one that the other side gives if the action is approved. -/
  | applied (request : Pending) (approved : Bool) (closed : Option Open) (answer : Answer)
  | performed (effect : Effect)
  | unblocked (pid : UInt32) (result : UInt64)
  deriving DecidableEq

/-- The state of the agents' requests. -/
structure Agents where
  desk : Desk
  queue : BoundedVec Pending maxPending
  nextRequest : UInt32
  log : List Event
  deriving DecidableEq

/-- The state after a boot. -/
def Agents.boot : Agents := ⟨.boot, .empty, 1, []⟩

/-- What happens is written down. -/
def Agents.record (agents : Agents) (events : List Event) : Agents :=
  { agents with log := agents.log ++ events }

/-! ## Error codes -/

/-- An error code as a system call result. -/
def err (code : UInt64) : UInt64 := 0 - code

/-- No such handle. -/
def EBADH : UInt64 := 1
def EPERM : UInt64 := 2
def EINVAL : UInt64 := 3
def EFULL : UInt64 := 4
def ESIG : UInt64 := 7
def EDENIED : UInt64 := 8
def ENOLINK : UInt64 := 9
def ETIMEDOUT : UInt64 := 10
def EPOLICY : UInt64 := 11

/-- What a system call does to its process. -/
inductive Returns where
  | value (result : UInt64)
  | block
  deriving DecidableEq

/-! ## Performing -/

/-- Deliver a message through the kernel. -/
def performSend (answer : Answer) (pid : UInt32) (capability : Capability)
    (payload : Bytes) : List Event × Except UInt64 UInt64 :=
  if !answer.ready then ([], .error EINVAL)
  else
    ([.performed (.sendMessage pid capability payload)],
      match answer.sendError with
      | none => .ok 0
      | some code => .error code)

/-- The result register of a system call. -/
def resultValue : Except UInt64 UInt64 → UInt64
  | .ok value => value
  | .error code => err code

/-- Perform an approved request.  After a successful tool call the process
waits for the result, otherwise it is resumed. -/
def perform (answer : Answer) (request : Pending) : List Event :=
  match request.action with
  | .send =>
    let sent := performSend answer request.pid request.capability request.payload
    sent.1 ++ [.unblocked request.pid (resultValue sent.2)]
  | .tool tool outPtr outLen pml4 =>
    .performed (.dispatch request.capability (request.call tool outPtr outLen pml4)) ::
      match answer.dispatchError with
      | none => []
      | some code => [.unblocked request.pid (err code)]

/-- Record the decision on a request, perform it if approved, resume the
process. -/
def apply (answer : Answer) (request : Pending) (approved : Bool) (closed : Option Open)
    (agents : Agents) : Agents :=
  agents.record (.applied request approved closed answer ::
      if approved then perform answer request
      else [.unblocked request.pid (err EDENIED)])

/-! ## Queueing -/

variable (setting : Setting)

/-- Decisions are signed: there are operators. -/
def signedMode : Bool := !setting.operators.list.isEmpty

/-- What the surroundings contribute when a request is queued. -/
structure Asking where
  text : Text
  quorum : UInt8
  ttl : UInt16
  surroundings : Surroundings
  deriving DecidableEq

/-- Ask the operators; the request notes whether that worked. -/
def openSigned (asking : Asking) (request : Pending) (desk : Desk) : Desk × Pending :=
  match wholeText asking.text with
  | none => (desk, { request with unsendable := true })
  | some shown =>
    let opened := desk.openRequest setting asking.surroundings
      ⟨Approval.kindAction, asking.quorum, asking.ttl, request.payload, shown⟩
    match opened.2 with
    | .ok _ => (opened.1, { request with signed := some desk.next })
    | .error _ => (opened.1, { request with unsendable := true })

/-- Queue an action for a decision; the second component says whether it was
queued. -/
def enqueue (asking : Asking) (pid : UInt32) (handle : UInt64) (capability : Capability)
    (payload : Bytes) (action : Action) (agents : Agents) : Agents × Bool :=
  let id := agents.nextRequest
  let counted := { agents with nextRequest := id + 1 }
  if payload.length > pendingPayload then (counted, false)
  else
    let request : Pending :=
      { id, pid, handle, capability, payload, action
        signed := none
        unsendable := false }
    let asked :=
      if signedMode setting then openSigned setting asking request counted.desk
      else (counted.desk, request)
    match counted.queue.push? asked.2 with
    | none => ({ counted with desk := asked.1 }, false)
    | some queue =>
      (({ counted with desk := asked.1, queue } : Agents).record [.enqueued asked.2], true)

/-- What a system call gives back when its action has been queued, or not. -/
def blocks (queued : Agents × Bool) : Agents × Returns :=
  (queued.1, if queued.2 then .block else .value (err EFULL))

/-- `send`: the lookup of the handle and the copy of the message are the
surroundings' part. -/
def sysSendOutcome (pid : Option UInt32) (handle : UInt64)
    (prepared : Except UInt64 (Capability × Bytes)) (asking : Asking) (answer : Answer)
    (agents : Agents) : Agents × Returns :=
  match pid, prepared with
  | none, _ => (agents, .value (err EINVAL))
  | some _, .error code => (agents, .value (err code))
  | some pid, .ok (capability, payload) =>
    if !capability.hasPermission .requiresApproval then
      let sent := performSend answer pid capability payload
      (agents.record sent.1, .value (resultValue sent.2))
    else if !capability.hasPermission .sendMessage then
      (agents, .value (err EPERM))
    else
      blocks (enqueue setting asking pid handle capability payload .send agents)

/-- Queue a tool call. -/
def requestToolApproval (asking : Asking) (handle : UInt64) (capability : Capability) (call : Call)
    (agents : Agents) : Agents × Bool :=
  enqueue setting asking call.pid handle capability call.args
    (.tool call.tool call.outPtr call.outLen call.pml4) agents

/-- What the surroundings contribute to a tool call. -/
structure ToolLookup where
  pid : Option UInt32
  args : Bytes
  outPtr : UInt64
  outLen : UInt64
  /-- The arguments can be read. -/
  readable : Bool
  /-- The result buffer can be written. -/
  writable : Bool
  /-- The capability behind the handle. -/
  capability : Option Capability
  /-- The capability's signature verifies. -/
  verified : Bool
  /-- The wire name of the tool object. -/
  tool : Option Bytes
  /-- There is a secure link. -/
  secure : Bool
  reviewed : Bool
  pml4 : Option UInt64
  deriving DecidableEq

/-- Bytes of a tool's result at most. -/
def maxResult : UInt64 := 16384

/-- The checks of a tool call, in their order. -/
def checkTool (lookup : ToolLookup) : Except UInt64 (Capability × Call) := do
  let some pid := lookup.pid | .error EINVAL
  if lookup.args.length > pendingPayload || lookup.outLen > maxResult then
    .error EINVAL
  if !lookup.readable then .error EINVAL
  if lookup.outLen > 0 && !lookup.writable then .error EINVAL
  let some capability := lookup.capability | .error EBADH
  if !lookup.verified then .error ESIG
  let some tool := lookup.tool | .error EINVAL
  if !capability.hasPermission .execute then .error EPERM
  if !lookup.secure then .error ENOLINK
  if !lookup.reviewed then .error EPOLICY
  let some pml4 := lookup.pml4 | .error EINVAL
  .ok (capability, ⟨pid, tool, lookup.args, lookup.outPtr, lookup.outLen, pml4⟩)

/-- `tool_call`. -/
def sysToolCall (handle : UInt64) (lookup : ToolLookup) (asking : Asking) (answer : Answer)
    (agents : Agents) : Agents × Returns :=
  match checkTool lookup with
  | .error code => (agents, .value (err code))
  | .ok (capability, call) =>
    if capability.hasPermission .requiresApproval then
      blocks (requestToolApproval setting asking handle capability call agents)
    else
      (agents.record [.performed (.dispatch capability call)],
        match answer.dispatchError with
        | none => .block
        | some code => .value (err code))

/-! ## Resolving -/

section

variable (desk : Desk) (request : Pending)

/-- The decision is in, or there will be none. -/
def ready : Bool := request.unsendable || request.signedId.any fun id => (desk.outcome id).isSome

/-- The entry that `close` removes for a request. -/
def closedFor : Option Open :=
  request.signedId.bind fun id => desk.opened.find? fun entry => entry.id == id

/-- Remove the entry of a request. -/
def closeFor : Desk :=
  match request.signedId with
  | none => desk
  | some id => (desk.close id).1

/-- The decision is an approval. -/
def approves : Bool :=
  request.signedId.any fun id => desk.outcome id == some .approved

end

/-- Apply the first request whose decision is in. -/
def resolveOne (answer : Answer) (agents : Agents) : Option Agents :=
  (agents.queue.takeFirst (ready agents.desk)).map fun taken =>
    apply answer taken.1 (approves agents.desk taken.1) (closedFor agents.desk taken.1)
      { agents with desk := closeFor agents.desk taken.1, queue := taken.2 }

/-- Apply requests until none is ready.  Each round takes one request out of
the queue, so as many rounds as there are requests are enough. -/
def resolveLoop (answers : Nat → Answer) : Nat → Agents → Agents
  | 0, agents => agents
  | rounds + 1, agents =>
    match resolveOne (answers rounds) agents with
    | none => agents
    | some next => resolveLoop answers rounds next

/-- Apply every pending request whose signed decision is in. -/
def resolveSigned (messages : List Bytes) (now : UInt64) (answers : Nat → Answer)
    (agents : Agents) : Agents :=
  let pumped := { agents with desk := agents.desk.pump setting messages now }
  resolveLoop answers pumped.queue.items.length pumped

/-- Let the console decide every pending request. -/
def resolveWith (answers : Nat → Answer) (decide : Nat → Bool) : Nat → Agents → Agents
  | 0, agents => agents
  | rounds + 1, agents =>
    match agents.queue.popFront with
    | none => agents
    | some (request, others) =>
      resolveWith answers decide rounds (apply (answers rounds) request (decide rounds) none
          { agents with queue := others })

/-- Resolve by signatures if there are operators, else at the console. -/
def resolveApprovals (messages : List Bytes) (now : UInt64) (answers : Nat → Answer)
    (decide : Nat → Bool) (agents : Agents) : Agents :=
  if signedMode setting then resolveSigned setting messages now answers agents
  else resolveWith answers decide agents.queue.items.length agents

/-! ## Runs -/

/-- A step of the system, with what its surroundings contribute. -/
inductive Label where
  | send (pid : Option UInt32) (handle : UInt64)
      (prepared : Except UInt64 (Capability × Bytes)) (asking : Asking) (answer : Answer)
  | toolCall (handle : UInt64) (lookup : ToolLookup) (asking : Asking) (answer : Answer)
  /-- A message that is received outside of a resolution. -/
  | message (message : Bytes)
  | checkTimeouts (now : UInt64)
  | resolve (messages : List Bytes) (now : UInt64) (answers : Nat → Answer) (decide : Nat → Bool)

/-- One step. -/
def step (agents : Agents) : Label → Agents
  | .send pid handle prepared asking answer =>
    (sysSendOutcome setting pid handle prepared asking answer agents).1
  | .toolCall handle lookup asking answer =>
    (sysToolCall setting handle lookup asking answer agents).1
  | .message message =>
    { agents with desk := agents.desk.onMessage setting message }
  | .checkTimeouts now =>
    { agents with desk := agents.desk.checkTimeouts now }
  | .resolve messages now answers decide =>
    resolveApprovals setting messages now answers decide agents

end Cdk.Agent

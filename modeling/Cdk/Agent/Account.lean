import Cdk.Agent.Pending

/-!
# The account of gated actions

`Steps` lists everything a step of the system can do.  Whatever happens,
nothing that is queued is lost or applied twice, and the gated actions at the
boundary are exactly the captured actions of the requests that were applied as
approved (`accounted_after`).  What was queued is what the blocked system calls
asked for (`capturedIn_step`).
-/

namespace Cdk.Agent

open ByteFormat Link Approvals

variable {setting : Setting}

/-! ## Reading the log -/

variable (log : List Event)

/-- The requests that were queued. -/
def enqueuedIn : List Pending := log.filterMap fun
    | .enqueued request => some request
    | _ => none

/-- The requests that were applied. -/
def appliedIn : List Pending := log.filterMap fun
    | .applied request _ _ _ => some request
    | _ => none

/-- The captured actions of the requests that were applied as approved, if they
reach the boundary. -/
def approvedIn : List Effect := log.filterMap fun
    | .applied request true _ answer =>
      if answer.reaches request.action then some request.effect else none
    | _ => none

/-- The actions that reached the boundary through a gated handle. -/
def gatedIn : List Effect := log.filterMap fun
    | .performed effect => if effect.gated then some effect else none
    | _ => none

/-- Events that are neither queueing nor application. -/
def Plain (events : List Event) : Prop := ∀ event ∈ events, (∃ effect, event = .performed effect) ∨
      ∃ pid result, event = .unblocked pid result

variable {events : List Event}

section

variable (plain : Plain events)
include plain

theorem Plain.filterMap_eq_nil {Sight : Type} {read : Event → Option Sight}
    (performed : ∀ effect, read (.performed effect) = none)
    (unblocked : ∀ pid result, read (.unblocked pid result) = none) :
    events.filterMap read = [] := by
  rw [List.filterMap_eq_nil_iff]
  intro event present
  rcases plain event present with ⟨effect, rfl⟩ | ⟨pid, result, rfl⟩
  · exact performed effect
  · exact unblocked pid result

theorem Plain.enqueuedIn_eq_nil : enqueuedIn events = [] :=
  plain.filterMap_eq_nil (fun _ => rfl) fun _ _ => rfl

theorem Plain.appliedIn_eq_nil : appliedIn events = [] :=
  plain.filterMap_eq_nil (fun _ => rfl) fun _ _ => rfl

theorem Plain.approvedIn_eq_nil : approvedIn events = [] :=
  plain.filterMap_eq_nil (fun _ => rfl) fun _ _ => rfl

theorem Plain.not_applied : .applied request approved closed answer ∉ events := by
  intro present
  rcases plain _ present with ⟨_, impossible⟩ | ⟨_, _, impossible⟩ <;>
    cases impossible

end

variable (earlier later : List Event)

@[simp] theorem enqueuedIn_append :
    enqueuedIn (earlier ++ later) = enqueuedIn earlier ++ enqueuedIn later :=
  List.filterMap_append

@[simp] theorem appliedIn_append :
    appliedIn (earlier ++ later) = appliedIn earlier ++ appliedIn later :=
  List.filterMap_append

@[simp] theorem approvedIn_append :
    approvedIn (earlier ++ later) = approvedIn earlier ++ approvedIn later :=
  List.filterMap_append

@[simp] theorem gatedIn_append :
    gatedIn (earlier ++ later) = gatedIn earlier ++ gatedIn later :=
  List.filterMap_append

variable {earlier later}

/-! ## What a step does -/

theorem plain_unblocked (pid : UInt32) (result : UInt64) : Plain [.unblocked pid result] := by
  intro event present
  exact .inr ⟨pid, result, List.mem_singleton.mp present⟩

theorem plain_perform (answer : Answer) (request : Pending) : Plain (perform answer request) := by
  intro event present
  simp only [perform, performSend] at present
  split at present
  · split at present
    · exact plain_unblocked _ _ event present
    · rcases List.mem_cons.mp present with performed | last
      · exact .inl ⟨_, performed⟩
      · exact plain_unblocked _ _ event last
  · rcases List.mem_cons.mp present with performed | last
    · exact .inl ⟨_, performed⟩
    · split at last
      · cases last
      · exact plain_unblocked _ _ event last

/-- What follows a decision is neither queueing nor application. -/
theorem plain_decided (answer : Answer) (request : Pending) (approved : Bool) :
    Plain (if approved then perform answer request
      else [.unblocked request.pid (err EDENIED)]) := by
  split
  · exact plain_perform answer request
  · exact plain_unblocked _ _

/-- Performing a gated request performs its captured action, if that reaches the
boundary, and nothing else that is gated. -/
theorem gatedIn_perform (answer : Answer) {request : Pending} (gated : request.effect.gated) :
    gatedIn (perform answer request) =
      if answer.reaches request.action then [request.effect] else [] := by
  unfold Pending.effect at gated ⊢
  unfold perform Answer.reaches
  cases action : request.action with
  | send =>
    simp only [action] at gated ⊢
    cases ready : answer.ready with
    | false => simp [performSend, ready, gatedIn]
    | true => simp [performSend, ready, gatedIn, gated]
  | tool tool outPtr outLen pml4 =>
    simp only [action] at gated ⊢
    cases answer.dispatchError with
    | none | some code => simp [gatedIn, gated]

/-- What the signed request of a queued action looks like. -/
inductive Asked (setting : Setting) (desk : Desk) : Desk → Pending → Prop where
  | console {request : Pending} : signedMode setting = false → request.signed = none →
      request.unsendable = false → Asked setting desk desk request
  | unsendable {later : Desk} {request : Pending} :
      later.opened = desk.opened → desk.next ≤ later.next →
      request.signed = none → request.unsendable → Asked setting desk later request
  | opened {later : Desk} {request : Pending} {entry : Open} :
      entry.number = desk.next → later.opened = desk.opened ++ [entry] →
      later.next = desk.next + 1 → request.signed = some desk.next →
      request.unsendable = false → Asked setting desk later request

theorem asked_openSigned (asking : Asking) (desk : Desk) (unsigned : request.signed = none)
    (sendable : request.unsendable = false) :
    Asked setting desk (openSigned setting asking request desk).1
      (openSigned setting asking request desk).2 := by
  simp only [openSigned]
  split
  · exact .unsendable rfl le_rfl unsigned rfl
  rename_i shown _
  rcases @Desk.openRequest_cases setting asking.surroundings
    ⟨Approval.kindAction, asking.quorum, asking.ttl, request.payload, shown⟩
    desk with
    ⟨_, later, result, same, next⟩ | ⟨later, result, appended, next⟩
  · simp only [result]
    exact .unsendable same next unsigned rfl
  · simp only [result]
    exact .opened rfl appended next rfl sendable

/-- The action that is captured when a request is queued. -/
def capturedAction (pid : UInt32) (capability : Capability) (payload : Bytes) : Action → Effect
  | .send => .sendMessage pid capability payload
  | .tool tool outPtr outLen pml4 =>
    .dispatch capability ⟨pid, tool, payload, outPtr, outLen, pml4⟩

theorem effect_eq_captured {request : Pending} (short : request.payload.length ≤ pendingPayload) :
    request.effect =
      capturedAction request.pid request.capability request.payload request.action := by
  unfold Pending.effect capturedAction Pending.call
  cases request.action <;> simp [short]

/-- Asking for signatures changes only what the request notes about them. -/
theorem effect_openSigned (asking : Asking) (request : Pending) (desk : Desk) :
    (openSigned setting asking request desk).2.effect = request.effect := by
  unfold openSigned
  split
  · rfl
  · dsimp only
    split <;> rfl

/-- Queueing fails and leaves an entry behind at most, or the request is at the
end of the queue, with the action that was asked for. -/
theorem enqueue_cases (asking : Asking) (pid : UInt32) (handle : UInt64) (capability : Capability)
    (payload : Bytes) (action : Action) (agents : Agents) :
    (∃ desk, (desk = agents.desk ∨ ∃ request, Asked setting agents.desk desk request) ∧
          enqueue setting asking pid handle capability payload action agents =
            ({ agents with nextRequest := agents.nextRequest + 1, desk }, false)) ∨
      ∃ desk request queue, Asked setting agents.desk desk request ∧
          request.effect = capturedAction pid capability payload action ∧
          queue.items = agents.queue.items ++ [request] ∧
          enqueue setting asking pid handle capability payload action agents =
            (Agents.record { agents with nextRequest := agents.nextRequest + 1, desk, queue }
              [.enqueued request], true) := by
  have asked (request : Pending) (unsigned : request.signed = none)
      (sendable : request.unsendable = false) :
      ∃ desk filled,
        (if signedMode setting then openSigned setting asking request agents.desk
          else (agents.desk, request)) = (desk, filled) ∧
          Asked setting agents.desk desk filled ∧ filled.effect = request.effect := by
    by_cases signing : signedMode setting
    · exact ⟨_, _, if_pos signing, asked_openSigned asking agents.desk unsigned sendable,
        effect_openSigned asking request agents.desk⟩
    · exact ⟨_, _, if_neg signing, .console (Bool.eq_false_iff.mpr signing) unsigned sendable, rfl⟩
  simp only [enqueue]
  by_cases long : payload.length > pendingPayload
  · refine .inl ⟨agents.desk, .inl rfl, ?_⟩
    rw [if_pos long]
  rw [if_neg long]
  obtain ⟨desk, request, result, isAsked, same⟩ := asked
      { id := agents.nextRequest, pid, handle, capability, payload, action
        signed := none
        unsendable := false } rfl rfl
  rw [result]
  cases pushed : agents.queue.push? request with
  | none => exact .inl ⟨desk, .inr ⟨request, isAsked⟩, rfl⟩
  | some queue =>
    exact .inr ⟨desk, request, queue, isAsked,
      same.trans (effect_eq_captured (Nat.le_of_not_lt long)),
      (BoundedVec.push?_eq_some_iff.mp pushed).2, rfl⟩

/-- The step asks for a gated action. -/
def Asks : Label → Prop
  | .send _ _ prepared _ _ =>
    ∃ capability payload, prepared = .ok (capability, payload) ∧
        capability.hasPermission .requiresApproval
  | .toolCall _ lookup _ _ =>
    ∃ capability call, checkTool lookup = .ok (capability, call) ∧
        capability.hasPermission .requiresApproval
  | _ => False

/-- Everything a step can do. -/
inductive Steps (setting : Setting) (agents : Agents) : Label → Agents → Prop where
  /-- Nothing, or an action through a handle that needs no approval. -/
  | direct {label : Label} {events : List Event} : Plain events → gatedIn events = [] →
      Steps setting agents label (agents.record events)
  /-- A gated action is queued, or there is no room for it. -/
  | enqueue {label : Label} {asking : Asking} {pid : UInt32} {handle : UInt64}
      {capability : Capability} {payload : Bytes} {action : Action} : Asks label →
      capability.hasPermission .requiresApproval →
      Steps setting agents label
        (enqueue setting asking pid handle capability payload action agents).1
  /-- The table of approvals moves on by itself. -/
  | approvals {label : Label} {call : Approvals.Call} :
      (∀ surroundings demand, call ≠ .openRequest surroundings demand) → (∀ id, call ≠ .close id) →
      Steps setting agents label { agents with desk := Approvals.step setting agents.desk call }
  | resolve {messages : List Bytes} {now : UInt64} {answers : Nat → Answer} {decide : Nat → Bool} :
      Steps setting agents (.resolve messages now answers decide)
        (resolveApprovals setting messages now answers decide agents)

theorem gatedIn_performed_of_not (ungated : ¬effect.gated) : gatedIn [.performed effect] = [] := by
  simp [gatedIn, ungated]

theorem plain_performed (effect : Effect) : Plain [.performed effect] := by
  intro event present
  exact .inl ⟨effect, List.mem_singleton.mp present⟩

theorem Steps.nothing (setting : Setting) (agents : Agents) (label : Label) :
    Steps setting agents label agents := by
  have same : agents.record [] = agents := by
    simp [Agents.record]
  have steps : Steps setting agents label (agents.record []) :=
    .direct (nofun) rfl
  rwa [same] at steps

theorem steps_send (pid : Option UInt32) (handle : UInt64)
    (prepared : Except UInt64 (Capability × Bytes)) (asking : Asking) (answer : Answer)
    (agents : Agents) :
    Steps setting agents (.send pid handle prepared asking answer)
      (sysSendOutcome setting pid handle prepared asking answer agents).1 := by
  simp only [sysSendOutcome]
  split
  · exact .nothing setting agents _
  · exact .nothing setting agents _
  rename_i pid capability payload
  by_cases gated : capability.hasPermission .requiresApproval
  · rw [if_neg (by simp [gated])]
    split
    · exact .nothing setting agents _
    · exact .enqueue ⟨capability, payload, rfl, gated⟩ gated
  · rw [if_pos (by simpa using gated)]
    simp only [performSend]
    split
    · exact .direct (nofun) rfl
    · exact .direct (plain_performed _) (gatedIn_performed_of_not gated)

theorem steps_toolCall (handle : UInt64) (lookup : ToolLookup) (asking : Asking) (answer : Answer)
    (agents : Agents) :
    Steps setting agents (.toolCall handle lookup asking answer)
      (sysToolCall setting handle lookup asking answer agents).1 := by
  simp only [sysToolCall]
  split
  · exact .nothing setting agents _
  rename_i capability call checked
  by_cases gated : capability.hasPermission .requiresApproval
  · rw [if_pos gated]
    exact .enqueue ⟨capability, call, checked, gated⟩ gated
  · rw [if_neg gated]
    exact .direct (plain_performed _) (gatedIn_performed_of_not gated)

theorem steps_step (agents : Agents) (label : Label) :
    Steps setting agents label (step setting agents label) := by
  cases label with
  | send pid handle prepared asking answer => exact steps_send _ _ _ _ _ _
  | toolCall handle lookup asking answer => exact steps_toolCall _ _ _ _ _
  | message message =>
    exact @Steps.approvals setting agents _ (.onMessage 0 message)
      (fun _ _ => Approvals.Call.noConfusion) fun _ => Approvals.Call.noConfusion
  | checkTimeouts now =>
    exact @Steps.approvals setting agents _ (.checkTimeouts now)
      (fun _ _ => Approvals.Call.noConfusion) fun _ => Approvals.Call.noConfusion
  | resolve messages now answers decide => exact .resolve

/-! ## The account -/

/-- Everything in the queue is gated; the gated actions at the boundary are the
captured actions of the approved requests, each once and in their order; and what was queued is
still queued or was applied, once. -/
structure Accounted (agents : Agents) : Prop where
  gated : ∀ request ∈ agents.queue.items, request.effect.gated
  effects : gatedIn agents.log = approvedIn agents.log
  account : (enqueuedIn agents.log).Perm (agents.queue.items ++ appliedIn agents.log)

namespace Accounted

variable {agents : Agents}

theorem boot : Accounted .boot := ⟨nofun, rfl, List.Perm.refl _⟩

variable (accounted : Accounted agents)
include accounted

theorem withDesk (desk : Desk) : Accounted { agents with desk } :=
  ⟨accounted.gated, accounted.effects, accounted.account⟩

theorem record (plain : Plain events) (ungated : gatedIn events = []) :
    Accounted (agents.record events) where
  gated := accounted.gated
  effects := by
    simp only [Agents.record, gatedIn_append, approvedIn_append, ungated,
      plain.approvedIn_eq_nil, List.append_nil]
    exact accounted.effects
  account := by
    simp only [Agents.record, enqueuedIn_append, appliedIn_append,
      plain.enqueuedIn_eq_nil, plain.appliedIn_eq_nil, List.append_nil]
    exact accounted.account

theorem enqueued (nextRequest : UInt32) (desk : Desk) (isGated : request.effect.gated)
    (pushed : queue.items = agents.queue.items ++ [request]) :
    Accounted (Agents.record { agents with nextRequest, desk, queue } [.enqueued request]) where
  gated := by
    simp only [Agents.record, pushed]
    exact List.forall_mem_append.mpr
      ⟨accounted.gated, List.forall_mem_singleton.mpr isGated⟩
  effects := by
    simpa [Agents.record, gatedIn, approvedIn] using accounted.effects
  account := by
    have applied : appliedIn [.enqueued request] = [] := rfl
    have enqueued : enqueuedIn [.enqueued request] = [request] := rfl
    simp only [Agents.record, enqueuedIn_append, appliedIn_append, enqueued,
      applied, List.append_nil, pushed, List.append_assoc]
    refine (accounted.account.append_right [request]).trans ?_
    rw [List.append_assoc]
    exact List.perm_append_comm.append_left _

theorem apply (answer : Answer) (approved : Bool) (closed : Option Open) (desk : Desk)
    (left : (request :: others.items).Perm agents.queue.items) :
    Accounted (Agent.apply answer request approved closed
        { agents with desk, queue := others }) where
  gated other queued := accounted.gated other (left.subset (List.mem_cons_of_mem _ queued))
  effects := by
    have isGated := accounted.gated request (left.subset List.mem_cons_self)
    simp only [Agent.apply, Agents.record, gatedIn_append, approvedIn_append, accounted.effects]
    congr 1
    cases approved with
    | false => rfl
    | true =>
      -- What is performed is neither an application nor gated by anything else.
      have performed : approvedIn (perform answer request) = [] :=
        (plain_perform answer request).approvedIn_eq_nil
      have marker : approvedIn (.applied request true closed answer :: perform answer request) =
          if answer.reaches request.action then [request.effect] else [] := by
        simp only [approvedIn, List.filterMap_cons] at performed ⊢
        rw [performed]
        split <;> simp_all
      rw [if_pos rfl, marker, ← gatedIn_perform answer isGated]
      rfl
  account := by
    have plain := plain_decided answer request approved
    simp only [Agent.apply, Agents.record, enqueuedIn_append, appliedIn_append]
    generalize (if approved then perform answer request
      else [.unblocked request.pid (err EDENIED)]) = events at plain ⊢
    have enqueued : enqueuedIn (.applied request approved closed answer :: events) = [] :=
      plain.enqueuedIn_eq_nil
    have applied : appliedIn (.applied request approved closed answer :: events) = [request] :=
      congrArg (request :: ·) plain.appliedIn_eq_nil
    rw [enqueued, applied, List.append_nil]
    refine accounted.account.trans ((left.symm.append_right _).trans ?_)
    rw [List.cons_append, ← List.append_assoc]
    exact (List.perm_append_singleton _ _).symm

end Accounted

/-- One round of a resolution: nothing is ready, or a ready request leaves the
queue and is applied. -/
theorem resolveOne_cases (answer : Answer) (agents : Agents) : (resolveOne answer agents = none ∧
        ∀ request ∈ agents.queue.items, ready agents.desk request = false) ∨
      ∃ early request late others, agents.queue.items = early ++ request :: late ∧
          ready agents.desk request ∧
          others.items = late ++ early ∧
          resolveOne answer agents = some (apply answer request (approves agents.desk request)
              (closedFor agents.desk request)
              { agents with
                desk := closeFor agents.desk request
                queue := others }) := by
  rcases agents.queue.takeFirst_cases (ready agents.desk) with
    ⟨nothing, waiting⟩ | ⟨early, request, late, others, items, isReady, taken, rest⟩
  · exact .inl ⟨by rw [resolveOne, nothing]; rfl, waiting⟩
  · refine .inr ⟨early, request, late, others, items, isReady, rest, ?_⟩
    rw [resolveOne, taken]
    rfl

/-- A rule for the rounds of a resolution: what every round keeps holds at the
end, and then nothing in the queue is ready. -/
theorem resolveLoop_rule {Holds : Agents → Prop} (kept : ∀ answer agents next,
      Holds agents → resolveOne answer agents = some next → Holds next) (answers : Nat → Answer)
    (holds : Holds agents) (enough : agents.queue.items.length ≤ rounds) :
    Holds (resolveLoop answers rounds agents) ∧
      ∀ request ∈ (resolveLoop answers rounds agents).queue.items,
        ready (resolveLoop answers rounds agents).desk request = false := by
  induction rounds generalizing agents with
  | zero =>
    have empty := List.eq_nil_of_length_eq_zero (Nat.le_zero.mp enough)
    refine ⟨holds, ?_⟩
    intro request present
    rw [resolveLoop, empty] at present
    cases present
  | succ rounds ih =>
    rcases resolveOne_cases (answers rounds) agents with
      ⟨nothing, waiting⟩ | ⟨early, request, late, others, items, _, rest, next⟩
    · simp only [resolveLoop, nothing]
      exact ⟨holds, waiting⟩
    · simp only [resolveLoop, next]
      refine ih (kept _ _ _ holds next) ?_
      change others.items.length ≤ rounds
      rw [items] at enough
      rw [rest]
      simp only [List.length_append, List.length_cons] at enough ⊢
      omega

theorem accounted_resolveOne (answer : Answer) (agents next : Agents) (accounted : Accounted agents)
    (resolved : resolveOne answer agents = some next) :
    Accounted next := by
  rcases resolveOne_cases answer agents with
    ⟨nothing, _⟩ | ⟨early, request, late, others, items, _, rest, taken⟩
  · cases nothing.symm.trans resolved
  · obtain rfl := Option.some.inj (taken.symm.trans resolved)
    refine accounted.apply answer _ _ _ ?_
    rw [items, rest]
    exact (List.perm_append_comm.cons request).trans List.perm_middle.symm

/-- A rule for the console, which decides every pending request: what every
application keeps holds at the end, and then the queue is empty. -/
theorem resolveWith_rule {Holds : Agents → Prop}
    (kept : ∀ answer approved agents request others, Holds agents →
      agents.queue.items = request :: others.items →
        Holds (apply answer request approved none { agents with queue := others }))
    (answers : Nat → Answer) (decide : Nat → Bool)
    (holds : Holds agents) (enough : agents.queue.items.length ≤ rounds) :
    Holds (resolveWith answers decide rounds agents) ∧
      (resolveWith answers decide rounds agents).queue.items = [] := by
  induction rounds generalizing agents with
  | zero =>
    exact ⟨holds, List.eq_nil_of_length_eq_zero (Nat.le_zero.mp enough)⟩
  | succ rounds ih =>
    cases items : agents.queue.items with
    | nil =>
      have empty : agents.queue.popFront = none := by
        obtain ⟨_, ⟨list, fits⟩, _, _⟩ := agents
        subst items
        rfl
      simp only [resolveWith, empty]
      exact ⟨holds, items⟩
    | cons request rest =>
      obtain ⟨others, popped, left⟩ := BoundedVec.popFront_of_items items
      simp only [resolveWith, popped]
      refine ih (kept _ _ _ _ _ holds (by rw [items, left])) ?_
      change others.items.length ≤ rounds
      rw [items, List.length_cons] at enough
      rw [left]
      omega

theorem accounted_console (answer : Answer) (approved : Bool) (agents : Agents)
    (request : Pending) (others : BoundedVec Pending maxPending) (accounted : Accounted agents)
    (items : agents.queue.items = request :: others.items) :
    Accounted (apply answer request approved none { agents with queue := others }) :=
  accounted.apply answer approved none agents.desk (by rw [items])

theorem accounted_resolveApprovals (messages : List Bytes) (now : UInt64) (answers : Nat → Answer)
    (decide : Nat → Bool) (accounted : Accounted agents) :
    Accounted (resolveApprovals setting messages now answers decide agents) := by
  rw [resolveApprovals]
  split
  · exact (resolveLoop_rule accounted_resolveOne answers (accounted.withDesk _) le_rfl).1
  · exact (resolveWith_rule accounted_console answers decide accounted le_rfl).1

theorem Accounted.steps (accounted : Accounted agents) (steps : Steps setting agents label next) :
    Accounted next := by
  cases steps with
  | direct plain ungated => exact accounted.record plain ungated
  | @enqueue _ asking pid handle capability payload action _ gated =>
    rcases @enqueue_cases setting asking pid handle capability payload action agents with
      ⟨desk, _, result⟩ | ⟨desk, request, queue, _, same, pushed, result⟩
    · rw [result]
      exact ⟨accounted.gated, accounted.effects, accounted.account⟩
    · rw [result]
      refine accounted.enqueued _ desk ?_ pushed
      rw [same]
      cases action <;> exact gated
  | approvals _ _ => exact accounted.withDesk _
  | resolve => exact accounted_resolveApprovals _ _ _ _ accounted

theorem accounted_after (setting : Setting) (labels : List Label) :
    Accounted (Run.after (step setting) .boot labels) :=
  Run.always labels Accounted.boot fun agents label accounted =>
    accounted.steps (steps_step agents label)

/-! ## What is queued -/

end Cdk.Agent

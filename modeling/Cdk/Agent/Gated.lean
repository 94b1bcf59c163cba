import Cdk.Agent.Account
import Cdk.Approvals.Votes

/-!
# Gated actions run as approved, and once

In signed mode the decision that is applied to a request is its own as long as no request is
opened under an id that is still in the table.  An entry stays in the table for good when its
request did not fit the queue: when the 32-bit ids have come round, a request can be performed
with the approval of another.
-/

namespace Cdk.Agent

open ByteFormat Link Approvals Run

variable {setting : Setting}

/-! ## Own decisions -/

/-- The decision that was applied is the request's own: it could not be sent
and was denied, or the entry that was closed is the one that was opened for it,
and was decided accordingly. -/
def OwnDecision (request : Pending) (approved : Bool) (closed : Option Open) : Prop :=
  (request.unsendable ∧ approved = false) ∨ ∃ entry outcome,
      closed = some entry ∧ request.signed = some entry.number ∧
        entry.outcome = some outcome ∧ (approved ↔ outcome = .approved)

/-- Every decision that was applied was the request's own. -/
def OwnDecisions (agents : Agents) : Prop :=
  ∀ request approved closed answer,
    Event.applied request approved closed answer ∈ agents.log →
      OwnDecision request approved closed

/-- The request waits for its own entry, which is undecided. -/
def Waits (desk : Desk) (request : Pending) : Prop := request.unsendable = false ∧
    ∃ entry ∈ desk.opened, request.signed = some entry.number ∧ entry.outcome = none

/-- A signed request is not opened under an id that is still in the table. -/
def FreshId (agents : Agents) (label : Label) : Prop := Asks label →
    ∀ entry ∈ agents.desk.opened, entry.id ≠ UInt32.ofNat agents.desk.next

/-- The queue and the table of approvals belong together. -/
structure Linked (agents : Agents) : Prop where
  numbered : Numbered agents.desk
  distinct : (agents.desk.opened.map Open.id).Nodup
  /-- A queued request could not be sent, or has an entry. -/
  entered : ∀ request ∈ agents.queue.items, (request.unsendable ∧ request.signed = none) ∨
      (request.unsendable = false ∧
        ∃ entry ∈ agents.desk.opened, request.signed = some entry.number)
  /-- No two requests have the same entry. -/
  apart : (agents.queue.items.filterMap Pending.signed).Nodup
  decisions : OwnDecisions agents

theorem linked_boot : Linked .boot where
  numbered := .boot
  distinct := List.nodup_nil
  entered := nofun
  apart := List.nodup_nil
  decisions := nofun

theorem find_own {desk : Desk} (distinct : (desk.opened.map Open.id).Nodup)
    (present : entry ∈ desk.opened) :
    (desk.opened.find? fun other => other.id == UInt32.ofNat entry.number) = some entry := by
  refine FirstMatch.find_of_unique present (beq_self_eq_true _) ?_
  intro other alsoPresent same
  exact List.inj_on_of_nodup_map distinct alsoPresent present (eq_of_beq same)

section Own

variable {desk : Desk} {request : Pending} {entry : Open}
variable (distinct : (desk.opened.map Open.id).Nodup)
variable (present : entry ∈ desk.opened)
variable (owns : request.signed = some entry.number)

include distinct present owns

theorem closedFor_own : closedFor desk request = some entry := by
  simp only [closedFor, Pending.signedId, owns, Option.map_some, Option.bind_some]
  exact find_own distinct present

theorem ready_own (sendable : request.unsendable = false) :
    ready desk request = entry.outcome.isSome := by
  simp only [ready, sendable, Bool.false_or, Pending.signedId, owns,
    Option.map_some, Option.any_some, Desk.outcome, find_own distinct present,
    Option.bind_some]

theorem approves_own : approves desk request = (entry.outcome == some .approved) := by
  simp only [approves, Pending.signedId, owns, Option.map_some, Option.any_some,
    Desk.outcome, find_own distinct present, Option.bind_some]

theorem mem_closeFor (alsoPresent : other ∈ desk.opened) (different : other.number ≠ entry.number) :
    other ∈ (closeFor desk request).opened := by
  simp only [closeFor, Pending.signedId, owns, Option.map_some, Desk.close]
  rw [List.mem_eraseP_of_neg]
  · exact alsoPresent
  · intro same
    refine different (congrArg Open.number ?_)
    exact List.inj_on_of_nodup_map distinct alsoPresent present (eq_of_beq same)

end Own

theorem closeFor_sublist (desk : Desk) (request : Pending) :
    (closeFor desk request).opened.Sublist desk.opened := by
  rw [closeFor]
  split
  · exact List.Sublist.refl _
  · exact List.eraseP_sublist

theorem next_closeFor (desk : Desk) (request : Pending) :
    (closeFor desk request).next = desk.next := by
  rw [closeFor]
  split <;> rfl

variable {agents : Agents}

theorem ownDecisions_apply (answer : Answer) (before : OwnDecisions agents)
    (own : OwnDecision request approved closed) :
    OwnDecisions (apply answer request approved closed agents) := by
  intro other decided shut given present
  rcases List.mem_append.mp present with earlier | new
  · exact before other decided shut given earlier
  · rcases List.mem_cons.mp new with same | later
    · cases same
      exact own
    · exact absurd later (plain_decided answer request approved).not_applied

namespace Linked

variable {agents : Agents}

theorem approvals (linked : Linked agents) {call : Approvals.Call}
    (opensNot : ∀ surroundings demand, call ≠ .openRequest surroundings demand)
    (closesNot : ∀ id, call ≠ .close id) : Linked
      { agents with desk := Approvals.step setting agents.desk call } := by
  have numbers := numbers_step setting agents.desk opensNot closesNot
  refine ⟨linked.numbered.step setting call, ?_, ?_, linked.apart, linked.decisions⟩
  · have ids (entries : List Open) :
        entries.map Open.id = (entries.map Open.number).map UInt32.ofNat := by
      rw [List.map_map]
      rfl
    rw [ids, numbers, ← ids]
    exact linked.distinct
  · intro request queued
    refine (linked.entered request queued).imp_right ?_
    rintro ⟨sendable, entry, present, owns⟩
    have stays : entry.number ∈
        (Approvals.step setting agents.desk call).opened.map Open.number := by
      rw [numbers]
      exact List.mem_map_of_mem present
    obtain ⟨later, alsoPresent, same⟩ := List.mem_map.mp stays
    exact ⟨sendable, later, alsoPresent, by rw [owns, same]⟩

theorem pump (linked : Linked agents) (messages : List Bytes) (now : UInt64) :
    Linked { agents with desk := agents.desk.pump setting messages now } := by
  have received (taken : List Bytes) : Linked
        { agents with desk := taken.foldl (Desk.onMessage setting) agents.desk } := by
    induction taken using List.reverseRecOn with
    | nil => exact linked
    | append_singleton early message ih =>
      rw [List.foldl_append]
      exact @approvals setting _ ih (.onMessage 0 message)
        (fun _ _ => Approvals.Call.noConfusion) fun _ =>
          Approvals.Call.noConfusion
  exact @approvals setting _ (received (messages.filter Approval.isApproval))
    (.checkTimeouts now) (fun _ _ => Approvals.Call.noConfusion) fun _ =>
      Approvals.Call.noConfusion

variable {request : Pending}

/-- A request that could not be sent, or its own entry, for a request that is
ready. -/
theorem ownDecision (linked : Linked agents)
    (queued : request ∈ agents.queue.items) (isReady : ready agents.desk request) :
    OwnDecision request (approves agents.desk request) (closedFor agents.desk request) := by
  rcases linked.entered request queued with
    ⟨unsendable, unsigned⟩ | ⟨sendable, entry, present, owns⟩
  · left
    refine ⟨unsendable, ?_⟩
    simp [approves, Pending.signedId, unsigned]
  · right
    rw [ready_own linked.distinct present owns sendable] at isReady
    obtain ⟨outcome, decided⟩ := Option.isSome_iff_exists.mp isReady
    refine ⟨entry, outcome, closedFor_own linked.distinct present owns, owns, decided, ?_⟩
    rw [approves_own linked.distinct present owns, decided]
    simp

/-- Applying a ready request keeps the link. -/
theorem resolveOne (answer : Answer) (agents next : Agents) (linked : Linked agents)
    (resolved : Agent.resolveOne answer agents = some next) : Linked next := by
  rcases resolveOne_cases answer agents with
    ⟨nothing, _⟩ | ⟨early, request, late, others, items, isReady, rest, taken⟩
  · cases nothing.symm.trans resolved
  · obtain rfl := Option.some.inj (taken.symm.trans resolved)
    have queued : request ∈ agents.queue.items := by
      rw [items]
      exact List.mem_append_right _ List.mem_cons_self
    have permuted : (request :: others.items).Perm agents.queue.items := by
      rw [items, rest]
      exact (List.perm_append_comm.cons request).trans List.perm_middle.symm
    have apart : ((request :: others.items).filterMap Pending.signed).Nodup :=
      (permuted.filterMap _).nodup_iff.mpr linked.apart
    refine ⟨?_, ?_, ?_, ?_, ?_⟩
    · exact linked.numbered.shrink ((closeFor_sublist _ _).map _) (next_closeFor _ _).ge
    · exact linked.distinct.sublist ((closeFor_sublist _ _).map _)
    · intro other waiting
      have alsoQueued : other ∈ agents.queue.items :=
        permuted.subset (List.mem_cons_of_mem _ waiting)
      refine (linked.entered other alsoQueued).imp_right ?_
      rintro ⟨sendable, entry, present, owns⟩
      refine ⟨sendable, entry, ?_, owns⟩
      rcases linked.entered request queued with
        ⟨_, unsigned⟩ | ⟨_, ownEntry, ownPresent, requestOwns⟩
      · change entry ∈ (closeFor agents.desk request).opened
        simpa [closeFor, Pending.signedId, unsigned] using present
      · refine mem_closeFor linked.distinct ownPresent requestOwns present ?_
        intro same
        rw [List.filterMap_cons, requestOwns] at apart
        refine (List.nodup_cons.mp apart).1 ?_
        exact List.mem_filterMap.mpr ⟨other, waiting, by rw [owns, same]⟩
    · exact (apart.sublist ((List.sublist_cons_self request others.items).filterMap _))
    · exact ownDecisions_apply answer linked.decisions (linked.ownDecision queued isReady)

variable (linked : Linked agents)
include linked

/-- Asking for signatures keeps the link, whether or not the request is then
queued. -/
theorem asked (fresh : ∀ entry ∈ agents.desk.opened, entry.id ≠ UInt32.ofNat agents.desk.next)
    (nextRequest : UInt32) (isAsked : Asked setting agents.desk desk request) :
    Linked { agents with nextRequest, desk } := by
  cases isAsked with
  | console _ _ _ =>
    exact ⟨linked.numbered, linked.distinct, linked.entered, linked.apart, linked.decisions⟩
  | unsendable same next _ _ =>
    refine ⟨?_, ?_, ?_, linked.apart, linked.decisions⟩
    · exact linked.numbered.shrink (by rw [same]) next
    · simpa only [same] using linked.distinct
    · simpa only [same] using linked.entered
  | @opened _ _ entry number appended next _ _ =>
    refine ⟨linked.numbered.extend number appended next, ?_, ?_, linked.apart, linked.decisions⟩
    · simp only [appended, List.map_append, List.map_singleton]
      refine linked.distinct.append (List.nodup_singleton _) (List.disjoint_singleton.mpr ?_)
      intro taken
      obtain ⟨other, present, same⟩ := List.mem_map.mp taken
      refine fresh other present (same.trans ?_)
      rw [Open.id, number]
    · intro other queued
      refine (linked.entered other queued).imp_right ?_
      rintro ⟨sendable, own, present, owns⟩
      refine ⟨sendable, own, ?_, owns⟩
      simp only [appended]
      exact List.mem_append_left _ present

theorem enqueued (signing : signedMode setting)
    (fresh : ∀ entry ∈ agents.desk.opened, entry.id ≠ UInt32.ofNat agents.desk.next)
    (nextRequest : UInt32) (isAsked : Asked setting agents.desk desk request)
    (pushed : queue.items = agents.queue.items ++ [request]) :
    Linked (Agents.record { agents with nextRequest, desk, queue } [.enqueued request]) := by
  have known := linked.asked fresh nextRequest isAsked
  have isNew : ∀ number ∈ agents.queue.items.filterMap Pending.signed,
      number ≠ agents.desk.next := by
    intro number taken
    obtain ⟨other, queued, signed⟩ := List.mem_filterMap.mp taken
    rcases linked.entered other queued with
      ⟨_, unsigned⟩ | ⟨_, entry, present, owns⟩
    · cases unsigned.symm.trans signed
    · obtain rfl := Option.some.inj (owns.symm.trans signed)
      exact Nat.ne_of_lt (linked.numbered.below entry present)
  refine ⟨known.numbered, known.distinct, ?_, ?_, ?_⟩
  · intro other queued
    change other ∈ queue.items at queued
    rw [pushed] at queued
    rcases List.mem_append.mp queued with earlier | last
    · exact known.entered other earlier
    rw [List.mem_singleton.mp last]
    cases isAsked with
    | console unsigning _ _ => cases signing.symm.trans unsigning
    | unsendable _ _ unsigned unsendable => exact .inl ⟨unsendable, unsigned⟩
    | @opened _ _ entry number appended _ signed sendable =>
      refine .inr ⟨sendable, entry, ?_, by rw [signed, number]⟩
      change entry ∈ desk.opened
      rw [appended]
      exact List.mem_append_right _ List.mem_cons_self
  · change (queue.items.filterMap Pending.signed).Nodup
    rw [pushed, List.filterMap_append]
    cases isAsked with
    | console unsigning _ _ => cases signing.symm.trans unsigning
    | unsendable _ _ unsigned _ =>
      simpa [List.filterMap_cons, unsigned] using linked.apart
    | opened _ _ _ signed _ =>
      simp only [List.filterMap_cons, signed, List.filterMap_nil]
      refine linked.apart.append (List.nodup_singleton _) (List.disjoint_singleton.mpr ?_)
      exact fun taken => isNew _ taken rfl
  · intro other approved closed answer present
    rcases List.mem_append.mp present with earlier | last
    · exact linked.decisions other approved closed answer earlier
    · cases List.mem_singleton.mp last

theorem steps (signing : signedMode setting) (fresh : FreshId agents label)
    (steps : Steps setting agents label next) : Linked next := by
  cases steps with
  | direct plain _ =>
    refine ⟨linked.numbered, linked.distinct, linked.entered, linked.apart, ?_⟩
    intro request approved closed answer present
    rcases List.mem_append.mp present with earlier | new
    · exact linked.decisions request approved closed answer earlier
    · exact absurd new plain.not_applied
  | @enqueue _ asking pid handle capability payload action asks _ =>
    rcases @enqueue_cases setting asking pid handle capability payload action agents with
      ⟨desk, origin, result⟩ | ⟨desk, request, queue, isAsked, _, pushed, result⟩
    · rw [result]
      rcases origin with rfl | ⟨request, isAsked⟩
      · exact ⟨linked.numbered, linked.distinct, linked.entered, linked.apart, linked.decisions⟩
      · exact linked.asked (fresh asks) _ isAsked
    · rw [result]
      exact linked.enqueued signing (fresh asks) _ isAsked pushed
  | approvals opensNot closesNot => exact linked.approvals opensNot closesNot
  | resolve =>
    rw [resolveApprovals, if_pos signing]
    exact (resolveLoop_rule Linked.resolveOne _ (linked.pump _ _) le_rfl).1

end Linked

theorem linked_after (signing : signedMode setting)
    (fresh : Run.Along (step setting) FreshId .boot labels) :
    Linked (after (step setting) .boot labels) :=
  invariant linked_boot (fun agents label linked isFresh =>
      linked.steps signing isFresh (steps_step agents label)) fresh

variable (count : Nat)

/-- The state once the counters have moved on. -/
def advanced (agents : Agents) : Agents where
  desk := ⟨agents.desk.opened, agents.desk.assembler, agents.desk.next + count, agents.desk.audit⟩
  queue := agents.queue
  nextRequest := agents.nextRequest + UInt32.ofNat count
  log := agents.log

/-- The event applies an approval to a request whose own entry, the given one,
is another and undecided. -/
def foreign (own : Open) : Event → Bool
  | .applied request true (some entry) _ =>
    !request.unsendable && request.signed == some own.number &&
      own.outcome.isNone && entry.number != own.number
  | _ => false

end Cdk.Agent

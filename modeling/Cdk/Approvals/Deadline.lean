import Cdk.Approvals.Votes

/-!
# Late votes

The deadline of a request is enforced only by the sweep `checkTimeouts`; a vote
is counted without a look at the clock.  A pump receives before it sweeps, so a
vote that arrives late in a pump still counts.  Once a sweep has seen the
deadline pass, no vote changes the request any more.
-/

namespace Cdk.Approvals

open ByteFormat Link Link.Approval Run

variable (setting : Setting) (calls : List Call)

/-- A sweep at a clock past the request's deadline has run since the request
was opened. -/
def SweptSince (request : Open) : Prop :=
  ∃ first clock rest, calls = first ++ .checkTimeouts clock :: rest ∧
      request.number < (after (step setting) .boot first).next ∧
      expired clock request.deadline

/-- Whenever a message is received, the requests whose deadline has passed have
been swept. -/
def Timely : Prop := ∀ early now message late, calls = early ++ .onMessage now message :: late →
      ∀ request ∈ (after (step setting) .boot early).opened,
        expired now request.deadline → SweptSince setting early request

/-- A message that is received past the deadline of a request neither approves
the request nor adds to its count. -/
def LateVotesNeverApprove : Prop :=
  ∀ early now message late, calls = early ++ .onMessage now message :: late →
      ∀ old ∈ (after (step setting) .boot early).opened, expired now old.deadline →
          ∀ new ∈ (after (step setting) .boot (early ++ [.onMessage now message])).opened,
            new.number = old.number → new.approvals = old.approvals ∧
                (new.outcome = some .approved → old.outcome = some .approved)

variable {setting calls} {desk : Desk}

/-- A request with this number and deadline has been decided. -/
def Decided (number : Nat) (deadline : UInt64) (desk : Desk) : Prop := number < desk.next ∧
    ∀ request ∈ desk.opened, request.number = number → request.deadline = deadline →
        request.outcome ≠ none

theorem decided_checkTimeouts (known : number < desk.next) (passed : expired clock deadline) :
    Decided number deadline (desk.checkTimeouts clock) := by
  refine ⟨known, ?_⟩
  intro new present _ due undecided
  obtain ⟨old, _, rfl⟩ := List.mem_map.mp present
  by_cases overdue : old.overdue clock
  · rw [if_pos overdue] at undecided
    cases undecided
  · rw [if_neg overdue] at due undecided
    apply overdue
    rw [Open.overdue, undecided, due, passed]
    rfl

theorem Decided.step {number : Nat} {deadline : UInt64}
    (decided : Decided number deadline desk) (call : Call) :
    Decided number deadline (Approvals.step setting desk call) := by
  refine ⟨decided.1.trans_le (next_le_step setting desk call), ?_⟩
  intro new present named due undecided
  rcases mem_step present with ⟨old, found, becomes⟩ | ⟨_, _, _, rfl⟩
  · have kept := congrArg Open.deadline becomes.keeps
    change new.deadline = old.deadline at kept
    exact decided.2 old found (becomes.number_eq ▸ named) (kept ▸ due) (becomes.undecided undecided)
  · exact absurd named (Nat.ne_of_gt decided.1)

/-- What has been swept past its deadline is decided. -/
theorem outcome_of_sweptSince (present : request ∈ (after (step setting) .boot calls).opened)
    (swept : SweptSince setting calls request) : ∃ outcome, request.outcome = some outcome := by
  obtain ⟨first, clock, rest, rfl, known, passed⟩ := swept
  rw [after_append, after_cons] at present
  have decided : Decided request.number request.deadline (after (step setting)
          (step setting (after (step setting) .boot first) (.checkTimeouts clock)) rest) :=
    always rest (decided_checkTimeouts known passed) fun _ call holds =>
      holds.step call
  exact Option.ne_none_iff_exists'.mp (decided.2 request present rfl rfl)

/-- If every deadline is swept before the next message is received, late votes
have no effect. -/
theorem late_votes_never_approve
    (setting : Setting)
    (calls : List Call)
    (timely : Timely setting calls) :
    LateVotesNeverApprove setting calls := by
  intro early now message late split old found passed new present named
  obtain ⟨outcome, decided⟩ :=
    outcome_of_sweptSince found (timely early now message late split old found passed)
  have numbered := Numbered.after setting early
  rw [after_append, after_cons, after_nil] at present
  rcases mem_step present with ⟨earlier, alsoFound, becomes⟩ | ⟨_, _, called, _⟩
  · have same : earlier = old :=
      numbered.eq_of_number alsoFound found (becomes.number_eq.symm.trans named)
    subst same
    rw [becomes.eq_of_decided decided]
    exact ⟨rfl, fun approved => approved⟩
  · cases called

/-! ## Votes before and after a sweep -/

theorem next_after_messages (setting : Setting) (desk : Desk) (now : UInt64)
    (messages : List Bytes) :
    (after (step setting) desk (messages.map (Call.onMessage now))).next = desk.next := by
  induction messages generalizing desk with
  | nil => rfl
  | cons message rest ih =>
    rw [List.map_cons, after_cons, ih]
    exact Desk.next_onMessage desk message

theorem timely_of_sweep (setting : Setting) (opening : Call)
    (isOpening : ∀ now message, opening ≠ .onMessage now message) (clock : UInt64)
    (messages : List Bytes) : Timely setting (opening :: .checkTimeouts clock ::
        messages.map (Call.onMessage clock)) := by
  intro early now message late split request present passed
  match early, split with
  | [], split =>
    injection split with called _
    exact absurd called (isOpening now message)
  | [_], split =>
    injection split with _ split
    injection split with called _
    cases called
  | first :: second :: rest, split =>
    injection split with called split
    injection split with swept split
    subst called swept
    obtain ⟨received, others, rfl, firstPart, secondPart⟩ := List.map_eq_append_iff.mp split
    subst firstPart
    obtain ⟨last, _, _, sameCall, _⟩ := List.map_eq_cons_iff.mp secondPart
    injection sameCall with sameClock _
    subst sameClock
    refine ⟨[opening], clock, received.map (Call.onMessage clock), rfl, ?_, passed⟩
    have below := (Numbered.after setting _).below request present
    rw [after_cons, after_cons, next_after_messages] at below
    exact below

/-- A time stamp past the deadline of the sample request. -/
def sampleLate : UInt64 := 130000000000

theorem late_votes_after_sweep : Timely sampleSetting (sampleOpening :: .checkTimeouts sampleLate ::
        (encodeDecision (sampleDecision 1 true) ++ encodeDecision (sampleDecision 2 true)).map
            (Call.onMessage sampleLate)) ∧
    LateVotesNeverApprove sampleSetting (sampleOpening :: .checkTimeouts sampleLate ::
        (encodeDecision (sampleDecision 1 true) ++ encodeDecision (sampleDecision 2 true)).map
            (Call.onMessage sampleLate)) := by
  have timely :=
    timely_of_sweep sampleSetting sampleOpening (fun _ _ => Call.noConfusion) sampleLate
      (encodeDecision (sampleDecision 1 true) ++ encodeDecision (sampleDecision 2 true))
  exact ⟨timely, late_votes_never_approve _ _ timely⟩

/-- Both votes arrive past the deadline and before the next sweep: the pump
approves the request. -/
theorem pump_approves_late : (∃ request ∈
      ((step sampleSetting .boot sampleOpening).pump sampleSetting
        ([sampleDecision 1 true, sampleDecision 2 true].flatMap encodeDecision)
        sampleLate).opened,
    request.outcome = some .approved ∧ expired sampleLate request.deadline) ∧
    ¬LateVotesNeverApprove sampleSetting (sampleCalls sampleLate [(1, true), (2, true)] ++
        [.checkTimeouts sampleLate]) := by
  refine ⟨by decide +kernel, fun never => ?_⟩
  have sent : encodeDecision (sampleDecision 2 true) ≠ [] := by decide +kernel
  have counted : ∃ old ∈ (after (step sampleSetting) .boot
      (sampleCalls sampleLate [(1, true)] ++
        (encodeDecision (sampleDecision 2 true)).dropLast.map (.onMessage sampleLate))).opened,
      ∃ new ∈ (after (step sampleSetting) .boot
        (sampleCalls sampleLate [(1, true), (2, true)])).opened,
        expired sampleLate old.deadline ∧ new.number = old.number ∧
          old.outcome = none ∧ new.outcome = some .approved := by
    decide +kernel
  obtain ⟨old, found, new, present, passed, named, undecided, approved⟩ := counted
  have calls : sampleCalls sampleLate [(1, true), (2, true)] =
      sampleCalls sampleLate [(1, true)] ++ ballot sampleLate (sampleDecision 2 true) := by
    simp [sampleCalls]
  rw [ballot_splits sampleLate sent, ← List.append_assoc] at calls
  rw [calls] at present
  have unchanged := never _ sampleLate _ [.checkTimeouts sampleLate]
    (by rw [calls, List.append_assoc]; rfl) old found passed new present named
  cases undecided.symm.trans (unchanged.2 approved)

end Cdk.Approvals

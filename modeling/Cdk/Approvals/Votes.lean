import Mathlib.Data.List.Induction
import Cdk.Approvals.Desk

/-!
# Quorum and veto

Every approved request has been approved by a quorum of distinct pinned
operators, and an outcome is final, whatever the calls.  A denial vetoes a
request only if its sender is not already counted among those who approved:
a changed mind is dropped as a duplicate vote.  The veto is absolute when nobody
changes their mind and ids are not reused too soon.
-/

namespace Cdk.Approvals

open ByteFormat Link Link.Approval Run

variable {setting : Setting}

/-! ## Valid votes -/

/-- A vote on a numbered request. -/
structure Vote where
  number : Nat
  operator : Operator
  approve : Bool
  signature : Signature

/-- The call is the receipt of a valid vote on a request that is still
undecided. -/
inductive Heard (setting : Setting) (desk : Desk) : Call → Vote → Prop where
  | vote {now : UInt64} {message : Bytes} {decision : Decision} {request : Open}
      {operator : Operator} {signature : Signature} : desk.completed message = some decision →
      request ∈ desk.opened → request.outcome = none → request.id = decision.id →
      setting.operators.find decision.operator = some operator →
      Signature.fromSlice decision.signature = some signature →
      verifyWith setting.crypto operator.key
        (request.statement decision.approve) signature Approval.context →
      Heard setting desk (.onMessage now message)
        ⟨request.number, operator, decision.approve, signature⟩

/-- The vote was heard during the calls. -/
def Received (setting : Setting) : List Call → Vote → Prop :=
  Run.Observed (step setting) (Heard setting) .boot

/-- A quorum of distinct pinned operators, each with an accepted signature over
the request's approve statement. -/
def HasQuorum (setting : Setting) (calls : List Call) (request : Open) : Prop :=
  1 ≤ request.quorum.toNat ∧ ∃ signers : List (Fixed 16),
      signers.Nodup ∧ request.quorum.toNat ≤ signers.length ∧
        ∀ signer ∈ signers, ∃ operator signature, setting.operators.find signer = some operator ∧
            verifyWith setting.crypto operator.key request.yes signature Approval.context ∧
            Received setting calls ⟨request.number, operator, true, signature⟩

/-- A valid denial was received. -/
def Vetoed (setting : Setting) (calls : List Call) (request : Open) : Prop := ∃ operator signature,
    Received setting calls ⟨request.number, operator, false, signature⟩

/-- Between the two states no outcome has changed. -/
def OutcomesFinal (before later : Desk) : Prop :=
  ∀ old ∈ before.opened, ∀ new ∈ later.opened, new.number = old.number →
    ∀ outcome, old.outcome = some outcome → new.outcome = some outcome

/-- Nobody changes an approval of an undecided request into a denial, and no
request gets the id of an undecided one. -/
def Orderly (setting : Setting) (desk : Desk) : Call → Prop
  | .openRequest _ _ =>
    ∀ request ∈ desk.opened, request.outcome = none → request.id ≠ UInt32.ofNat desk.next
  | .onMessage _ message =>
    ∀ decision, desk.completed message = some decision → ∀ request ∈ desk.opened,
        request.outcome = none → ValidFor setting decision request →
          decision.approve = false → decision.operator ∉ request.approvals
  | _ => True

variable {decision : Decision} {request : Open}

theorem verifies_iff : verifies setting operator request decision ↔
    ∃ signature, Signature.fromSlice decision.signature = some signature ∧
        verifyWith setting.crypto operator.key (request.statement decision.approve) signature
          Approval.context := by
  simp only [verifies]
  split
  · rename_i unreadable
    simp [unreadable]
  · rename_i signature readable
    simp [readable]

/-! ## What is counted -/

/-- The state of the count of a request. -/
structure Tallied (setting : Setting) (calls : List Call) (request : Open) : Prop where
  positive : 1 ≤ request.quorum.toNat
  distinct : request.approvals.Nodup
  signed : ∀ signer ∈ request.approvals, ∃ operator signature,
    setting.operators.find signer = some operator ∧
      verifyWith setting.crypto operator.key request.yes signature Approval.context ∧
      Received setting calls ⟨request.number, operator, true, signature⟩
  reached : request.outcome = some .approved → request.quorum.toNat ≤ request.approvals.length

variable {calls : List Call} {vote : Vote}

theorem Received.concat (received : Received setting calls vote) (call : Call) :
    Received setting (calls ++ [call]) vote :=
  observed_concat.mpr (.inl received)

theorem Tallied.concat (tallied : Tallied setting calls request) (call : Call) :
    Tallied setting (calls ++ [call]) request where
  positive := tallied.positive
  distinct := tallied.distinct
  signed := by
    intro signer counted
    obtain ⟨operator, signature, pinned, verified, received⟩ := tallied.signed signer counted
    exact ⟨operator, signature, pinned, verified, received.concat call⟩
  reached := tallied.reached

theorem tallied_entry (calls : List Call) (demand : Demand) (number : Nat) (now : UInt64) :
    Tallied setting calls (demand.entry setting number now) where
  positive := by
    have bound : (1 : UInt8) ≤ max demand.quorum 1 := by
      change (1 : UInt8) ≤ if demand.quorum ≤ 1 then 1 else demand.quorum
      split
      · exact UInt8.le_refl 1
      · exact UInt8.le_of_lt (UInt8.not_le.mp ‹_›)
    exact UInt8.le_iff_toNat_le.mp bound
  distinct := List.nodup_nil
  signed := nofun
  reached := by rintro ⟨⟩

variable {desk : Desk}

theorem tallied_vote (reached : after (step setting) .boot calls = desk)
    (present : request ∈ desk.opened) (completes : desk.completed message = some decision)
    (counts : Counts setting decision request)
    (tallied : Tallied setting (calls ++ [.onMessage now message]) request) :
    Tallied setting (calls ++ [.onMessage now message]) (request.vote decision) := by
  simp only [Open.vote]
  split
  · rename_i approve
    obtain ⟨operator, pinned, verified⟩ := counts.signed
    obtain ⟨signature, readable, verified⟩ := verifies_iff.mp verified
    refine ⟨tallied.positive, ?_, ?_, ?_⟩
    · exact tallied.distinct.append (List.nodup_singleton _)
        (List.disjoint_singleton.mpr counts.fresh)
    · intro signer counted
      rcases List.mem_append.mp counted with earlier | last
      · exact tallied.signed signer earlier
      rw [List.mem_singleton.mp last]
      have heard := @Heard.vote _ _ now _ _ _ _ _ completes present counts.undecided
        counts.addressed pinned readable verified
      rw [approve] at heard verified
      refine ⟨operator, signature, pinned, verified, ?_⟩
      exact observed_concat.mpr (.inr (reached ▸ heard))
    · intro approved
      by_contra short
      simp only [if_neg short, counts.undecided] at approved
      cases approved
  · exact ⟨tallied.positive, tallied.distinct, tallied.signed, by rintro ⟨⟩⟩

theorem tallied_after (calls : List Call) :
    ∀ request ∈ (after (step setting) .boot calls).opened, Tallied setting calls request := by
  induction calls using List.reverseRecOn with
  | nil => exact nofun
  | append_singleton calls call ih =>
    intro new present
    rw [after_append] at present
    rcases mem_step present with ⟨old, found, becomes⟩ | ⟨_, demand, _, rfl⟩
    · have tallied := (ih old found).concat call
      cases becomes with
      | same => exact tallied
      | voted completes counts =>
        exact tallied_vote rfl found completes counts tallied
      | timedOut _ =>
        exact ⟨tallied.positive, tallied.distinct, tallied.signed, by rintro ⟨⟩⟩
    · exact tallied_entry _ demand _ _

/-! ## Outcomes are final -/

/-- The request, while it is open, has this outcome. -/
def Settled (number : Nat) (outcome : Outcome) (desk : Desk) : Prop := number < desk.next ∧
    ∀ request ∈ desk.opened, request.number = number → request.outcome = some outcome

theorem Settled.step {number : Nat} {outcome : Outcome}
    (settled : Settled number outcome desk) (call : Call) :
    Settled number outcome (Approvals.step setting desk call) := by
  refine ⟨settled.1.trans_le (next_le_step setting desk call), ?_⟩
  intro new present named
  rcases mem_step present with ⟨old, found, becomes⟩ | ⟨_, demand, _, rfl⟩
  · have decided := settled.2 old found (becomes.number_eq ▸ named)
    rw [becomes.eq_of_decided decided, decided]
  · exact absurd named (Nat.ne_of_gt settled.1)

theorem outcomesFinal_after (early late : List Call) :
    OutcomesFinal (after (step setting) .boot early)
      (after (step setting) .boot (early ++ late)) := by
  intro old found new present named outcome decided
  have numbered := Numbered.after setting early
  have settled : Settled old.number outcome (after (step setting) .boot early) := by
    refine ⟨numbered.below old found, ?_⟩
    intro request alsoFound same
    rw [numbered.eq_of_number alsoFound found same, decided]
  rw [after_append] at present
  have later : Settled old.number outcome
        (after (step setting) (after (step setting) .boot early) late) :=
    always late settled fun _ call holds => holds.step call
  exact later.2 new present named

/-! ## The veto -/

theorem number_lt_of_received (received : Received setting calls vote) :
    vote.number < (after (step setting) .boot calls).next := by
  induction calls using List.reverseRecOn with
  | nil => exact absurd received (not_observed_nil _ _)
  | append_singleton calls call ih =>
    rw [after_append]
    refine Nat.lt_of_lt_of_le ?_ (next_le_step setting _ call)
    rcases observed_concat.mp received with earlier | last
    · exact ih earlier
    · cases last with
      | vote _ present =>
        exact (Numbered.after setting calls).below _ present

/-- No two undecided requests have the same id. -/
def DistinctIds (desk : Desk) : Prop := ∀ left ∈ desk.opened, ∀ right ∈ desk.opened,
    left.outcome = none → right.outcome = none → left.id = right.id →
      left.number = right.number

theorem distinctIds_step (distinct : DistinctIds desk) (orderly : Orderly setting desk call) :
    DistinctIds (step setting desk call) := by
  intro left leftPresent right rightPresent leftOpen rightOpen same
  rcases mem_step leftPresent with
    ⟨oldLeft, leftFound, leftBecomes⟩ | ⟨_, _, rfl, rfl⟩
  · rcases mem_step rightPresent with
      ⟨oldRight, rightFound, rightBecomes⟩ | ⟨_, _, rfl, rfl⟩
    · rw [leftBecomes.number_eq, rightBecomes.number_eq]
      refine distinct oldLeft leftFound oldRight rightFound
        (leftBecomes.undecided leftOpen) (rightBecomes.undecided rightOpen) ?_
      rw [← leftBecomes.id_eq, ← rightBecomes.id_eq, same]
    · exact absurd (leftBecomes.id_eq.symm.trans same)
        (orderly oldLeft leftFound (leftBecomes.undecided leftOpen))
  · rcases mem_step rightPresent with
      ⟨oldRight, rightFound, rightBecomes⟩ | ⟨_, _, _, rfl⟩
    · exact absurd (rightBecomes.id_eq.symm.trans same.symm)
        (orderly oldRight rightFound (rightBecomes.undecided rightOpen))
    · rfl

theorem distinctIds_after (orderly : Run.Along (step setting) (Orderly setting) .boot calls) :
    DistinctIds (after (step setting) .boot calls) := by
  refine invariant ?_ (fun _ _ => distinctIds_step) orderly
  exact nofun

section

variable (numbered : Numbered desk) (distinct : DistinctIds desk)
include numbered distinct

theorem find_awaits (present : request ∈ desk.opened)
    (undecided : request.outcome = none) (addressed : request.id = decision.id) :
    desk.opened.find? (awaits decision) = some request := by
  refine FirstMatch.find_of_unique present ((awaits_iff _ _).mpr ⟨addressed, undecided⟩) ?_
  intro other alsoPresent alsoAwaits
  obtain ⟨alsoAddressed, alsoUndecided⟩ := (awaits_iff _ _).mp alsoAwaits
  exact numbered.eq_of_number alsoPresent present
    (distinct other alsoPresent request present alsoUndecided undecided
      (alsoAddressed.trans addressed.symm))

theorem vote_mem_onDecision
    (present : request ∈ desk.opened) (counts : Counts setting decision request) :
    request.vote decision ∈ (desk.onDecision setting decision).opened := by
  have found := find_awaits numbered distinct present counts.undecided counts.addressed
  obtain ⟨operator, pinned, verified⟩ := counts.signed
  obtain ⟨early, late, _, replaced⟩ :=
    FirstMatch.replaceF_of_find (fun other => other.vote decision) found
  simp only [Desk.onDecision, pinned, found, verified, Bool.not_true,
    Bool.false_eq_true, if_false, List.contains_iff_mem, if_neg counts.fresh]
  rw [replaced]
  exact List.mem_append_right _ List.mem_cons_self

theorem denied_of_heard (orderly : Orderly setting desk call) (heard : Heard setting desk call vote)
    (denial : vote.approve = false) (present : new ∈ (step setting desk call).opened)
    (named : new.number = vote.number) : new.outcome = some .denied := by
  cases heard with
  | @vote now message decision request operator signature completes found
      undecided addressed pinned readable verified =>
      have denies : decision.approve = false := denial
      have valid : ValidFor setting decision request := ⟨addressed, operator, pinned,
          verifies_iff.mpr ⟨signature, readable, verified⟩⟩
      have counts : Counts setting decision request :=
        { valid with
          undecided
          fresh := orderly decision completes request found undecided valid denies }
      have counted :
          request.vote decision ∈ (step setting desk (.onMessage now message)).opened := by
        simp only [step, Desk.onMessage, completes]
        exact @vote_mem_onDecision setting decision request
          { desk with assembler := desk.assembled message }
          ⟨numbered.increasing, numbered.below⟩ distinct found counts
      have voteNumber : (request.vote decision).number = request.number := by
        simp [Open.vote, denies]
      have same := (numbered.step setting (.onMessage now message)).eq_of_number
        present counted (named.trans voteNumber.symm)
      simp [same, Open.vote, denies]

end

theorem denied_of_received (orderly : Run.Along (step setting) (Orderly setting) .boot calls)
    (received : Received setting calls vote) (denial : vote.approve = false) :
    ∀ request ∈ (after (step setting) .boot calls).opened,
      request.number = vote.number → request.outcome = some .denied := by
  induction calls using List.reverseRecOn with
  | nil => exact absurd received (not_observed_nil _ _)
  | append_singleton calls call ih =>
    obtain ⟨before, last⟩ := along_append.mp orderly
    intro new present named
    rw [after_append] at present
    rcases observed_concat.mp received with earlier | heard
    · have settled : Settled vote.number .denied (after (step setting) .boot calls) :=
        ⟨number_lt_of_received earlier, ih before earlier⟩
      exact (settled.step call).2 new present named
    · exact denied_of_heard (Numbered.after setting calls)
        (distinctIds_after before) last.1 heard denial present named

/-- In a run where nobody turns an approval into a denial and no undecided
request's id is given out again, an approved request has a quorum and no denial; and outcomes are
final. -/
theorem approved_by_quorum_without_veto
    (setting : Setting)
    (calls : List Call)
    (orderly : Run.Along (step setting) (Orderly setting) .boot calls) :
    (∀ request ∈ (after (step setting) .boot calls).opened, request.outcome = some .approved →
          HasQuorum setting calls request ∧ ¬Vetoed setting calls request) ∧
      ∀ early late, calls = early ++ late → OutcomesFinal (after (step setting) .boot early)
          (after (step setting) .boot calls) := by
  constructor
  · intro request present approved
    have tallied := tallied_after calls request present
    refine ⟨⟨tallied.positive, request.approvals, tallied.distinct, tallied.reached approved,
      tallied.signed⟩, ?_⟩
    rintro ⟨operator, signature, received⟩
    have denied := denied_of_received orderly received rfl request present rfl
    cases approved.symm.trans denied
  · rintro early late rfl
    exact outcomesFinal_after early late

/-! ## Ballots -/

instance (setting : Setting) (decision : Decision) (request : Open) :
    Decidable (ValidFor setting decision request) :=
  decidable_of_iff (request.id = decision.id ∧
      ∃ operator ∈ setting.operators.find decision.operator,
        verifies setting operator request decision)
    ⟨fun valid => ⟨valid.1, valid.2⟩, fun valid => ⟨valid.1, valid.2⟩⟩

instance (setting : Setting) (desk : Desk) : (call : Call) → Decidable (Orderly setting desk call)
  | .openRequest _ _ =>
    inferInstanceAs (Decidable (∀ request ∈ desk.opened, request.outcome = none →
      request.id ≠ UInt32.ofNat desk.next))
  | .onMessage _ message =>
    inferInstanceAs (Decidable (∀ decision ∈ desk.completed message, ∀ request ∈ desk.opened,
      request.outcome = none → ValidFor setting decision request →
        decision.approve = false → decision.operator ∉ request.approvals))
  | .checkTimeouts _ | .outcome _ | .close _ => .isTrue trivial

/-- The receipt of all parts of a decision, at one time. -/
def ballot (now : UInt64) (decision : Decision) : List Call :=
  (encodeDecision decision).map (Call.onMessage now)

theorem ballot_splits (now : UInt64) (sent : encodeDecision decision ≠ []) :
    ballot now decision = (encodeDecision decision).dropLast.map (.onMessage now) ++
      [.onMessage now ((encodeDecision decision).getLast sent)] := by
  rw [ballot, ← List.map_singleton, ← List.map_append, List.dropLast_append_getLast]

def sampleKey (byte : UInt8) : Identity := ⟨.replicate 32 byte, .replicate 1952 byte⟩

def sampleSetting : Setting where
  crypto := sampleCrypto
  operators :=
    { list := [⟨ascii "alice", sampleKey 1⟩, ⟨ascii "bob", sampleKey 2⟩]
      distinct := by decide +kernel }
  issuer := .replicate 16 7

example : (loadOperators sampleCrypto
      [(ascii "operator-alice.pub", (sampleKey 1).bytes),
        (ascii "notes.txt", ascii "not a key"),
        (ascii "operator-bob.pub", (sampleKey 2).bytes),
        (ascii "operator-alias.pub", (sampleKey 1).bytes)]).list =
      sampleSetting.operators.list := by
  decide +kernel

/-- A request that takes two signatures within a minute. -/
def sampleDemand : Demand where
  kind := kindAction
  quorum := 2
  ttl := 60
  payload := ascii "refund"
  text := "refund".toList

def sampleOpening : Call := .openRequest ⟨true, true, 0⟩ sampleDemand

def sampleDecision (operator : UInt8) (approve : Bool) : Decision where
  id := 1
  operator := (sampleKey operator).id sampleCrypto
  approve
  signature := (Signature.mk (.replicate 64 operator) (.replicate 3309 operator)).bytes

def sampleCalls (now : UInt64) (votes : List (UInt8 × Bool)) : List Call := sampleOpening ::
    (votes.map fun vote => sampleDecision vote.1 vote.2).flatMap (ballot now)

theorem approved_by_alice_and_bob : ∃ request ∈ (after (step sampleSetting) .boot
      (sampleCalls 1 [(1, true), (2, true)])).opened, request.outcome = some .approved ∧
    HasQuorum sampleSetting (sampleCalls 1 [(1, true), (2, true)]) request ∧
      ¬Vetoed sampleSetting (sampleCalls 1 [(1, true), (2, true)]) request := by
  have approves : ∃ request ∈ (after (step sampleSetting) .boot
      (sampleCalls 1 [(1, true), (2, true)])).opened, request.outcome = some .approved := by
    decide +kernel
  obtain ⟨request, present, approved⟩ := approves
  exact ⟨request, present, approved, (approved_by_quorum_without_veto sampleSetting _
    (by decide +kernel)).1 request present approved⟩

theorem received_denial (later : List Call) : ∃ operator signature, Received sampleSetting
    (sampleCalls 1 [(1, true)] ++ (ballot 1 (sampleDecision 1 false) ++ later))
      ⟨1, operator, false, signature⟩ := by
  have sent : encodeDecision (sampleDecision 1 false) ≠ [] := by decide +kernel
  have undecided : ∃ request ∈ (after (step sampleSetting) .boot (sampleCalls 1 [(1, true)] ++
      (encodeDecision (sampleDecision 1 false)).dropLast.map (.onMessage 1))).opened,
      request.number = 1 ∧ request.id = 1 ∧ request.outcome = none := by
    decide +kernel
  obtain ⟨request, present, number, addressed, undecided⟩ := undecided
  refine ⟨⟨ascii "alice", sampleKey 1⟩, ⟨.replicate 64 1, .replicate 3309 1⟩, _, _, later,
    by rw [ballot_splits 1 sent, List.append_assoc, List.append_assoc]; rfl, ?_⟩
  rw [← number]
  exact @Heard.vote _ _ _ _ (sampleDecision 1 false) _ _ _ (by decide +kernel +revert) present
    undecided addressed (by decide +kernel) (by decide +kernel) rfl

/-- Alice approves and then denies, Bob approves: the request is approved. -/
theorem approved_despite_denial : ∃ request ∈ (after (step sampleSetting) .boot
        (sampleCalls 1 [(1, true), (1, false), (2, true)])).opened,
    request.outcome = some .approved ∧
      Vetoed sampleSetting (sampleCalls 1 [(1, true), (1, false), (2, true)]) request := by
  have approves : ∃ request ∈ (after (step sampleSetting) .boot
      (sampleCalls 1 [(1, true), (1, false), (2, true)])).opened,
      request.number = 1 ∧ request.outcome = some .approved := by
    decide +kernel
  obtain ⟨request, present, number, approved⟩ := approves
  refine ⟨request, present, approved, ?_⟩
  have calls : sampleCalls 1 [(1, true), (1, false), (2, true)] = sampleCalls 1 [(1, true)] ++
        (ballot 1 (sampleDecision 1 false) ++ ballot 1 (sampleDecision 2 true)) := by
    simp [sampleCalls]
  rw [Vetoed, number, calls]
  exact received_denial (ballot 1 (sampleDecision 2 true))

end Cdk.Approvals

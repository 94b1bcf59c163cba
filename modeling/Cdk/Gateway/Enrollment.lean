import Cdk.Gateway.Trusted

/-!
# Which sessions enroll a machine

A first enrollment is written while an attestation is judged, or after the
endorsement proof.  `enrollment_spared_iff` says exactly when a session that is
not trusted leaves the enrollment as it was: no machine may be enrolled next to
registers that were not expected, and no failed write may change the file.
-/

namespace Cdk.Gateway
namespace Attestor

open ByteFormat Link

/-- How a write that the call may attempt ends. -/
def Call.outcome? : Call → Option WriteOutcome
  | .endorsement _ outcome => some outcome
  | .quote _ _ _ => none
  | .message _ outcome => some outcome

variable (config : Config) (attestor : Attestor) (call : Call)

/-- The call judges an attestation with unexpected registers, and enrolls its
machine all the same. -/
def Premature : Prop :=
  ∃ message attestation seen, call = .message message .written ∧ attestor.attestOk = none ∧
      attestor.status = .pending ∧
      decodeAttest message = some (.attestation attestation) ∧
      attestation.nonce = attestor.nonce ∧
      registersMatch config attestation.registers = false ∧
      attestor.tpmFinding config attestation.registers = .enroll seen

/-- The enrollment that a call attempts to write. -/
inductive Writes : Call → Enrollment → Prop
  /-- A first enrollment without endorsement: at once, whatever the registers
  are. -/
  | atOnce {message : Bytes} {attestation : Attestation} {seen : Enrollment}
      (outcome : WriteOutcome)
      (unset : attestor.attestOk = none) (pending : attestor.status = .pending)
      (decoded : decodeAttest message = some (.attestation attestation))
      (fresh : attestation.nonce = attestor.nonce)
      (found : attestor.tpmFinding config attestation.registers = .enroll seen) :
      Writes (.message message outcome) seen
  /-- The attestation comes after the endorsement proof. -/
  | proven {message : Bytes} {attestation : Attestation} {seen : Enrollment}
      (outcome : WriteOutcome)
      (unset : attestor.attestOk = none) (pending : attestor.status = .pending)
      (decoded : decodeAttest message = some (.attestation attestation))
      (fresh : attestation.nonce = attestor.nonce)
      (found : attestor.tpmFinding config attestation.registers = .defer seen)
      (matching : registersMatch config attestation.registers)
      (proven : attestor.ekProven = some (.ok ())) :
      Writes (.message message outcome) seen
  /-- The endorsement proof comes after an attestation that passed. -/
  | putOff {message : Bytes} {seen : Enrollment} (outcome : WriteOutcome)
      (asked : config.trust.isSome) (tagged : message.head? = some proofTag)
      (unproven : attestor.ekProven = none) (pending : attestor.status = .pending)
      (passed : attestor.attestOk = some true)
      (put : attestor.pendingEnrollment = some seen)
      (answered : attestor.checkProof message = .ok ()) :
      Writes (.endorsement message outcome) seen

/-- A write of the enrollment fails, and leaves another file than there was. -/
def Torn : Prop :=
  ∃ seen contents, Writes config attestor call seen ∧
      call.outcome? = some (.failed contents) ∧
      contents ≠ attestor.file

/-- The call keeps the enrollment of a session that is not trusted. -/
def Spares : Prop :=
  ¬Premature config attestor call ∧ ¬Torn config attestor call

section Steps

variable {config attestor call} {primitives : TpmCrypto} {next before : Attestor}

theorem Effect.decided_stays (effect : Effect primitives config attestor call next)
    (decided : attestor.status ≠ .pending) :
    next.status = attestor.status ∧
      next.enrolled = attestor.enrolled ∧
      next.file = attestor.file := by
  cases effect with
  | proof _ _ _ _ =>
    rw [finish_of_decided (by exact decided)]
    exact ⟨rfl, rfl, rfl⟩
  | stale _ _ undecided _ _ | judged _ _ undecided _ _ => exact absurd undecided decided
  | _ => exact ⟨rfl, rfl, rfl⟩

/-- What a call has done to the enrollment and the decision. -/
inductive Enrolls (config : Config) (attestor : Attestor) (call : Call) (next : Attestor) :
    Prop
  | kept (enrolled : next.enrolled = attestor.enrolled) (file : next.file = attestor.file)
  | trusted (outcome : call.outcome? = some .written) (status : next.status = .trusted)
  | premature (premature : Premature config attestor call)
  | failed {seen : Enrollment} {contents : Option Text} (writes : Writes config attestor call seen)
      (outcome : call.outcome? = some (.failed contents))
      (enrolled : next.enrolled = attestor.enrolled) (status : next.status = .rejected)

/-- Deciding now carries out an enrollment that was put off. -/
structure Due (config : Config) (attestor : Attestor) (seen : Enrollment) : Prop where
  pending : attestor.status = .pending
  passed : attestor.attestOk = some true
  put : attestor.pendingEnrollment = some seen
  proven : config.trust.isSome → attestor.ekProven = some (.ok ())

/-- Deciding enrolls a machine that was put off together with trust. -/
theorem finish_enrollment (config : Config) (attestor : Attestor) (outcome : WriteOutcome) :
    ((finish config attestor outcome).enrolled = attestor.enrolled ∧
        (finish config attestor outcome).file = attestor.file) ∨
      (outcome = .written ∧ (finish config attestor outcome).status = .trusted) ∨
      ∃ seen contents, Due config attestor seen ∧ outcome = .failed contents ∧
          (finish config attestor outcome).enrolled = attestor.enrolled ∧
          (finish config attestor outcome).status = .rejected := by
  rcases finish_cases config attestor outcome with
    same | ⟨ok, allowed, pending, determined, endorsement, decided⟩
  · rw [same]
    exact .inl ⟨rfl, rfl⟩
  rw [decided]
  cases put : attestor.pendingEnrollment with
  | none => exact .inl (by simp [settle, put])
  | some seen =>
    cases allowed with
    | false => exact .inl (by simp [settle, put])
    | true =>
      cases outcome with
      | written => exact .inr (.inl (by simp [settle, put, enroll]))
      | failed contents =>
        obtain ⟨rfl, proven⟩ := endorsed_eq_true endorsement
        exact .inr (.inr ⟨seen, contents, ⟨pending, determined, put, proven⟩,
          by simp [settle, put, enroll]⟩)

/-- A machine is accepted or refused, or nothing is enrolled yet: then it is put off where an
endorsement is asked for, and enrolled at once elsewhere. -/
theorem tpmFinding_cases (config : Config) (attestor : Attestor) (registers : Registers) :
    attestor.tpmFinding config registers = .refuse ∨
      attestor.tpmFinding config registers = .accept ∨
      attestor.enrolled = none ∧ ∃ seen, attestor.tpmFinding config registers =
        if config.trust.isSome then .defer seen else .enroll seen := by
  unfold tpmFinding
  split
  · exact .inr (.inl rfl)
  split
  · exact .inl rfl
  · exact .inl rfl
  split
  · exact .inl rfl
  split
  · exact .inl rfl
  split
  · exact .inr (.inl rfl)
  split
  · split
    · exact .inr (.inl rfl)
    · exact .inl rfl
  · rename_i unknown
    exact .inr (.inr ⟨unknown, _, rfl⟩)

/-- A machine is enrolled at once only where no endorsement is asked for. -/
theorem unasked_of_enroll (found : attestor.tpmFinding config registers = .enroll seen) :
    config.trust.isSome = false ∧ attestor.enrolled = none := by
  rcases tpmFinding_cases config attestor registers with refused | accepted | ⟨unknown, _, first⟩
  · cases refused.symm.trans found
  · cases accepted.symm.trans found
  · refine ⟨Bool.eq_false_of_not_eq_true fun asked => ?_, unknown⟩
    rw [if_pos asked, found] at first
    cases first

/-- An enrollment is put off only where an endorsement is asked for. -/
theorem asked_of_defer (found : attestor.tpmFinding config registers = .defer seen) :
    config.trust.isSome := by
  rcases tpmFinding_cases config attestor registers with refused | accepted | ⟨_, _, first⟩
  · cases refused.symm.trans found
  · cases accepted.symm.trans found
  · by_contra unasked
    rw [if_neg unasked, found] at first
    cases first

/-- Without an endorsement to wait for, and with nothing put off, the decision is
that of the attestation. -/
theorem finish_status (unasked : config.trust.isSome = false) (pending : attestor.status = .pending)
    (idle : attestor.pendingEnrollment = none) (determined : attestor.attestOk = some ok) :
    finish config attestor outcome =
      { attestor with status := if ok then .trusted else .rejected } := by
  simp [finish, pending, determined, endorsed, unasked, settle, idle]

/-- A machine that is enrolled while judging is trusted for its registers, and if
the write succeeds. -/
theorem finish_judge_of_enroll (coherent : Coherent config before attestor)
    (unset : attestor.attestOk = none) (pending : attestor.status = .pending)
    (found : attestor.tpmFinding config registers = .enroll seen) (outcome : WriteOutcome) :
    finish config (attestor.judge config registers outcome) outcome =
      { attestor.judge config registers outcome with
        status :=
          if registersMatch config registers && (attestor.enroll seen outcome).2 then .trusted
          else .rejected } := by
  obtain ⟨-, -, idle⟩ := coherent.untouched unset
  apply finish_status (unasked_of_enroll found).1
  · simpa using pending
  · cases outcome <;> simp [judge, checkTpm, found, enroll, idle]
  · simp [checkTpm, found]

theorem judged_enrolls (outcome : WriteOutcome) (coherent : Coherent config before attestor)
    (unset : attestor.attestOk = none) (pending : attestor.status = .pending)
    (decoded : decodeAttest message = some (.attestation attestation))
    (fresh : attestation.nonce = attestor.nonce) :
    Enrolls config attestor (.message message outcome)
      (finish config (attestor.judge config attestation.registers outcome) outcome) := by
  obtain ⟨-, -, idle⟩ := coherent.untouched unset
  -- where nothing is written while judging, only the decision can enroll
  have later : (attestor.judge config attestation.registers outcome).enrolled = attestor.enrolled →
        (attestor.judge config attestation.registers outcome).file = attestor.file →
        (∀ seen, Due config (attestor.judge config attestation.registers outcome) seen →
          Writes config attestor (.message message outcome) seen) →
          Enrolls config attestor (.message message outcome)
            (finish config (attestor.judge config attestation.registers outcome) outcome) := by
    intro enrolled file writes
    rcases finish_enrollment config (attestor.judge config attestation.registers outcome)
      outcome with ⟨same, unchanged⟩ | ⟨written, trusted⟩ | ⟨seen, contents, due, failed, same,
        rejected⟩
    · exact .kept (same.trans enrolled) (unchanged.trans file)
    · exact .trusted (congrArg some written) trusted
    · exact .failed (writes seen due) (congrArg some failed) (same.trans enrolled) rejected
  cases found : attestor.tpmFinding config attestation.registers with
  | refuse | accept =>
    refine later (by simp [judge, checkTpm, found]) (by simp [judge, checkTpm, found]) ?_
    intro seen due
    have put := due.put
    simp [judge, checkTpm, found, idle] at put
  | defer seen =>
    refine later (by simp [judge, checkTpm, found]) (by simp [judge, checkTpm, found]) ?_
    intro other due
    have put := due.put
    have passed := due.passed
    have proven := due.proven (asked_of_defer found)
    simp only [judge, checkTpm, found, Option.some.injEq, Bool.and_true] at put passed proven
    subst put
    exact .proven outcome unset pending decoded fresh found passed proven
  | enroll seen =>
    rw [finish_judge_of_enroll coherent unset pending found]
    cases outcome with
    | failed contents =>
      exact .failed (.atOnce _ unset pending decoded fresh found) rfl
        (by simp [judge, checkTpm, found, enroll]) (by simp [enroll])
    | written =>
      cases matching : registersMatch config attestation.registers with
      | true => exact .trusted rfl (by simp [enroll])
      | false =>
        exact .premature ⟨message, attestation, seen, rfl, unset, pending, decoded,
          fresh, matching, found⟩

theorem Effect.enrolls (effect : Effect primitives config attestor call next)
    (coherent : Coherent config before attestor) :
    Enrolls config attestor call next := by
  cases effect with
  | @proof message outcome asked tagged unproven =>
    rcases finish_enrollment config
        { attestor with ekProven := some (attestor.checkProof _) } outcome with
      ⟨same, unchanged⟩ | ⟨written, trusted⟩ | ⟨seen, contents, due, failed, same, rejected⟩
    · exact .kept same unchanged
    · exact .trusted (congrArg some written) trusted
    · refine .failed (.putOff outcome asked tagged unproven due.pending due.passed due.put ?_)
        (congrArg some failed) same rejected
      exact Option.some.inj (due.proven asked)
  | judged outcome unset pending decoded fresh =>
    exact judged_enrolls outcome coherent unset pending decoded fresh
  | _ => exact .kept rfl rfl

/-- A write that fails leaves what it leaves in the file. -/
theorem Writes.step_failed (primitives : TpmCrypto) (writes : Writes config attestor call seen)
    (coherent : Coherent config before attestor)
    (outcome : call.outcome? = some (.failed contents)) :
    (attestor.step primitives config call).file = contents := by
  cases writes with
  | @atOnce message attestation _ outcome unset pending decoded fresh found =>
    obtain rfl := Option.some.inj outcome
    have judged : attestor.step primitives config (.message message (.failed contents)) =
        finish config (attestor.judge config attestation.registers (.failed contents))
          (.failed contents) := by
      simp [Attestor.step, onMessage, unset, pending, decoded, fresh]
    rw [judged, finish_judge_of_enroll coherent unset pending found]
    simp [judge, checkTpm, found, enroll]
  | proven _ unset pending decoded fresh found matching proven =>
    obtain rfl := Option.some.inj outcome
    simp [Attestor.step, onMessage, unset, pending, decoded, fresh, finish, judge, checkTpm, found,
      matching, endorsed, proven, settle, enroll]
  | putOff _ asked tagged unproven pending passed put answered =>
    obtain rfl := Option.some.inj outcome
    have isProof : ¬(proofTag = ekChunkTag) := by decide
    simp [Attestor.step, onEndorsement, Option.isSome_iff_ne_none.mp asked, tagged, isProof,
      onProof, unproven, finish, pending, passed, endorsed, answered, settle, put, enroll]

theorem Premature.step (primitives : TpmCrypto) (premature : Premature config attestor call)
    (coherent : Coherent config before attestor) :
    (attestor.step primitives config call).status = .rejected ∧
      (attestor.step primitives config call).enrolled ≠ attestor.enrolled := by
  obtain ⟨message, attestation, seen, rfl, unset, pending, decoded, fresh, differing, found⟩ :=
    premature
  have judged : attestor.step primitives config (.message message .written) =
      finish config (attestor.judge config attestation.registers .written) .written := by
    simp [Attestor.step, onMessage, unset, pending, decoded, fresh]
  rw [judged, finish_judge_of_enroll coherent unset pending found, differing]
  refine ⟨rfl, ?_⟩
  simp [judge, checkTpm, found, enroll, (unasked_of_enroll found).2]

theorem spares_of_decided (decided : attestor.status ≠ .pending) (call : Call) :
    Spares config attestor call := by
  constructor
  · rintro ⟨_, _, _, _, _, pending, _⟩
    exact decided pending
  · rintro ⟨seen, contents, writes, -⟩
    cases writes with
    | atOnce _ _ pending _ _ _ | proven _ _ pending _ _ _ _ _ | putOff _ _ _ _ pending _ _ _ =>
      exact decided pending

theorem spares_iff (coherent : Coherent config before attestor) (call : Call) :
    Spares config attestor call ↔
      ((attestor.step primitives config call).status ≠ .trusted →
        (attestor.step primitives config call).enrolled = attestor.enrolled ∧
          (attestor.step primitives config call).file = attestor.file) := by
  cases (effect_step primitives config attestor call).enrolls coherent with
  | kept enrolled file =>
    refine iff_of_true ⟨?_, ?_⟩ fun _ => ⟨enrolled, file⟩
    · exact fun premature => (premature.step primitives coherent).2 enrolled
    · rintro ⟨seen, contents, writes, failed, changed⟩
      exact changed ((writes.step_failed primitives coherent failed).symm.trans file)
  | trusted outcome trusted =>
    refine iff_of_true ⟨?_, ?_⟩ fun untrusted => absurd trusted untrusted
    · intro premature
      have rejected := (premature.step primitives coherent).1
      rw [trusted] at rejected
      cases rejected
    · rintro ⟨_, contents, _, failed, -⟩
      rw [outcome] at failed
      cases failed
  | premature premature =>
    obtain ⟨rejected, changed⟩ := premature.step primitives coherent
    refine iff_of_false (fun spares => spares.1 premature) fun kept => ?_
    exact changed (kept (by rw [rejected]; decide)).1
  | failed writes outcome enrolled rejected =>
    constructor
    · rintro ⟨-, intact⟩ -
      refine ⟨enrolled, ?_⟩
      by_contra changed
      refine intact ⟨_, _, writes, outcome, ?_⟩
      rwa [← writes.step_failed primitives coherent outcome]
    · intro kept
      have unchanged := (kept (by rw [rejected]; decide)).2
      constructor
      · rintro ⟨message, _, _, rfl, _⟩
        cases outcome
      · rintro ⟨_, contents, alsoWrites, failed, changed⟩
        exact changed ((alsoWrites.step_failed primitives coherent failed).symm.trans unchanged)

end Steps

section Sessions

variable {config attestor} {primitives : TpmCrypto} {before : Attestor} {nonce : Fixed 32}
    {calls : List Call}

/-- A decision, and the enrollment with it, is final until the next request. -/
theorem run_of_decided (decided : attestor.status ≠ .pending) (calls : List Call) :
    (run primitives config attestor calls).status = attestor.status ∧
      (run primitives config attestor calls).enrolled = attestor.enrolled ∧
      (run primitives config attestor calls).file = attestor.file :=
  @Run.always _ _ (step primitives config)
    (fun state => state.status = attestor.status ∧ state.enrolled = attestor.enrolled ∧
      state.file = attestor.file)
    attestor calls ⟨rfl, rfl, rfl⟩ fun state call same => by
      obtain ⟨status, enrolled, file⟩ :=
        (effect_step primitives config state call).decided_stays (by rw [same.1]; exact decided)
      exact ⟨status.trans same.1, enrolled.trans same.2.1, file.trans same.2.2⟩

theorem untouched_of_pending
    (pending : (run primitives config (before.request nonce) calls).status = .pending) :
    (run primitives config (before.request nonce) calls).enrolled = before.enrolled ∧
      (run primitives config (before.request nonce) calls).file = before.file := by
  induction calls using List.reverseRecOn with
  | nil => exact ⟨rfl, rfl⟩
  | append_singleton calls call ih =>
    rw [run_concat] at pending ⊢
    have effect := effect_step primitives config
      (run primitives config (before.request nonce) calls) call
    have earlier : (run primitives config (before.request nonce) calls).status = .pending := by
      by_contra decided
      exact decided ((effect.decided_stays decided).1.symm.trans pending)
    obtain ⟨enrolled, file⟩ := ih earlier
    cases effect.enrolls (run_coherent before nonce calls) with
    | kept same unchanged => exact ⟨same.trans enrolled, unchanged.trans file⟩
    | trusted _ trusted => rw [trusted] at pending; cases pending
    | failed _ _ _ rejected => rw [rejected] at pending; cases pending
    | premature premature =>
      rw [(premature.step primitives (run_coherent before nonce calls)).1] at pending
      cases pending

end Sessions

/-- A session that does not end trusted leaves the enrollment as it was exactly
if every call spares it. -/
theorem enrollment_spared_iff
    (primitives : TpmCrypto)
    (config : Config)
    (before : Attestor)
    (nonce : Fixed 32)
    (calls : List Call) :
    ((run primitives config (before.request nonce) calls).status ≠ .trusted →
        (run primitives config (before.request nonce) calls).enrolled = before.enrolled ∧
          (run primitives config (before.request nonce) calls).file = before.file) ↔
      Run.Along (step primitives config) (Spares config) (before.request nonce) calls := by
  induction calls using List.reverseRecOn with
  | nil => exact iff_of_true (fun _ => ⟨rfl, rfl⟩) trivial
  | append_singleton calls call ih =>
    have coherent : Coherent config before (run primitives config (before.request nonce) calls) :=
      run_coherent before nonce calls
    have untouched := @untouched_of_pending config primitives before nonce calls
    rw [Run.along_append, ← ih, run_concat, ← run]
    generalize run primitives config (before.request nonce) calls = state at coherent untouched ⊢
    refine Iff.trans ?_ (and_congr_right fun _ => (and_iff_left trivial).symm)
    by_cases pending : state.status = .pending
    · have kept := untouched pending
      rw [spares_iff coherent call, ← kept.1, ← kept.2]
      exact (and_iff_right fun _ => ⟨rfl, rfl⟩).symm
    · obtain ⟨status, enrolled, file⟩ :=
        (effect_step primitives config _ call).decided_stays pending
      rw [status, enrolled, file]
      exact (and_iff_left (spares_of_decided pending call)).symm

/-! ## A rejected session that enrolls -/

/-- What `--expect` and `--tpm` ask for, with other registers than those of the
sample. -/
def pinnedConfig : Config where
  expect := some (Vector.replicate 3 samplePoint)
  expectLoader := none
  tpmFile := true
  trust := none
  certify := false

/-- A valid quote and an attestation with registers that are not expected. -/
def strangeCalls : List Call :=
  [.quote sampleQuote sampleNonce sampleNonce, .message sampleAttestation .written]

/-- The session is rejected, and its machine is enrolled. -/
theorem rejected_session_enrolls :
    (run sampleTpm pinnedConfig ((new none none).request sampleNonce) strangeCalls).status =
        .rejected ∧
      (run sampleTpm pinnedConfig ((new none none).request sampleNonce)
        strangeCalls).enrolled ≠ (new none none).enrolled ∧
      (run sampleTpm pinnedConfig ((new none none).request sampleNonce)
        strangeCalls).file ≠ (new none none).file := by
  decide +kernel

end Attestor
end Cdk.Gateway

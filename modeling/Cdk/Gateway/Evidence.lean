import Cdk.Gateway.Attestor

/-!
# The evidence of a session

Each field of the evidence is filled at most once in a session, and what fills
it is one kind of call.  The decision is made from the evidence alone, and the
fields hang together in a way that every call keeps (`Coherent`).
-/

namespace Cdk.Gateway
namespace Attestor

open ByteFormat Link

/-! ## What deciding leaves alone -/

section Frames

variable (config : Config) (attestor : Attestor) (outcome : WriteOutcome)

@[simp] theorem enroll_toEvidence (seen : Enrollment) :
    (attestor.enroll seen outcome).1.toEvidence = attestor.toEvidence := by
  cases outcome <;> rfl

@[simp] theorem settle_toEvidence (ok : Bool) :
    (attestor.settle ok outcome).1.toEvidence = attestor.toEvidence := by
  unfold settle
  split
  · rfl
  · dsimp only
    split
    · exact enroll_toEvidence _ outcome _
    · rfl

@[simp] theorem finish_toEvidence :
    (finish config attestor outcome).toEvidence = attestor.toEvidence := by
  unfold finish
  split
  · rfl
  split
  · rfl
  split
  · rfl
  · exact settle_toEvidence attestor outcome _

@[simp] theorem checkTpm_toEvidence (registers : Registers) :
    (attestor.checkTpm config registers outcome).1.toEvidence = attestor.toEvidence := by
  unfold checkTpm
  split
  · rfl
  · rfl
  · rfl
  · exact enroll_toEvidence attestor outcome _

@[simp] theorem judge_toEvidence (registers : Registers) :
    (attestor.judge config registers outcome).toEvidence =
      { attestor.toEvidence with
        registers := some registers
        attestOk := some (registersMatch config registers &&
          (attestor.checkTpm config registers outcome).2) } := by
  simp [judge]

@[simp] theorem enroll_status (seen : Enrollment) :
    (attestor.enroll seen outcome).1.status = attestor.status := by
  cases outcome <;> rfl

@[simp] theorem judge_status (registers : Registers) :
    (attestor.judge config registers outcome).status = attestor.status := by
  simp only [judge, checkTpm]
  split
  · rfl
  · rfl
  · rfl
  · exact enroll_status attestor outcome _

end Frames

/-! ## Each field is filled once -/

variable {primitives : TpmCrypto} {config : Config} {attestor next : Attestor} {call : Call}

section

variable (effect : Effect primitives config attestor call next)
include effect

theorem Effect.nonce : next.nonce = attestor.nonce := by
  cases effect <;> simp

theorem Effect.quote_stays (filled : attestor.quote = some found) : next.quote = some found := by
  cases effect with
  | quote unset | challenge unset _ _ _ | unendorsed unset _ _ => simp [unset] at filled
  | _ => simp [filled]

theorem Effect.attestOk_stays (filled : attestor.attestOk = some ok) : next.attestOk = some ok := by
  cases effect with
  | judged _ unset _ _ _ => simp [unset] at filled
  | _ => simp [filled]

theorem Effect.ek_stays (filled : attestor.ek = some found) : next.ek = some found := by
  cases effect with
  | chunk _ _ _ unset => simp [unset] at filled
  | _ => simp [filled]

end

/-- What stays once it is there was not there before if it is not there now. -/
theorem eq_none_of_stays (stays : ∀ {value : Value}, earlier = some value → later = some value)
    (unset : later = none) :
    earlier = none := by
  cases earlier with
  | none => rfl
  | some value => exact absurd (stays rfl) (by simp [unset])

theorem Effect.credential_stays (effect : Effect primitives config attestor call next)
    (filled : attestor.quote.isSome) :
    next.credential = attestor.credential := by
  cases effect with
  | challenge unset _ _ _ => simp [unset] at filled
  | _ => simp

/-! ## Which call filled a field -/

theorem foldl_or_xor_eq_zero (pairs : List (UInt8 × UInt8)) (found : UInt8) :
    pairs.foldl (fun found pair => found ||| (pair.1 ^^^ pair.2)) found = 0 ↔
      found = 0 ∧ ∀ pair ∈ pairs, pair.1 = pair.2 := by
  induction pairs generalizing found with
  | nil => simp
  | cons pair rest ih =>
    rw [List.foldl_cons, ih, UInt8.or_eq_zero_iff, UInt8.xor_eq_zero_iff]
    simp [and_assoc]

theorem ctEq_iff : ctEq left right ↔ left = right := by
  simp only [ctEq, Bool.and_eq_true, decide_eq_true_eq, foldl_or_xor_eq_zero, true_and]
  constructor
  · rintro ⟨length, same⟩
    exact List.ext_getElem length fun index below below' =>
      same (left[index], right[index]) (List.mem_iff_getElem.mpr ⟨index, by simp; omega, by simp⟩)
  · rintro rfl
    refine ⟨rfl, ?_⟩
    intro pair present
    obtain ⟨index, below, rfl⟩ := List.mem_iff_getElem.mp present
    simp

section Causes

theorem Effect.quote_filled (effect : Effect primitives config attestor call next)
    (unset : attestor.quote = none) (filled : next.quote = some found) :
    ∃ message secret ephemeral, call = .quote message secret ephemeral ∧
        checkQuote primitives attestor.nonce message = found := by
  cases effect with
  | quote _ => exact ⟨_, _, _, rfl, Option.some.inj filled⟩
  | challenge _ passed _ _ | unendorsed _ passed _ =>
    exact ⟨_, _, _, rfl, passed.trans (Option.some.inj filled)⟩
  | _ => simp [unset] at filled

theorem Effect.credential_filled
    (effect : Effect primitives config attestor (.quote message secret ephemeral) next)
    (unset : attestor.credential = none) (filled : next.credential = some found) :
    found = secret ∧ ∃ quoted ek text, checkQuote primitives attestor.nonce message = .ok quoted ∧
          attestor.ek = some (.ok ek) ∧
          Attestor.challenge primitives ek quoted secret ephemeral = some text := by
  cases effect with
  | challenge _ passed certified sent =>
    exact ⟨(Option.some.inj filled).symm, _, _, _, passed, certified, sent⟩
  | _ => simp [unset] at filled

variable (effect : Effect primitives config attestor call next)
include effect

theorem Effect.ekProven_accepted (unproven : attestor.ekProven ≠ some (.ok ()))
    (proven : next.ekProven = some (.ok ())) :
    ∃ message outcome secret, call = .endorsement message outcome ∧
        attestor.credential = some secret ∧
        decodeProof message = some secret.bytes := by
  cases effect with
  | @proof message outcome _ _ _ =>
    have accepted : attestor.checkProof message = .ok () := by simpa using proven
    unfold checkProof at accepted
    split at accepted
    · rename_i got want decoded credential
      split at accepted
      · rename_i same
        rw [ctEq_iff] at same
        exact ⟨_, _, want, rfl, credential, by rw [decoded, same]⟩
      · cases accepted
    · cases accepted
  | unendorsed _ _ _ => cases proven
  | _ => simp [unproven] at proven

theorem Effect.ek_filled (unset : attestor.ek = none) (filled : next.ek = some (.ok ek)) :
    ∃ message outcome, call = .endorsement message outcome ∧ message.head? = some ekChunkTag ∧
        (attestor.ekChunks.push message).2 = .ok () ∧
        checkEk primitives config (attestor.ekChunks.push message).1 = .ok ek := by
  cases effect with
  | @chunk message outcome _ tagged _ =>
    refine ⟨message, outcome, rfl, tagged, ?_⟩
    revert filled
    generalize attestor.ekChunks.push message = pushed
    intro filled
    obtain ⟨chunks, result⟩ := pushed
    cases result with
    | error error => simp [ekAfter] at filled
    | ok _ =>
      simp only [ekAfter] at filled
      split at filled
      · exact ⟨rfl, Option.some.inj filled⟩
      · cases filled
  | _ => simp [unset] at filled

theorem Effect.attestOk_filled (unset : attestor.attestOk = none)
    (filled : next.attestOk = some ok) :
    ∃ message outcome attestation, call = .message message outcome ∧ attestor.status = .pending ∧
        decodeAttest message = some (.attestation attestation) ∧
        attestation.nonce = attestor.nonce ∧
        next = finish config (attestor.judge config attestation.registers outcome) outcome ∧
        ok = (registersMatch config attestation.registers &&
          (attestor.checkTpm config attestation.registers outcome).2) := by
  cases effect with
  | judged outcome _ pending decoded fresh =>
    refine ⟨_, outcome, _, rfl, pending, decoded, fresh, rfl, ?_⟩
    simpa using filled.symm
  | _ => simp [unset] at filled

end Causes

/-! ## The decision -/

section Decision

variable {outcome : WriteOutcome}

theorem finish_of_undetermined (undetermined : attestor.attestOk = none) :
    finish config attestor outcome = attestor := by
  simp [finish, undetermined]

theorem finish_of_decided (decided : attestor.status ≠ .pending) :
    finish config attestor outcome = attestor := by
  simp [finish, decided]

/-- A decision is waited for, or made with what the endorsement allows. -/
theorem finish_cases (config : Config) (attestor : Attestor) (outcome : WriteOutcome) :
    finish config attestor outcome = attestor ∨ ∃ ok allowed, attestor.status = .pending ∧
          attestor.attestOk = some ok ∧
          attestor.endorsed config ok = some allowed ∧
          finish config attestor outcome =
            { (attestor.settle allowed outcome).1 with
              status := if (attestor.settle allowed outcome).2 then .trusted
                else .rejected } := by
  unfold finish
  split
  · exact .inl rfl
  rename_i pending
  split
  · exact .inl rfl
  rename_i ok determined
  split
  · exact .inl rfl
  · rename_i allowed endorsed
    exact .inr ⟨ok, allowed, not_not.mp pending, determined, endorsed, rfl⟩

theorem endorsed_eq_true (allowed : attestor.endorsed config ok = some true) :
    ok ∧ (config.trust.isSome → attestor.ekProven = some (.ok ())) := by
  unfold endorsed at allowed
  split at allowed
  · rename_i asked
    rw [Bool.and_eq_true] at asked
    refine ⟨asked.2, fun _ => ?_⟩
    split at allowed
    · rename_i proven
      exact proven
    · cases allowed
    · split at allowed <;> cases allowed
  · rename_i unasked
    rw [Option.some.injEq] at allowed
    subst allowed
    refine ⟨rfl, fun asked => ?_⟩
    simp [asked] at unasked

/-- What is put off is carried out only if everything else allows it. -/
theorem settle_allows (settled : (attestor.settle ok outcome).2) : ok := by
  unfold settle at settled
  split at settled
  · exact settled
  dsimp only at settled
  split at settled
  · rename_i allowed
    exact allowed
  · cases settled

/-- A session is accepted for an attestation that passed and, where it is asked
for, an endorsement that was proven. -/
theorem finish_accepts (accepted : (finish config attestor outcome).status = .trusted)
    (undecided : attestor.status ≠ .trusted) :
    attestor.attestOk = some true ∧
      (config.trust.isSome → attestor.ekProven = some (.ok ())) := by
  rcases finish_cases config attestor outcome with
    same | ⟨ok, allowed, -, determined, endorsed, decided⟩
  · rw [same] at accepted
    exact absurd accepted undecided
  · rw [decided] at accepted
    have settled : (attestor.settle allowed outcome).2 := by
      by_contra refused
      simp [refused] at accepted
    obtain rfl := settle_allows settled
    obtain ⟨rfl, proven⟩ := endorsed_eq_true endorsed
    exact ⟨determined, proven⟩

/-- How the fields of the state hang together while a session lasts. -/
structure Coherent (config : Config) (before attestor : Attestor) : Prop where
  /-- Without a quote nothing was sent. -/
  credential : attestor.quote = none → attestor.credential = none
  /-- Without a quote nothing was proven. -/
  unproven : attestor.quote = none → attestor.ekProven ≠ some (.ok ())
  /-- Until the attestation arrives the enrollment is not touched. -/
  untouched : attestor.attestOk = none → attestor.enrolled = before.enrolled ∧
      attestor.file = before.file ∧
      attestor.pendingEnrollment = none
  accepted : attestor.status = .trusted → attestor.attestOk = some true ∧
      (config.trust.isSome → attestor.ekProven = some (.ok ()))

theorem Coherent.request (before : Attestor) (nonce : Fixed 32) :
    Coherent config before (before.request nonce) := by
  constructor <;> simp [Attestor.request]

variable {before : Attestor}

variable (effect : Effect primitives config attestor call next)
include effect

/-- An accepted proof is not overturned. -/
theorem Effect.ekProven_stays (coherent : Coherent config before attestor)
    (proven : attestor.ekProven = some (.ok ())) : next.ekProven = some (.ok ()) := by
  cases effect with
  | proof _ _ _ unset => simp [unset] at proven
  | unendorsed unset _ _ => exact absurd proven (coherent.unproven unset)
  | _ => simp [proven]

theorem Effect.coherent (coherent : Coherent config before attestor) :
    Coherent config before next where
  credential := by
    intro absent
    have absent' : attestor.quote = none := eq_none_of_stays effect.quote_stays absent
    cases effect with
    | challenge _ _ _ _ => cases absent
    | _ => simpa using coherent.credential absent'
  unproven := by
    intro absent proven
    have absent' : attestor.quote = none := eq_none_of_stays effect.quote_stays absent
    obtain ⟨_, _, _, _, sent, _⟩ := effect.ekProven_accepted (coherent.unproven absent') proven
    simp [coherent.credential absent'] at sent
  untouched := by
    intro undetermined
    have undetermined' : attestor.attestOk = none :=
      eq_none_of_stays effect.attestOk_stays undetermined
    cases effect with
    | proof _ _ _ _ =>
      rw [finish_of_undetermined (by exact undetermined')]
      exact coherent.untouched undetermined'
    | judged _ _ _ _ _ => simp at undetermined
    | _ => exact coherent.untouched undetermined'
  accepted := by
    intro trusted
    by_cases already : attestor.status = .trusted
    · obtain ⟨passed, proven⟩ := coherent.accepted already
      exact ⟨effect.attestOk_stays passed,
        fun asked => effect.ekProven_stays coherent (proven asked)⟩
    cases effect with
    | proof _ _ _ _ =>
      simpa using finish_accepts trusted already
    | judged _ _ pending _ _ =>
      simpa using finish_accepts trusted (by simpa using already)
    | stale _ _ _ _ _ => cases trusted
    | _ => exact absurd trusted already

end Decision

end Attestor
end Cdk.Gateway

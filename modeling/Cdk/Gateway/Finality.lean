import Cdk.Gateway.Enrollment

/-!
# Only the first of each counts

A quote after the first one, a chunk after a complete endorsement key and a
proof after the first one do nothing at all: a session with such a call ends in
the state in which it ends without it (`run_superseded`).
-/

namespace Cdk.Gateway
namespace Attestor

open ByteFormat Link

/-- Some of the first chunks complete a blob. -/
def Completes (chunks : List Bytes) : Prop := ∃ received assembler blob, received <+: chunks ∧
      assemble received = some assembler ∧
      assembler.complete = some blob

/-- The call brings a second quote, a chunk after a complete endorsement key, or a
second proof. -/
def Superseded (early : List Call) : Call → Prop
  | .quote _ _ _ => ∃ message secret ephemeral, .quote message secret ephemeral ∈ early
  | .endorsement message _ =>
    (message.head? = some ekChunkTag ∧ Completes (ekChunksOf early)) ∨
      (message.head? = some proofTag ∧ ∃ proof outcome,
          proof.head? = some proofTag ∧ .endorsement proof outcome ∈ early)
  | .message _ _ => False

section Filled

variable {primitives : TpmCrypto} {config : Config} {attestor next before : Attestor}
variable {nonce : Fixed 32} {calls : List Call} {call : Call}

theorem ask_quote (attestor : Attestor) (quoted : Quoted) (secret ephemeral : Fixed 32) :
    (attestor.ask primitives quoted secret ephemeral).1.quote = attestor.quote := by
  unfold ask
  split
  · split
    · rfl
    · rfl
  · rfl
  · rfl

theorem quote_isSome_of_step (attestor : Attestor) (message : Bytes) (secret ephemeral : Fixed 32) :
    (attestor.step primitives config (.quote message secret ephemeral)).quote.isSome := by
  simp only [step, onQuote]
  split
  · rename_i filled
    exact filled
  split
  · rfl
  split
  · simp [ask_quote]
  · rfl

theorem quote_isSome_of_mem (present : .quote message secret ephemeral ∈ calls)
    (attestor : Attestor) : (run primitives config attestor calls).quote.isSome := by
  refine @Run.of_mem _ _ (step primitives config) (fun state => state.quote.isSome) _ _
    present (fun state => quote_isSome_of_step state message secret ephemeral) ?_ attestor
  intro state later filled
  obtain ⟨found, same⟩ := Option.isSome_iff_exists.mp filled
  simp [(effect_step primitives config state later).quote_stays same]

theorem Effect.ekProven_filled (effect : Effect primitives config attestor call next)
    (filled : attestor.ekProven.isSome) : next.ekProven.isSome := by
  cases effect <;> simp [filled]

theorem step_proof (asked : config.trust.isSome) (tagged : proof.head? = some proofTag)
    (attestor : Attestor) (outcome : WriteOutcome) :
    attestor.step primitives config (.endorsement proof outcome) =
      attestor.onProof config proof outcome := by
  have other : proofTag ≠ ekChunkTag := by decide
  simp [step, onEndorsement, Option.isNone_eq_false_iff.mpr asked, tagged, other]

theorem ekProven_isSome_of_mem (asked : config.trust.isSome) (tagged : proof.head? = some proofTag)
    (present : .endorsement proof outcome ∈ calls) (attestor : Attestor) :
    (run primitives config attestor calls).ekProven.isSome := by
  refine @Run.of_mem _ _ (step primitives config) (fun state => state.ekProven.isSome) _ _
    present ?_ (fun state later filled =>
      (effect_step primitives config state later).ekProven_filled filled) attestor
  intro state
  rw [step_proof asked tagged, onProof]
  split
  · rename_i filled
    exact filled
  · simp

theorem incomplete_of_ekAfter (undecided : ekAfter primitives config pushed = none) :
    pushed.1.complete = none := by
  obtain ⟨chunks, result⟩ := pushed
  cases result with
  | error error => cases undecided
  | ok _ =>
    simp only [ekAfter] at undecided
    split at undecided
    · cases undecided
    · rename_i incomplete
      simpa using incomplete

theorem not_completes_of_undecided (asked : config.trust.isSome)
    (undecided : (run primitives config (before.request nonce) calls).ek = none) :
    ¬Completes (ekChunksOf calls) := by
  induction calls using List.reverseRecOn with
  | nil =>
    rintro ⟨received, assembler, blob, beginning, assembled, complete⟩
    obtain rfl := List.prefix_nil.mp beginning
    cases assembled
    cases complete
  | append_singleton calls call ih =>
    rw [run_concat] at undecided
    have unset : (run primitives config (before.request nonce) calls).ek = none :=
      eq_none_of_stays (effect_step primitives config _ call).ek_stays undecided
    rw [ekChunksOf_concat]
    cases chunk : call.ekChunk? with
    | none =>
      rw [Option.toList_none, List.append_nil]
      exact ih unset
    | some message =>
      rintro ⟨received, assembler, blob, beginning, assembled, complete⟩
      rw [Option.toList_some, List.prefix_concat_iff] at beginning
      rcases beginning with rfl | beginning
      · obtain ⟨tagged, outcome, rfl⟩ := ekChunk?_eq_some chunk
        rw [step_ekChunk asked tagged unset] at undecided
        rw [assemble_concat, assemble_ekChunksOf asked unset, Option.bind_some,
          collect_of_push (taken_of_ekAfter undecided)] at assembled
        obtain rfl := Option.some.inj assembled
        rw [incomplete_of_ekAfter undecided] at complete
        cases complete
      · exact ih unset ⟨received, assembler, blob, beginning, assembled, complete⟩

theorem step_superseded (superseded : Superseded calls call) :
    (run primitives config (before.request nonce) calls).step primitives config call =
      run primitives config (before.request nonce) calls := by
  cases call with
  | message _ _ => exact superseded.elim
  | quote message secret ephemeral =>
    obtain ⟨_, _, _, present⟩ := superseded
    have filled : (run primitives config (before.request nonce) calls).quote.isSome :=
      quote_isSome_of_mem present _
    simp [step, onQuote, filled]
  | endorsement message outcome =>
    by_cases asked : config.trust.isSome
    · rcases superseded with ⟨tagged, complete⟩ | ⟨tagged, _, _, tagged', present⟩
      · have filled : (run primitives config (before.request nonce) calls).ek ≠ none :=
          fun undecided => not_completes_of_undecided asked undecided complete
        simp [step, onEndorsement, Option.isNone_eq_false_iff.mpr asked, tagged, onEkChunk,
          Option.isSome_iff_ne_none.mpr filled]
      · have filled : (run primitives config (before.request nonce) calls).ekProven.isSome :=
          ekProven_isSome_of_mem asked tagged' present _
        rw [step_proof asked tagged, onProof, if_pos filled]
    · have absent : config.trust = none := by simpa using asked
      simp [step, onEndorsement, absent]

theorem run_superseded (superseded : Superseded early call) (late : List Call) :
    run primitives config (before.request nonce) (early ++ call :: late) =
      run primitives config (before.request nonce) (early ++ late) := by
  rw [run_append_cons, step_superseded superseded]
  exact (Run.after_append _ early late).symm

end Filled

end Attestor
end Cdk.Gateway

import Cdk.Gateway.Trusted

/-!
# The loader's measurements

CDK's loader measures the kernel and the ramdisk into PCRs 11 and 12 before the
kernel runs.  The expected values come with those of `--expect`, but a quote is
looked at only where an option requires one: `loader_enforced_iff`.
-/

namespace Cdk.Gateway
namespace Attestor

open ByteFormat Link

/-- A verified quote of the session has the expected loader PCRs. -/
def LoaderQuoted (primitives : TpmCrypto) (nonce : Fixed 32) (calls : List Call)
    (expected : Vector (Fixed 32) 2) : Prop :=
  ∃ quote secret ephemeral quoted, .quote quote secret ephemeral ∈ calls ∧
      Verified primitives nonce quote quoted ∧
      quoted.loaderPcrs = expected

section Loader

variable {primitives : TpmCrypto} {config : Config}

theorem loaderQuoted_of_trusted {before : Attestor} (set : config.expectLoader = some expected)
    (required : config.tpmRequired)
    (trusted : (run primitives config (before.request nonce) calls).status = .trusted) :
    LoaderQuoted primitives nonce calls expected := by
  obtain ⟨early, message, outcome, late, attestation, rfl, -, -, -, asked⟩ :=
    exists_attestation trusted
  obtain ⟨quoted, present, -, loader, -⟩ := asked required
  obtain ⟨first, quote, secret, ephemeral, middle, rfl, -, -, passed⟩ := exists_quote present
  refine ⟨quote, secret, ephemeral, quoted, by simp, verified_of_checkQuote passed, ?_⟩
  simp only [loaderMatches, set, Bool.and_eq_true, decide_eq_true_eq] at loader
  exact loader.2

def wantedAttestation (config : Config) (nonce : Fixed 32) : Attestation where
  nonce := nonce
  verdict := .verified
  releaseId := Fixed.replicate 16 0
  registers := config.expect.getD (Vector.replicate 3 (Fixed.replicate 32 0))
  log := []

theorem trusted_of_wantedAttestation (optional : config.tpmRequired = false) (before : Attestor)
    (nonce : Fixed 32) (outcome : WriteOutcome) : (run primitives config (before.request nonce)
      [.message (encodeAttestation (wantedAttestation config nonce)) outcome]).status =
        .trusted := by
  have untrusting : config.trust.isSome = false := by
    simp only [Config.tpmRequired, Bool.or_eq_false_iff] at optional
    exact optional.2
  have matching : registersMatch config (wantedAttestation config nonce).registers := by
    cases wanted : config.expect <;> simp [registersMatch, wantedAttestation, wanted]
  have fresh : (wantedAttestation config nonce).nonce = nonce := rfl
  simp only [run, Run.after_cons, Run.after_nil, step, onMessage, decodeAttest_encodeAttestation]
  simp [request, fresh, judge, checkTpm, tpmFinding, optional, matching, finish, endorsed,
    untrusting, settle]

end Loader

/-- With loader measurements expected, trust (or service) stands for a verified
quote of them in every session exactly if a TPM quote is required. -/
theorem loader_enforced_iff
    (primitives : TpmCrypto)
    (config : Config)
    (expected : Vector (Fixed 32) 2)
    (set : config.expectLoader = some expected) :
    (∀ (before : Attestor) (nonce : Fixed 32) (calls : List Call),
        (run primitives config (before.request nonce) calls).status = .trusted ∨
            (run primitives config (before.request nonce) calls).serving config →
          LoaderQuoted primitives nonce calls expected) ↔ config.tpmRequired := by
  constructor
  · intro enforced
    by_contra optional
    rw [Bool.not_eq_true] at optional
    obtain ⟨quote, secret, ephemeral, quoted, present, -⟩ :=
      enforced (new none none) (Fixed.replicate 32 0) _
        (.inl (trusted_of_wantedAttestation optional _ _ .written))
    simp at present
  · intro required before nonce calls accepted
    apply loaderQuoted_of_trusted set required
    rcases accepted with trusted | served
    · exact trusted
    · simpa [serving, required] using served

theorem loader_enforced_iff_strict :
    strictConfig.expectLoader = some (Vector.replicate 2 sampleValue) ∧
      ∀ (before : Attestor) (nonce : Fixed 32) (calls : List Call),
        (run sampleTpm strictConfig (before.request nonce) calls).status = .trusted ∨
            (run sampleTpm strictConfig (before.request nonce) calls).serving strictConfig →
          LoaderQuoted sampleTpm nonce calls (Vector.replicate 2 sampleValue) :=
  ⟨rfl, (loader_enforced_iff sampleTpm strictConfig _ rfl).mpr rfl⟩

/-- What `--expect` alone asks for, with loader lines in its file. -/
def expectConfig : Config := { strictConfig with tpmFile := false, trust := none }

theorem loader_unenforced : expectConfig.expectLoader = some (Vector.replicate 2 sampleValue) ∧
    (run sampleTpm expectConfig ((new none none).request sampleNonce)
      [.message sampleAttestation .written]).status = .trusted ∧
    (run sampleTpm expectConfig ((new none none).request sampleNonce)
      [.message sampleAttestation .written]).serving expectConfig ∧
    ¬LoaderQuoted sampleTpm sampleNonce [.message sampleAttestation .written]
      (Vector.replicate 2 sampleValue) := by
  refine ⟨rfl, by decide +kernel, by decide +kernel, ?_⟩
  rintro ⟨quote, secret, ephemeral, quoted, present, -⟩
  simp at present

end Attestor
end Cdk.Gateway

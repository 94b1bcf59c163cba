import Cdk.Link.Store

/-!
# The TPM as the sealed store uses it

A monotonic NV counter and sealed objects.  The counter's state is modelled
exactly; every command may also fail, with or without having taken effect, as
the caller's environment decides.  Sealing is a parameter of which one fact is
assumed: what unseals is what was sealed.
-/

namespace Cdk.Store

open ByteFormat Link

/-- Why a TPM command failed. -/
inductive TpmError where
  /-- Nothing answers. -/
  | absent
  | timeout
  /-- The TPM returned a response code. -/
  | rc (code : UInt32)
  | badResponse
  deriving DecidableEq, Repr

def TpmError.debug : TpmError → String
  | absent => "Absent"
  | timeout => "Timeout"
  | rc code => s!"Rc({code})"
  | badResponse => "BadResponse"

/-- The index is not defined. -/
def rcNvAbsent : UInt32 := 0x18B

/-- The counter was never incremented. -/
def rcNvUninitialized : UInt32 := 0x14A

/-- The PCRs differ from those the object was sealed to. -/
def rcPolicyFail : UInt32 := 0x99D

/-- The session's digest is none of the branches. -/
def rcOrNoBranch : UInt32 := 0x1C4

/-- The counter cannot go further. -/
def rcNvRange : UInt32 := 0x146

def rcNvDefined : UInt32 := 0x14C

/-- A failure of a read command itself.  The two response codes that describe
the counter's state come from that state only. -/
structure Fault where
  error : TpmError
  /-- It does not describe the counter. -/
  notState : error ≠ .rc rcNvAbsent ∧ error ≠ .rc rcNvUninitialized
  deriving DecidableEq

/-! ## The counter -/

/-- The store's NV counter. -/
inductive NvCounter where
  | undefined
  | uninitialized
  | value (count : UInt64)
  deriving DecidableEq

/-- How the TPM answers a command that changes the counter. -/
inductive CommandAnswer where
  | done
  /-- An error; the command had no effect. -/
  | failed (error : TpmError)
  /-- An error, but the command took effect. -/
  | lost (error : TpmError)
  deriving DecidableEq

/-- Whether the command took effect but is reported as failed. -/
def CommandAnswer.isLost : CommandAnswer → Bool
  | lost _ => true
  | _ => false

/-- What the caller learns. -/
def CommandAnswer.result : CommandAnswer → Except TpmError Unit
  | done => .ok ()
  | failed error | lost error => .error error

namespace NvCounter

/-- Read the counter. -/
def read (counter : NvCounter) (fault : Option Fault) : Except TpmError UInt64 :=
  match fault, counter with
  | some fault, _ => .error fault.error
  | none, undefined => .error (.rc rcNvAbsent)
  | none, uninitialized => .error (.rc rcNvUninitialized)
  | none, value count => .ok count

/-- Define the counter. -/
def define (counter : NvCounter) (answer : CommandAnswer) : NvCounter × Except TpmError Unit :=
  match counter, answer with
  | undefined, .failed error => (undefined, .error error)
  | undefined, moved => (uninitialized, moved.result)
  | defined, _ => (defined, .error (.rc rcNvDefined))

/-- Increment the counter.  The first increment of a new counter sets it to a
value of the TPM's choice. -/
def increment (counter : NvCounter) (initial : UInt64)
    (answer : CommandAnswer) : NvCounter × Except TpmError Unit :=
  match counter with
  | undefined => (undefined, .error (.rc rcNvAbsent))
  | uninitialized =>
    match answer with
    | .failed error => (uninitialized, .error error)
    | moved => (value initial, moved.result)
  | value count =>
    match checkedAdd count 1, answer with
    | none, _ => (value count, .error (.rc rcNvRange))
    | some _, .failed error => (value count, .error error)
    | some next, moved => (value next, moved.result)

theorem read_eq_ok_iff : counter.read fault = .ok count ↔ fault = none ∧ counter = value count := by
  cases fault <;> cases counter <;> simp [read]

/-- An increment of a counter with a value leaves it and fails, or moves it by
one and is reported as done, unless the answer is lost. -/
theorem increment_value (count initial : UInt64) (answer : CommandAnswer) :
    ((value count).increment initial answer).1 = value count ∧
        (∃ error, ((value count).increment initial answer).2 = .error error) ∨
      ∃ next, next.toNat = count.toNat + 1 ∧
        ((value count).increment initial answer).1 = value next ∧
        (answer.isLost = false → ((value count).increment initial answer).2 = .ok ()) := by
  simp only [increment]
  cases added : checkedAdd count 1 with
  | none => exact .inl ⟨rfl, _, rfl⟩
  | some next =>
    cases answer with
    | failed error => exact .inl ⟨rfl, _, rfl⟩
    | done =>
      exact .inr ⟨next, checkedAdd_one_eq_some_iff.mp added, rfl, fun _ => rfl⟩
    | lost error =>
      exact .inr ⟨next, checkedAdd_one_eq_some_iff.mp added, rfl, fun seen => by cases seen⟩

end NvCounter

/-! ## Sealed objects -/

/-- Sealing by the TPM, under its storage key. -/
structure Tpm where
  /-- The public and private part of an object that holds data under a policy.
  The first argument is the TPM's randomness. -/
  «seal» : Bytes → Bytes → Fixed 32 → Bytes × Bytes
  /-- Unseal with the given PCR values and policy branches. -/
  «unseal» : List (Fixed 32) → Bytes → Bytes → List (Fixed 32) → Except TpmError Bytes
  /-- What unseals is what was sealed. -/
  unseal_seal : ∀ {random data policy pcrs branches out},
    «unseal» pcrs («seal» random data policy).1 («seal» random data policy).2 branches = .ok out →
      out = data

/-- What the store depends on besides its own code. -/
structure Config where
  crypto : Crypto
  aead : Aead
  tpm : Tpm

/-- The PCRs the key is sealed to: 0, 2, 4, 7 and 11. -/
def sealedPcrs : List Nat := [0, 2, 4, 7, 11]

/-- The selection bitmap of `sealedPcrs`. -/
def sealPcrs : Bytes := [0x95, 0x08, 0x00]

/-- The policy digest of selected PCRs holding the given values. -/
def pcrPolicy (crypto : Crypto) (values : List (Fixed 32)) : Fixed 32 :=
  let pcrs := crypto.sha256 (values.flatMap Fixed.bytes)
  crypto.sha256 (List.replicate 32 0 ++ [0x00, 0x00, 0x01, 0x7F] ++
    [0, 0, 0, 1] ++ [0x00, 0x0B] ++ [3] ++ sealPcrs ++ pcrs.bytes)

def orPolicy (crypto : Crypto) (branches : List (Fixed 32)) : Fixed 32 :=
  crypto.sha256 (List.replicate 32 0 ++ [0x00, 0x00, 0x01, 0x71] ++ branches.flatMap Fixed.bytes)

end Cdk.Store

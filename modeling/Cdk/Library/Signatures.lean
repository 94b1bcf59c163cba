import Mathlib.Data.Set.Function

/-!
# Ideal signatures

A log says who signed which text in which context.  A key is unforgeable if
every digest that verifies under it is the digest of a text that its holder
signed in that context.  Where no two texts in question share a digest, a text
that verifies is then itself in the log.
-/

namespace Signatures

/-- A text that the holder of a key signed in a context. -/
structure Signing (Key Context Text : Type) where
  key : Key
  context : Context
  text : Text

variable {Key Context Text Digest Signature : Type}

/-- What is valid under the key was signed with it. -/
def Unforgeable (hash : Text → Digest) (verifies : Key → Digest → Signature → Context → Bool)
    (log : List (Signing Key Context Text)) (key : Key) : Prop :=
  ∀ digest signature context, verifies key digest signature context →
    ∃ signing ∈ log, signing.key = key ∧ signing.context = context ∧ hash signing.text = digest

theorem Unforgeable.mem_log {hash : Text → Digest} {signature : Signature} {texts : Set Text}
    (unforgeable : Unforgeable hash verifies log key) (apart : Set.InjOn hash texts)
    (logged : ∀ signing ∈ log, signing.text ∈ texts) (checked : text ∈ texts)
    (verified : verifies key (hash text) signature context) :
    ⟨key, context, text⟩ ∈ log := by
  obtain ⟨signing, inLog, rfl, rfl, same⟩ := unforgeable _ _ _ verified
  obtain rfl := apart (logged signing inLog) checked same
  exact inLog

end Signatures

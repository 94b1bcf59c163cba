import Cdk.Policy.Rules

/-!
# Derived handles and the rules

`cap_derive` is not reviewed, since a derived handle is weaker than its parent.
That is so for every parent that has a permission.  A handle without any
permission is not counted by the rules, but the approval constraint may be
added to it, and then it is: `derivation_obeys_iff` says exactly when that
breaks a rule.
-/

namespace Cdk.Policy

open ByteFormat BoundedText Link Agent HandleTable Mask

/-! ## The grant of a derived handle -/

def Grant.derive (parent : Grant) (mask : UInt64) : Grant :=
  { parent with mask := childMask parent.mask mask }

def grantOf (pid : UInt32) (kind : Bytes) (flags : UInt8) (token : Token) : Grant :=
  .new pid token.objectId kind flags token.permissionMask

variable {mask : UInt64}

theorem grantOf_attenuated (attenuates : attenuated parent mask = .ok child)
    (pid : UInt32) (kind : Bytes) (flags : UInt8) :
    Allowed (grantOf pid kind flags parent).mask mask ∧
      grantOf pid kind flags child = (grantOf pid kind flags parent).derive mask := by
  obtain ⟨object, allowed, masks⟩ := attenuated_ok attenuates
  refine ⟨allowed, ?_⟩
  simp only [grantOf, Grant.derive, Grant.new, object, masks]

@[simp] theorem has_derive (policy : Policy) (parent : Grant) (mask : UInt64) (label : Label) :
    policy.has (parent.derive mask) label = policy.has parent label :=
  rfl

theorem Grant.actsFreely_iff (grant : Grant) : grant.actsFreely ↔
    (∃ bit, Mask.has grant.mask bit ∧ Mask.has effectMask bit) ∧
      Mask.has grant.mask 7 = false := by
  rw [actsFreely, Bool.and_eq_true, bne_iff_ne, ne_zero_iff, beq_iff_eq,
    and_approvalBit_eq_zero_iff]
  simp only [has_and, Bool.and_eq_true]

/-- A bit of the child that is not the approval constraint is one of the
parent. -/
theorem has_of_has_childMask (allowed : Allowed parentMask mask)
    (set : Mask.has (childMask parentMask mask) bit) (ordinary : bit ≠ 7) :
    Mask.has parentMask bit := by
  rcases (has_childMask _ _ _).mp set with asked | ⟨held, -⟩
  · exact ((allowed_iff _ _).mp allowed bit asked).resolve_right ordinary
  · exact held

variable {parent : Grant}

/-- A derived handle is under its parent if the parent has a permission or the
approval constraint is not asked for. -/
theorem Grant.under_derive (policy : Policy) (allowed : Allowed parent.mask mask)
    (ordinary : parent.mask ≠ 0 ∨ mask &&& approvalBit = 0) :
    (parent.derive mask).Under policy parent where
  pid := rfl
  labels := fun _ => id
  held := by
    intro held
    rcases ordinary with already | ungated
    · exact already
    rw [ne_zero_iff] at held ⊢
    rw [and_approvalBit_eq_zero_iff] at ungated
    obtain ⟨bit, set⟩ := held
    rcases (has_childMask _ _ _).mp set with asked | ⟨has, -⟩
    · refine ⟨bit, has_of_has_childMask allowed set ?_⟩
      rintro rfl
      exact Bool.false_ne_true (ungated.symm.trans asked)
    · exact ⟨bit, has⟩
  free := by
    rw [actsFreely_iff, actsFreely_iff]
    rintro ⟨⟨bit, set, effect⟩, ungated⟩
    have ordinary : bit ≠ 7 := by
      rintro rfl
      exact absurd effect (by decide)
    refine ⟨⟨bit, has_of_has_childMask allowed set ordinary, effect⟩, ?_⟩
    rw [← Bool.not_eq_true] at ungated ⊢
    intro gated
    exact ungated ((has_childMask _ _ _).mpr (.inr ⟨gated, rfl⟩))

/-! ## When a derivation breaks a rule -/

/-- A rule speaks about the object of a handle that has no permission, and
would be broken if the handle had one. -/
def bareReaches (policy : Policy) (grants : List Grant) (bare : Grant) : Bool :=
  policy.rules.items.any fun rule =>
    match rule with
    | .deny label => policy.has bare label
    | .approval _ => false
    | .separate a b =>
      policy.has bare a && (policy.has bare b || policy.reaches grants bare.pid b) ||
        policy.has bare b && policy.reaches grants bare.pid a

/-- The derivation gives a handle without any permission the approval
constraint, on an object that a rule covers. -/
def awakens (policy : Policy) (grants : List Grant) (parent : Grant) (mask : UInt64) : Bool :=
  parent.mask == 0 && mask &&& approvalBit != 0 && policy.bareReaches grants parent

theorem childMask_of_bare (asked : mask &&& approvalBit ≠ 0) : Mask.has (childMask 0 mask) 7 :=
  (has_childMask _ _ _).mpr (.inl ((and_approvalBit_ne_zero_iff mask).mp asked))

variable {policy : Policy} {grants : List Grant}

theorem derivation_obeys_of_ordinary
    (lawful : policy.violations grants = []) (present : parent ∈ grants)
    (allowed : Allowed parent.mask mask) (ordinary : parent.mask ≠ 0 ∨ mask &&& approvalBit = 0) :
    policy.violations (grants ++ [parent.derive mask]) = [] := by
  refine Covers.violations_eq_nil ?_ lawful
  refine List.forall_mem_append.mpr ⟨fun grant old => ⟨grant, old, .refl policy grant⟩, ?_⟩
  exact List.forall_mem_singleton.mpr ⟨parent, present, Grant.under_derive policy allowed ordinary⟩

/-- A bare handle that is given the approval constraint keeps the rules that do
not cover it. -/
theorem derivation_obeys_of_uncovered (lawful : policy.violations grants = [])
    (bare : parent.mask = 0) (asked : mask &&& approvalBit ≠ 0)
    (uncovered : policy.bareReaches grants parent = false) :
    policy.violations (grants ++ [parent.derive mask]) = [] := by
  rw [violations_eq_nil_iff] at lawful ⊢
  intro rule present
  have obeys := lawful rule present
  rw [bareReaches, List.any_eq_false] at uncovered
  have covers := uncovered rule present
  have listed : ∀ grant, grant ∈ grants ++ [parent.derive mask] →
      grant ∈ grants ∨ grant = parent.derive mask := by
    intro grant inside
    rcases List.mem_append.mp inside with old | new
    · exact .inl old
    · exact .inr (List.mem_singleton.mp new)
  cases rule with
  | deny label =>
    intro grant inside held
    rcases listed grant inside with old | rfl
    · exact obeys grant old held
    · rw [has_derive, ← Bool.not_eq_true]
      exact covers
  | approval label =>
    intro grant inside free
    rcases listed grant inside with old | rfl
    · exact obeys grant old free
    · have gated := childMask_of_bare asked
      rw [← bare] at gated
      have ungated := ((Grant.actsFreely_iff _).mp free).2
      exact absurd (ungated.symm.trans gated) Bool.false_ne_true
  | separate a b =>
    simp only [Bool.or_eq_true, Bool.and_eq_true, reaches_iff, not_or, not_and,
      Bool.not_eq_true] at covers
    intro left inLeft right inRight same leftHeld rightHeld reachesA
    rw [← Bool.not_eq_true]
    intro reachesB
    rcases listed left inLeft with oldLeft | rfl <;> rcases listed right inRight with oldRight | rfl
    · have misses := obeys left oldLeft right oldRight same leftHeld rightHeld reachesA
      exact Bool.false_ne_true (misses.symm.trans reachesB)
    · exact covers.2 reachesB ⟨left, oldLeft, same, leftHeld, reachesA⟩
    · exact (covers.1 reachesA).2 ⟨right, oldRight, same.symm, rightHeld, reachesB⟩
    · exact Bool.false_ne_true ((covers.1 reachesA).1.symm.trans reachesB)

/-- A bare handle that is given the approval constraint breaks a rule that
covers it. -/
theorem derivation_breaks_of_covered (bare : parent.mask = 0) (asked : mask &&& approvalBit ≠ 0)
    (covered : policy.bareReaches grants parent) :
    policy.violations (grants ++ [parent.derive mask]) ≠ [] := by
  rw [ne_eq, violations_eq_nil_iff]
  intro lawful
  obtain ⟨rule, present, covers⟩ := List.any_eq_true.mp covered
  have obeys := lawful rule present
  have inside : parent.derive mask ∈ grants ++ [parent.derive mask] :=
    List.mem_append_right _ List.mem_cons_self
  have held : (parent.derive mask).mask ≠ 0 := by
    have gated := childMask_of_bare asked
    rw [← bare] at gated
    exact (ne_zero_iff _).mpr ⟨7, gated⟩
  cases rule with
  | deny label =>
    have misses := obeys _ inside held
    exact Bool.false_ne_true (misses.symm.trans covers)
  | approval label => exact Bool.false_ne_true covers
  | separate a b =>
    simp only [Bool.or_eq_true, Bool.and_eq_true, reaches_iff] at covers
    rcases covers with ⟨hasA, hasB | ⟨right, old, same, rightHeld, hasB⟩⟩ |
      ⟨hasB, left, old, same, leftHeld, hasA⟩
    · have misses := obeys _ inside _ inside rfl held held hasA
      exact Bool.false_ne_true (misses.symm.trans hasB)
    · have misses := obeys _ inside right (List.mem_append_left _ old) same.symm held rightHeld hasA
      exact Bool.false_ne_true (misses.symm.trans hasB)
    · have misses := obeys left (List.mem_append_left _ old) _ inside same leftHeld held hasA
      exact Bool.false_ne_true (misses.symm.trans hasB)

/-- A derivation keeps the rules exactly if it does not awaken a handle that
they cover. -/
theorem derivation_obeys_iff (lawful : policy.violations grants = []) (present : parent ∈ grants)
    (allowed : Allowed parent.mask mask) :
    policy.violations (grants ++ [parent.derive mask]) = [] ↔
      policy.awakens grants parent mask = false := by
  simp only [awakens, Bool.and_eq_false_iff, beq_eq_false_iff_ne, bne_eq_false_iff_eq]
  constructor
  · intro keeps
    by_contra awakened
    simp only [not_or, not_not, Bool.not_eq_false] at awakened
    exact derivation_breaks_of_covered awakened.1.1 awakened.1.2 awakened.2 keeps
  intro ordinary
  by_cases bare : parent.mask ≠ 0 ∨ mask &&& approvalBit = 0
  · exact derivation_obeys_of_ordinary lawful present allowed bare
  rw [not_or, not_not] at bare
  have uncovered := ordinary.resolve_left (by
    rw [not_or, not_not]
    exact bare)
  exact derivation_obeys_of_uncovered lawful bare.1 bare.2 uncovered

/-! ## Any number of derivations -/

/-- A derivation: the place of the parent in the list, and the mask. -/
abbrev Derivation := Nat × UInt64

/-- Derive a handle, if that is allowed. -/
def deriveStep (grants : List Grant) (derivation : Derivation) : List Grant :=
  match grants[derivation.1]? with
  | none => grants
  | some parent =>
    if Allowed parent.mask derivation.2 then
      grants ++ [parent.derive derivation.2]
    else grants

/-- The derivation brings no rule into play. -/
def Quiet (policy : Policy) (grants : List Grant) (derivation : Derivation) : Prop :=
  ∀ parent ∈ grants[derivation.1]?, policy.awakens grants parent derivation.2 = false

instance (policy : Policy) (grants : List Grant) (derivation : Derivation) :
    Decidable (policy.Quiet grants derivation) :=
  inferInstanceAs (Decidable (∀ parent ∈ grants[derivation.1]?, _))

theorem deriveStep_lawful (grants : List Grant) (derivation : Derivation)
    (lawful : policy.Lawful grants) (quiet : policy.Quiet grants derivation) :
    policy.Lawful (deriveStep grants derivation) := by
  unfold deriveStep
  split
  · exact lawful
  rename_i parent found
  split
  · rename_i allowed
    exact (derivation_obeys_iff lawful (List.mem_of_getElem? found) allowed).mpr
      (quiet parent found)
  · exact lawful

/-- Derivations need no review as long as they do not awaken a handle that the
rules cover: one derivation keeps the rules exactly in that case, and so does
any number of them. -/
theorem derivation_needs_no_review
    (policy : Policy)
    (grants : List Grant)
    (lawful : policy.violations grants = []) :
    (∀ parent ∈ grants, ∀ mask, Allowed parent.mask mask →
      (policy.violations (grants ++ [parent.derive mask]) = [] ↔
        ¬(parent.mask = 0 ∧ mask &&& approvalBit ≠ 0 ∧ policy.bareReaches grants parent))) ∧
    ∀ derivations, Run.Along deriveStep policy.Quiet grants derivations →
      policy.violations (Run.after deriveStep grants derivations) = [] := by
  constructor
  · intro parent present mask allowed
    rw [derivation_obeys_iff lawful present allowed, ← Bool.not_eq_true, awakens]
    simp only [Bool.and_eq_true, beq_iff_eq, bne_iff_ne, and_assoc]
  · intro derivations quiet
    have kept : policy.Lawful (Run.after deriveStep grants derivations) :=
      Run.invariant lawful deriveStep_lawful quiet
    exact kept

def secretLabel : Label := ⟨ascii "secret", by decide⟩

/-- One object is secret, and no agent may hold a handle on it. -/
def secretPolicy : Policy where
  rules := ⟨[.deny secretLabel], by decide⟩
  labels := ⟨[(firstId, secretLabel)], by decide⟩
  trusts := .empty

/-- A handle without permissions on the secret object is no violation, but the
gated handle that is derived from it is one. -/
theorem derivation_breaks_deny : secretPolicy.violations [objectGrant 1 0] = [] ∧
    Allowed (objectGrant 1 0).mask approvalBit ∧ secretPolicy.violations
      [objectGrant 1 0, (objectGrant 1 0).derive approvalBit] ≠ [] := by
  decide

/-- From `send,recv` on another object a gated handle is derived, and an empty
one from that. -/
theorem derivation_needs_no_review_mailbox :
    secretPolicy.violations (Run.after deriveStep [objectGrant 2 48] [(0, 144), (1, 128)]) = [] :=
  (derivation_needs_no_review secretPolicy [objectGrant 2 48] (by decide)).2
    [(0, 144), (1, 128)] (by decide)

end Cdk.Policy

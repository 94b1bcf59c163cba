import Cdk.Policy.Legible

/-!
# What reviews and rules cover

A reach diff lists a process and an object if a permission is new there, or the first handle
that acts freely.  Rules see the first twelve labels of an object.
-/

namespace Cdk.Policy

open ByteFormat BoundedText Link Agent Mask

variable {before after : List Grant} {pid : UInt32} {object : Str 16}

/-! ## Reach diffs -/

/-- The difference shows a change of the process on the object. -/
def Listed (before after : List Grant) (pid : UInt32) (object : Str 16) : Prop :=
  ∃ change ∈ diff before after, change.pid = pid ∧ change.object = object

/-- A handle carries the permission without the approval bit. -/
def Free (grants : List Grant) (pid : UInt32) (object : Str 16) (bit : Nat) : Prop :=
  ∃ grant ∈ grants, grant.isFor pid object ∧ Mask.has grant.mask bit ∧
    Mask.has grant.mask 7 = false

/-- Every permission was held before, and every free effect was free before. -/
structure NothingNew (before after : List Grant) (pid : UInt32) (object : Str 16) : Prop where
  held : ∀ bit, bit ≠ 7 → Mask.has (union after pid object) bit →
    Mask.has (union before pid object) bit
  free : ∀ bit, Mask.has effectMask bit → Free after pid object bit → Free before pid object bit

/-- Where one effect is free, no effect is held behind the gate only. -/
def Uniform (grants : List Grant) (pid : UInt32) (object : Str 16) : Prop :=
  ungated grants pid object → ∀ bit, Mask.has effectMask bit →
    Mask.has (union grants pid object) bit → Free grants pid object bit

theorem listed_of_changeOf (present : grant ∈ after)
    (made : changeOf before after grant = some change) :
    Listed before after grant.pid grant.object := by
  obtain ⟨samePid, sameObject, -⟩ := changeOf_eq_some made
  obtain ⟨early, late, isAfter⟩ := List.append_of_mem present
  unfold Listed diff
  generalize changeOf before after = make at made
  rw [isAfter, List.foldl_append, List.foldl_cons]
  refine List.foldlRecOn late _ (motive := fun changes : List Change => ∃ change ∈ changes,
    change.pid = grant.pid ∧ change.object = grant.object) ?_ ?_
  · split
    next already => simpa using already
    · exact ⟨change, by simp [made], samePid, sameObject⟩
  · rintro changes ⟨change, old, key⟩ other -
    split
    · exact ⟨change, old, key⟩
    · exact ⟨change, List.mem_append_left _ old, key⟩

theorem listed_iff : Listed before after pid object ↔ gained before after pid object ≠ 0 ∨
    ungated after pid object ∧ ungated before pid object = false := by
  constructor
  · rintro ⟨change, present, rfl, rfl⟩
    obtain ⟨grant, -, made⟩ := exists_of_mem_diff present
    obtain ⟨samePid, sameObject, -⟩ := changeOf_eq_some made
    rw [samePid, sameObject]
    by_contra none
    rw [changeOf, if_neg (by simpa using none)] at made
    cases made
  · intro gains
    obtain ⟨grant, present, isFor⟩ : ∃ grant ∈ after, grant.isFor pid object := by
      rcases gains with new | ⟨free, -⟩
      · obtain ⟨bit, set⟩ := (ne_zero_iff _).mp new
        simp only [gained, has_and_not, Bool.and_eq_true] at set
        obtain ⟨grant, present, isFor, -⟩ := (has_union _ _ _ _).mp set.1.1
        exact ⟨grant, present, isFor⟩
      · obtain ⟨grant, present, isFor, -⟩ := (ungated_iff _ _ _).mp free
        exact ⟨grant, present, isFor⟩
    obtain ⟨rfl, rfl⟩ : grant.pid = pid ∧ grant.object = object := by
      simpa [Grant.isFor] using isFor
    apply listed_of_changeOf present
    rw [changeOf, if_pos (by simpa using gains)]

theorem gained_eq_zero_iff : gained before after pid object = 0 ↔
    ∀ bit, bit ≠ 7 → Mask.has (union after pid object) bit →
      Mask.has (union before pid object) bit := by
  rw [eq_zero_iff]
  refine forall_congr' fun bit => ?_
  rw [gained, has_and_not, has_and_not, has_approvalBit]
  rcases eq_or_ne bit 7 with rfl | notGate
  · simp
  · simp [notGate, notGate.symm]

theorem ungated_iff_free : ungated after pid object ↔
    ∃ bit, Mask.has effectMask bit ∧ Free after pid object bit := by
  simp only [ungated_iff, Free, Grant.actsFreely, Bool.and_eq_true, bne_iff_ne, beq_iff_eq,
    ne_zero_iff, has_and, and_approvalBit_eq_zero_iff]
  constructor
  · rintro ⟨grant, present, isFor, ⟨bit, held, effect⟩, free⟩
    exact ⟨bit, effect, grant, present, isFor, held, free⟩
  · rintro ⟨bit, effect, grant, present, isFor, held, free⟩
    exact ⟨grant, present, isFor, ⟨bit, held, effect⟩, free⟩

/-- What is not listed is not new, whatever is granted, exactly if the handles before were
uniform. -/
theorem diff_complete_iff
    (before : List Grant)
    (pid : UInt32)
    (object : Str 16) :
    (∀ after, ¬ Listed before after pid object → NothingNew before after pid object) ↔
      Uniform before pid object := by
  constructor
  · intro complete free bit effect held
    obtain ⟨grant, present, isFor, set⟩ := (has_union _ _ _ _).mp held
    -- Grant the permissions of the gated handle once more, without the gate.
    let again : Grant := { grant with mask := grant.mask &&& ~~~approvalBit }
    have unlisted : ¬ Listed before (before ++ [again]) pid object := by
      rw [listed_iff, not_or, not_not, gained_eq_zero_iff]
      refine ⟨fun other notGate inside => ?_, fun gates => by simp [free] at gates⟩
      obtain ⟨from_, listed, fromFor, has⟩ := (has_union _ _ _ _).mp inside
      rcases List.mem_append.mp listed with old | new
      · exact (has_union _ _ _ _).mpr ⟨from_, old, fromFor, has⟩
      · obtain rfl := List.mem_singleton.mp new
        simp only [again, has_and_not, Bool.and_eq_true] at has
        exact (has_union _ _ _ _).mpr ⟨grant, present, isFor, has.1⟩
    have notGate : bit ≠ 7 := by
      rintro rfl
      exact absurd effect (by decide)
    refine (complete _ unlisted).free bit effect ⟨again, by simp, isFor, ?_, ?_⟩
    · rw [has_and_not, has_approvalBit, set, decide_eq_false notGate.symm]
      rfl
    · rw [has_and_not, has_approvalBit, decide_eq_true rfl, Bool.not_true, Bool.and_false]
  · intro uniform after unlisted
    rw [listed_iff, not_or, not_not, gained_eq_zero_iff] at unlisted
    obtain ⟨held, gates⟩ := unlisted
    refine ⟨held, fun bit effect free => ?_⟩
    have free' : ungated after pid object := ungated_iff_free.mpr ⟨bit, effect, free⟩
    obtain ⟨grant, present, isFor, set, -⟩ := free
    apply uniform (by simpa [free'] using gates) bit effect
    apply held bit _ ((has_union _ _ _ _).mpr ⟨grant, present, isFor, set⟩)
    rintro rfl
    exact absurd effect (by decide)

/-- A process with a free `exec` and a gated `send` gains a free `send`: nothing is listed. -/
theorem diff_misses_free_send :
    diff [objectGrant 1 8, objectGrant 1 144] [objectGrant 1 8, objectGrant 1 144,
      objectGrant 1 16] = [] ∧
    Free [objectGrant 1 8, objectGrant 1 144, objectGrant 1 16] 5 (objectGrant 1 0).object 4 ∧
    ¬ Free [objectGrant 1 8, objectGrant 1 144] 5 (objectGrant 1 0).object 4 := by
  unfold Free
  decide +kernel

/-! ## Labels -/

/-- The grant's object has the label, by itself or by the operator. -/
def Carries (policy : Policy) (grant : Grant) (label : Bytes) : Prop :=
  label ∈ automaticLabels grant.kind.text grant.flags ++
    policy.operatorLabels grant.object.text grant.kind.text

/-- Operators required for an action on an object with the labels. -/
def quorumFor (quorums : List (Label × Nat)) (labels : List Bytes) : Nat :=
  ((quorums.filter fun entry => labels.contains entry.1.text).map Prod.snd).max?.getD 1

/-- Every rule that is broken is reported. -/
structure Enforced (policy : Policy) (quorums : List (Label × Nat)) (grants : List Grant) :
    Prop where
  denied : ∀ label, .deny label ∈ policy.rules.items → ∀ grant ∈ grants, grant.mask ≠ 0 →
    policy.Carries grant label.text →
      .denied grant.pid grant.object label ∈ policy.violations grants
  gated : ∀ label, .approval label ∈ policy.rules.items → ∀ grant ∈ grants,
    grant.actsFreely → policy.Carries grant label.text →
      .needsApproval grant.pid grant.object label ∈ policy.violations grants
  separated : ∀ a b, .separate a b ∈ policy.rules.items → ∀ left ∈ grants, ∀ right ∈ grants,
    left.pid = right.pid → left.mask ≠ 0 → right.mask ≠ 0 → policy.Carries left a.text →
      policy.Carries right b.text → .separated left.pid a b ∈ policy.violations grants
  quorum : ∀ grant ∈ grants, ∀ entry ∈ quorums, policy.Carries grant entry.1.text →
    entry.2 ≤ quorumFor quorums (policy.labelsOf grant.object.text grant.kind.text grant.flags)

/-- At most twelve labels. -/
def FewLabels (policy : Policy) (grant : Grant) : Prop :=
  (policy.everyLabel grant.object.text grant.kind.text grant.flags).length ≤ 12

variable {policy : Policy} {grant : Grant}

theorem carries_iff (label : Bytes) : policy.Carries grant label ↔
    label ∈ policy.everyLabel grant.object.text grant.kind.text grant.flags := by
  refine Iff.trans ?_ (FirstMatch.mem_foldl_append_new id _ [] label).symm
  simp [Carries]

theorem nodup_everyLabel (policy : Policy) (object kind : Bytes) (flags : UInt8) :
    (policy.everyLabel object kind flags).Nodup := by
  refine List.foldlRecOn _ _ List.nodup_nil fun labels distinct label _ => ?_
  split
  · exact distinct
  · rename_i absent
    exact List.nodup_append_comm.mp (distinct.cons (by simpa using absent))

theorem seen_iff : (∀ label, policy.Carries grant label →
    label ∈ policy.labelsOf grant.object.text grant.kind.text grant.flags) ↔
      policy.FewLabels grant := by
  simp only [carries_iff, labelsOf_eq_take, FewLabels]
  have distinct := policy.nodup_everyLabel grant.object.text grant.kind.text grant.flags
  generalize policy.everyLabel grant.object.text grant.kind.text grant.flags = labels at distinct
  constructor
  · intro seen
    rw [← List.drop_eq_nil_iff, List.eq_nil_iff_forall_not_mem]
    intro label dropped
    exact List.disjoint_take_drop distinct le_rfl (seen label (List.mem_of_mem_drop dropped))
      dropped
  · intro few
    rw [List.take_of_length_le few]
    exact fun _ => id

theorem mem_violations {violation : Violation} (listed : rule ∈ policy.rules.items)
    (broken : violation ∈ policy.ruleViolations grants rule) :
    violation ∈ policy.violations grants :=
  List.mem_flatMap.mpr ⟨rule, listed, broken⟩

theorem labels_enforced
    (policy : Policy)
    (quorums : List (Label × Nat))
    (grants : List Grant) :
    (∀ grant, (∀ label, policy.Carries grant label →
      label ∈ policy.labelsOf grant.object.text grant.kind.text grant.flags) ↔
        policy.FewLabels grant) ∧
    ((∀ grant ∈ grants, policy.FewLabels grant) → policy.Enforced quorums grants) := by
  refine ⟨fun grant => seen_iff, fun few => ?_⟩
  have has : ∀ grant ∈ grants, ∀ label : Label, policy.Carries grant label.text →
      policy.has grant label := fun grant present label carries =>
    List.contains_iff_mem.mpr (seen_iff.mpr (few grant present) _ carries)
  refine ⟨fun label rule grant present held carries => ?_,
    fun label rule grant present acts carries => ?_,
    fun a b rule left inLeft right inRight same leftHeld rightHeld onA onB => ?_,
    fun grant present entry listed carries => ?_⟩
  · apply mem_violations rule
    simp only [ruleViolations, List.mem_map, List.mem_filter]
    exact ⟨grant, ⟨present, by simp [held, has grant present label carries]⟩, rfl⟩
  · apply mem_violations rule
    simp only [ruleViolations, List.mem_map, List.mem_filter]
    exact ⟨grant, ⟨present, by simp [acts, has grant present label carries]⟩, rfl⟩
  · apply mem_violations rule
    simp only [ruleViolations, List.mem_map, List.mem_filter, Bool.and_eq_true, reaches_iff]
    exact ⟨left.pid, ⟨(mem_pidsOf _ _).mpr ⟨left, inLeft, rfl⟩,
      ⟨left, inLeft, rfl, leftHeld, has left inLeft a onA⟩,
      ⟨right, inRight, same.symm, rightHeld, has right inRight b onB⟩⟩, rfl⟩
  · apply List.le_max?_getD_of_mem
    simp only [List.mem_map, List.mem_filter, List.contains_iff_mem]
    exact ⟨entry, ⟨listed, seen_iff.mpr (few grant present) _ carries⟩, rfl⟩

def manyLabels (index : Fin 13) : Label := longLabel (index.castLE (by decide))

/-- Thirteen labels on one object, of which the last is denied. -/
def thirteenLabels : Policy where
  rules := ⟨[.deny (manyLabels (.last 12))], by decide⟩
  labels := ⟨(List.finRange 13).map fun index => (firstId, manyLabels index), by decide⟩
  trusts := .empty

theorem thirteenth_label_ignored :
    thirteenLabels.Carries (objectGrant 1 8) (manyLabels (.last 12)).text ∧
    thirteenLabels.violations [objectGrant 1 8] = [] ∧
    quorumFor [(manyLabels (.last 12), 2)] (thirteenLabels.labelsOf (objectGrant 1 8).object.text
      (objectGrant 1 8).kind.text 0) = 1 := by
  unfold Carries
  decide +kernel

end Cdk.Policy

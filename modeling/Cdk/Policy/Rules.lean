import Cdk.Agent.Handles

/-!
# Labels, rules and violations

A rule is an invariant over all agents' handles: no handle on an object with a label, no two
handles of one agent on objects with two labels, no handle with an effect on an object with a
label unless it is gated.  `violations` is empty exactly if every rule is obeyed, which depends
on a handle only through its process, its labels and two bits of its mask (`Covers`).
-/

namespace Cdk

open ByteFormat BoundedText Link Agent

namespace Policy

/-! ## Rules -/

/-- Labels: 1 to 24 of `a-z A-Z 0-9 - _ . :`. -/
def validLabel : Bytes → Bool :=
  validName 24 fun byte =>
    isAsciiAlphanumeric byte || (ascii "-_.:").contains byte

abbrev Label := Name validLabel

/-- An invariant over all agents' handles. -/
inductive Rule where
  /-- No agent holds a handle on an object with the label. -/
  | deny (label : Label)
  /-- No agent holds handles on objects with both labels. -/
  | separate (a b : Label)
  /-- A handle with an effect on an object with the label is gated. -/
  | approval (label : Label)
  deriving DecidableEq

def maxRules : Nat := 16

/-- Operator labels of a policy at most. -/
def maxLabels : Nat := 32

/-- What a peer node may delegate here. -/
structure Trust where
  node : NodeName
  /-- The object on the peer, or any. -/
  object : Option ObjectName
  /-- The permissions it may grant, and `approval` to force the gate. -/
  permissions : List Permission
  deriving DecidableEq

end Policy

/-- The operator's policy. -/
structure Policy where
  rules : BoundedVec Policy.Rule Policy.maxRules
  /-- An object id or kind, and its label. -/
  labels : BoundedVec (Str 32 × Policy.Label) Policy.maxLabels
  trusts : BoundedVec Policy.Trust 16

namespace Policy

/-! ## Trust in peers -/

def Trust.isFor (node : NodeName) (object : ObjectName) (trust : Trust) : Bool :=
  trust.node == node && (trust.object == some object || trust.object == none)

/-- What a node may delegate. -/
def trusted (policy : Policy) (node : NodeName) (object : ObjectName) : UInt64 :=
  (policy.trusts.items.filter (Trust.isFor node object)).foldl
    (fun mask trust => mask ||| maskOf trust.permissions) 0

theorem has_trusted (policy : Policy) (node : NodeName) (object : ObjectName) (bit : Nat) :
    Mask.has (policy.trusted node object) bit ↔
      ∃ trust ∈ policy.trusts.items, trust.isFor node object ∧
        Mask.has (maskOf trust.permissions) bit := by
  rw [trusted, Mask.has_foldl_or]
  simp only [Mask.has_zero, Bool.false_eq_true, false_or, List.mem_filter, and_assoc]

/-! ## Grants and labels -/

/-- A capability that an agent holds or would hold, as the policy sees it. -/
structure Grant where
  pid : UInt32
  object : Str 16
  kind : Str 32
  /-- The gateway's flags of the object. -/
  flags : UInt8
  mask : UInt64
  deriving DecidableEq

def Grant.new (pid : UInt32) (object kind : Bytes) (flags : UInt8) (mask : UInt64) : Grant :=
  ⟨pid, .truncate 16 object, .truncate 32 kind, flags, mask⟩

/-- The gateway adds a credential to the tool's requests. -/
def flagCredential : UInt8 := 1

/-- Requests leave this machine. -/
def flagRemote : UInt8 := 2

/-- Permissions that make something happen. -/
def effectMask : UInt64 := Permission.execute.bit ||| Permission.sendMessage.bit |||
    Permission.write.bit ||| Permission.delete.bit

/-- The labels of an imported object: `peer`, and `peer:<node>` if that is
short enough for a label. -/
def peerLabels (kind : Bytes) : List Bytes :=
  match kind.dropPrefix? (ascii "peer:") with
  | none => []
  | some rest =>
    let node := ascii "peer:" ++ rest.takeWhile (· != 47)
    ascii "peer" :: if node.length ≤ 24 then [node] else []

/-- The labels that an object has by itself, in order. -/
def automaticLabels (kind : Bytes) (flags : UInt8) : List Bytes :=
  (if (ascii "tool:").isPrefixOf kind then [ascii "tool"] else []) ++
  (if (ascii "model:").isPrefixOf kind then [ascii "model"] else []) ++
  (if flags &&& flagCredential ≠ 0 then [ascii "credential"] else []) ++
  (if flags &&& flagRemote ≠ 0 then [ascii "remote"] else []) ++
  peerLabels kind

/-- Add a label to those of an object, of which there are at most twelve. -/
def addLabel (labels : List Bytes) (label : Bytes) : List Bytes :=
  if labels.contains label then labels
  else if labels.length < 12 then labels ++ [label]
  else labels

variable (policy : Policy)

def operatorLabels (object kind : Bytes) : List Bytes :=
  (policy.labels.items.filter fun entry =>
    entry.1.text == object || entry.1.text == kind).map fun entry => entry.2.text

def labelsOf (object kind : Bytes) (flags : UInt8) : List Bytes :=
  (automaticLabels kind flags ++ policy.operatorLabels object kind).foldl addLabel []

def has (grant : Grant) (label : Label) : Bool :=
  (policy.labelsOf grant.object.text grant.kind.text grant.flags).contains label.text

/-! ## Violations -/

/-- A rule that is not obeyed. -/
inductive Violation where
  | denied (pid : UInt32) (object : Str 16) (label : Label)
  | separated (pid : UInt32) (a b : Label)
  | needsApproval (pid : UInt32) (object : Str 16) (label : Label)
  deriving DecidableEq

variable (grants : List Grant)

def pidsOf : List UInt32 := grants.foldl
    (fun pids grant =>
      if pids.contains grant.pid then pids else pids ++ [grant.pid]) []

/-- The handle acts without waiting for a human. -/
def Grant.actsFreely (grant : Grant) : Bool :=
  grant.mask &&& effectMask != 0 && grant.mask &&& approvalBit == 0

def reaches (pid : UInt32) (label : Label) : Bool :=
  grants.any fun grant =>
    grant.pid == pid && grant.mask != 0 && policy.has grant label

/-- The violations of a rule. -/
def ruleViolations : Rule → List Violation
  | .deny label =>
    (grants.filter fun grant => grant.mask != 0 && policy.has grant label).map
      fun grant => .denied grant.pid grant.object label
  | .approval label =>
    (grants.filter fun grant =>
      grant.actsFreely && policy.has grant label).map
      fun grant => .needsApproval grant.pid grant.object label
  | .separate a b =>
    ((pidsOf grants).filter fun pid =>
      policy.reaches grants pid a && policy.reaches grants pid b).map
      fun pid => .separated pid a b

def violations : List Violation :=
  policy.rules.items.flatMap (policy.ruleViolations grants)

/-- The grants violate no rule. -/
def Lawful : Prop := policy.violations grants = []

/-! ## Obeying the rules -/

/-- No handle, or no two handles of one process, break the rule. -/
def Obeys : Rule → Prop
  | .deny label =>
    ∀ grant ∈ grants, grant.mask ≠ 0 → policy.has grant label = false
  | .approval label =>
    ∀ grant ∈ grants, grant.actsFreely → policy.has grant label = false
  | .separate a b =>
    ∀ left ∈ grants, ∀ right ∈ grants, left.pid = right.pid →
      left.mask ≠ 0 → right.mask ≠ 0 → policy.has left a →
      policy.has right b = false

theorem mem_pidsOf (pid : UInt32) : pid ∈ pidsOf grants ↔ ∃ grant ∈ grants, grant.pid = pid := by
  rw [pidsOf, FirstMatch.mem_foldl_append_new Grant.pid]
  simp only [List.not_mem_nil, false_or]

theorem reaches_iff (pid : UInt32) (label : Label) :
    policy.reaches grants pid label ↔ ∃ grant ∈ grants, grant.pid = pid ∧ grant.mask ≠ 0 ∧
        policy.has grant label := by
  simp only [reaches, List.any_eq_true, Bool.and_eq_true, beq_iff_eq, bne_iff_ne, and_assoc]

theorem ruleViolations_eq_nil_iff (rule : Rule) :
    policy.ruleViolations grants rule = [] ↔ policy.Obeys grants rule := by
  cases rule with
  | deny label =>
    simp only [ruleViolations, List.map_eq_nil_iff, List.filter_eq_nil_iff,
      Bool.and_eq_true, bne_iff_ne, not_and, Bool.not_eq_true, Obeys]
  | approval label =>
    simp only [ruleViolations, List.map_eq_nil_iff, List.filter_eq_nil_iff,
      Bool.and_eq_true, not_and, Bool.not_eq_true, Obeys]
  | separate a b =>
    simp only [ruleViolations, List.map_eq_nil_iff, List.filter_eq_nil_iff,
      Bool.and_eq_true, reaches_iff, Obeys]
    constructor
    · intro none left inLeft right inRight same leftHeld rightHeld reachesA
      rw [← Bool.not_eq_true]
      intro reachesB
      exact none left.pid ((mem_pidsOf _ _).mpr ⟨left, inLeft, rfl⟩)
        ⟨⟨left, inLeft, rfl, leftHeld, reachesA⟩, ⟨right, inRight, same.symm, rightHeld, reachesB⟩⟩
    · rintro obeys pid - ⟨⟨left, inLeft, rfl, leftHeld, reachesA⟩,
        ⟨right, inRight, same, rightHeld, reachesB⟩⟩
      have misses := obeys left inLeft right inRight same.symm leftHeld rightHeld reachesA
      exact Bool.false_ne_true (misses.symm.trans reachesB)

theorem violations_eq_nil_iff : policy.violations grants = [] ↔
    ∀ rule ∈ policy.rules.items, policy.Obeys grants rule := by
  simp only [violations, List.flatMap_eq_nil_iff, ruleViolations_eq_nil_iff]

variable {grants}

variable {policy}

/-! ## Comparing grants -/

/-- A grant can break a rule only where another one does, too: same process,
same labels, a permission only if the other has one, an ungated effect only if
the other has one. -/
structure Grant.Under (policy : Policy) (grant above : Grant) : Prop where
  pid : grant.pid = above.pid
  labels : ∀ label, policy.has grant label → policy.has above label
  held : grant.mask ≠ 0 → above.mask ≠ 0
  free : grant.actsFreely → above.actsFreely

/-- Every grant below is under one above. -/
def Covers (policy : Policy) (above below : List Grant) : Prop :=
  ∀ grant ∈ below, ∃ other ∈ above, grant.Under policy other

theorem Grant.Under.refl (policy : Policy) (grant : Grant) : grant.Under policy grant :=
  ⟨rfl, fun _ => id, id, id⟩

variable {above below : List Grant}

theorem covers_of_subset (policy : Policy) (subset : below ⊆ above) : policy.Covers above below :=
  fun grant present => ⟨grant, subset present, .refl policy grant⟩

theorem Covers.obeys {policy : Policy} (covers : policy.Covers above below)
    (obeys : policy.Obeys above rule) : policy.Obeys below rule := by
  have not_has : ∀ {grant other : Grant}, grant.Under policy other →
      ∀ label, policy.has other label = false → policy.has grant label = false := by
    intro grant other under label
    rw [← Bool.not_eq_true, ← Bool.not_eq_true]
    exact mt (under.labels label)
  cases rule with
  | deny label =>
    intro grant present held
    obtain ⟨other, found, under⟩ := covers grant present
    exact not_has under label (obeys other found (under.held held))
  | approval label =>
    intro grant present free
    obtain ⟨other, found, under⟩ := covers grant present
    exact not_has under label (obeys other found (under.free free))
  | separate a b =>
    intro left inLeft right inRight same leftHeld rightHeld reachesA
    obtain ⟨leftOther, leftFound, leftUnder⟩ := covers left inLeft
    obtain ⟨rightOther, rightFound, rightUnder⟩ := covers right inRight
    refine not_has rightUnder b (obeys leftOther leftFound rightOther rightFound
      ?_ (leftUnder.held leftHeld) (rightUnder.held rightHeld)
      (leftUnder.labels a reachesA))
    rw [← leftUnder.pid, ← rightUnder.pid, same]

theorem Covers.violations_eq_nil {policy : Policy}
    (covers : policy.Covers above below) (none : policy.violations above = []) :
    policy.violations below = [] := by
  rw [violations_eq_nil_iff] at none ⊢
  exact fun rule present => covers.obeys (none rule present)

/-- The first object, as labels and staged grants name it. -/
def firstId : Str 32 := ⟨ascii "obj-1", by decide⟩

def objectGrant (digit : UInt8) (mask : UInt64) : Grant where
  pid := 5
  object := ⟨ascii "obj-" ++ [48 + digit], (by decide : 5 ≤ 16)⟩
  kind := ⟨ascii "mailbox", by decide⟩
  flags := 0
  mask := mask

end Policy
end Cdk

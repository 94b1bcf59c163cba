import Cdk.Agent.Permissions
import Cdk.Kernel.Objects
import Mathlib.Data.List.Sort

/-!
# Tokens and handle tables

A process refers to its capability tokens by index in a table of sixteen slots.
The console grants tokens; a process can derive weaker ones and drop what it
holds.  Derivation is the only way a process makes a token, so every token goes
back to a grant: `Backed` says to which, and is kept by every call.
-/

namespace Cdk.Agent

open ByteFormat Link Mask Run Fixed FirstMatch

/-! ## Tokens -/

/-- The only signature scheme of tokens. -/
inductive SignatureAlgorithm where
  | hybridEd25519MlDsa65
  deriving DecidableEq, Repr

def SignatureAlgorithm.byte : SignatureAlgorithm → UInt8
  | .hybridEd25519MlDsa65 => 1

/-- The issuer's signature on a token. -/
structure CapabilityProof where
  format : UInt8
  algorithm : SignatureAlgorithm
  issuerId : Fixed 16
  signature : Signature
  deriving DecidableEq

/-- A capability with its proof; there is none until it is issued. -/
structure Token extends Capability where
  proof : Option CapabilityProof
  deriving DecidableEq

/-- The kernel's issuer. -/
structure Issuer where
  crypto : Crypto
  key : Identity
  /-- Sign a digest under a context. -/
  sign : Bytes → Fixed 32 → Signature

def Issuer.id (issuer : Issuer) : Fixed 16 := issuer.key.id issuer.crypto

def capabilityContext : Bytes := ascii "CDK-CAP-v1"

def tokenFormat : UInt8 := 1

namespace Capability

def sortedTags (capability : Capability) : Bytes :=
  (capability.permissions.map Permission.tag).insertionSort (· ≤ ·)

/-- The bytes that are hashed into the digest of a token. -/
def signableInput (capability : Capability) (format : UInt8) (algorithm : SignatureAlgorithm)
    (issuerId : Fixed 16) : Bytes :=
  ascii "CDK-CAP" ++ ([format, algorithm.byte] ++ (issuerId.bytes ++
    (le16 (UInt16.ofNat capability.objectId.length) ++ (capability.objectId ++
      (UInt8.ofNat capability.sortedTags.length :: capability.sortedTags)))))

def withPermissions (object : Kernel.KernelObject) (permissions : List Permission) : Token where
  objectId := object.id
  permissions := permissions.foldl
    (fun held permission =>
      if held.contains permission then held else held ++ [permission])
    []
  proof := none

end Capability

namespace Token

/-- The issuer's proof of a capability. -/
def proofBy (issuer : Issuer) (capability : Capability) : CapabilityProof where
  format := tokenFormat
  algorithm := .hybridEd25519MlDsa65
  issuerId := issuer.id
  signature := issuer.sign capabilityContext (issuer.crypto.sha256
    (capability.signableInput tokenFormat .hybridEd25519MlDsa65 issuer.id))

def issue (issuer : Issuer) (token : Token) : Token :=
  { token with proof := some (proofBy issuer token.toCapability) }

/-- Why a token cannot be verified. -/
inductive CapabilityError where
  | unsupportedFormat
  | unknownIssuer
  deriving DecidableEq, Repr

/-- Whether the issuer signed the token. -/
def verify (issuer : Issuer) (token : Token) : Except CapabilityError Bool :=
  match token.proof with
  | none => .ok false
  | some proof =>
    if proof.format ≠ tokenFormat then .error .unsupportedFormat
    else if proof.issuerId ≠ issuer.id then .error .unknownIssuer
    else
      .ok (verifyWith issuer.crypto issuer.key
        (issuer.crypto.sha256 (token.signableInput proof.format proof.algorithm proof.issuerId))
        proof.signature capabilityContext)

/-- Add a permission; the proof is void. -/
def addPermission (token : Token) (permission : Permission) : Token :=
  { token with
    permissions :=
      if token.permissions.contains permission then token.permissions
      else token.permissions ++ [permission]
    proof := none }

def removePermission (token : Token) (permission : Permission) : Token :=
  { token with
    permissions := token.permissions.filter (· != permission)
    proof := none }

/-- Remove what the mask does not name. -/
def restrict (token : Token) (mask : UInt64) : Token := allPermissions.foldl
    (fun child permission =>
      if mask &&& permission.bit == 0 then child.removePermission permission
      else child)
    token

end Token

/-! ## Handle tables -/

/-- Why a call on a handle table fails. -/
inductive HandleError where
  | badHandle
  /-- Derivation would add permissions. -/
  | escalation
  | tableFull
  | noProcess
  deriving DecidableEq, Repr

def maxHandles : Nat := 16

/-- The tokens of one process; the table is free if the pid is zero. -/
structure HandleTable where
  pid : UInt32
  caps : List (Option Token)
  size : caps.length = maxHandles
  deriving DecidableEq

namespace HandleTable

def reset (pid : UInt32) : HandleTable :=
  ⟨pid, List.replicate maxHandles none, List.length_replicate⟩

variable (table : HandleTable)

def setSlot (slot : Nat) (content : Option Token) : HandleTable where
  pid := table.pid
  caps := table.caps.set slot content
  size := by rw [List.length_set, table.size]

/-- Put a token into the first free slot. -/
def insert (token : Token) : Except HandleError (HandleTable × Nat) :=
  match table.caps.findIdx? Option.isNone with
  | none => .error .tableFull
  | some slot => .ok (table.setSlot slot (some token), slot)

def get (handle : UInt64) : Except HandleError Token :=
  match table.caps[handle.toNat]? with
  | some (some token) => .ok token
  | _ => .error .badHandle

def remove (handle : UInt64) : Except HandleError (HandleTable × Token) :=
  (table.get handle).map fun token => (table.setSlot handle.toNat none, token)

/-- The unsigned child of a token: only the permissions of the mask, which the
parent must hold, with the approval constraint never dropped. -/
def attenuated (parent : Token) (mask : UInt64) : Except HandleError Token :=
  let parentMask := parent.permissionMask
  if mask &&& ~~~parentMask &&& ~~~approvalBit ≠ 0 then .error .escalation
  else
    let mask := mask ||| (parentMask &&& approvalBit)
    let child := parent.restrict mask
    .ok (if mask &&& approvalBit ≠ 0 then child.addPermission .requiresApproval
      else child)

def attenuate (handle mask : UInt64) : Except HandleError Token :=
  (table.get handle).bind fun parent => attenuated parent mask

end HandleTable

def maxProcesses : Nat := 8

/-- The handle tables of all processes. -/
structure Tables where
  list : List HandleTable
  count : list.length = maxProcesses
  deriving DecidableEq

namespace Tables

def boot : Tables := ⟨List.replicate maxProcesses (.reset 0), List.length_replicate⟩

variable (tables : Tables)

def replace (test : HandleTable → Bool) (table : HandleTable) : Tables where
  list := tables.list.replaceF fun other =>
    if test other then some table else none
  count := by rw [List.length_replaceF, tables.count]

variable (pid : UInt32)

def isOf (table : HandleTable) : Bool := table.pid == pid && pid != 0

/-- Give a process a fresh, empty table. -/
def createTable : Except HandleError Tables :=
  if tables.list.any (·.pid == pid) then
    .ok (tables.replace (·.pid == pid) (.reset pid))
  else if tables.list.any (·.pid == 0) then
    .ok (tables.replace (·.pid == 0) (.reset pid))
  else .error .tableFull

/-- Drop every handle of a process and free its table. -/
def destroyTable : Tables :=
  tables.replace (·.pid == pid) (.reset 0)

/-- Call on the process's table. -/
def withTable (call : HandleTable → Except HandleError (HandleTable × α)) :
    Except HandleError (Tables × α) :=
  match tables.list.find? (isOf pid) with
  | none => .error .noProcess
  | some table =>
    (call table).map fun done => (tables.replace (isOf pid) done.1, done.2)

def handleCap (handle : UInt64) : Except HandleError Token :=
  match tables.list.find? (isOf pid) with
  | none => .error .noProcess
  | some table => table.get handle

/-- Issue a token and store it. -/
def grant (issuer : Issuer) (tables : Tables) (pid : UInt32) (object : Kernel.KernelObject)
    (permissions : List Permission) : Except HandleError (Tables × Nat) :=
  tables.withTable pid fun table =>
    table.insert ((Capability.withPermissions object permissions).issue issuer)

def hasTable : Bool := tables.list.any (isOf pid)

end Tables

/-- No slot of the table is free. -/
def ENOSPC : UInt64 := 6

/-- The error code of a failed call. -/
def handleErrno : HandleError → UInt64
  | .badHandle | .noProcess => EBADH
  | .escalation => EPERM
  | .tableFull => ENOSPC

/-- `cap_drop`. -/
def sysCapDrop (tables : Tables) (pid : UInt32) (handle : UInt64) : Except UInt64 Tables :=
  match tables.withTable pid (HandleTable.remove · handle) with
  | .error error => .error (handleErrno error)
  | .ok (dropped, _) => .ok dropped

/-- The signed child that a derivation stores: the parent must still
verify. -/
def derived (issuer : Issuer) (table : HandleTable)
    (handle mask : UInt64) : Except HandleError Token := do
  let parent ← table.get handle
  if parent.verify issuer ≠ .ok true then .error .badHandle
  let child ← table.attenuate handle mask
  .ok (child.issue issuer)

/-- `cap_derive`. -/
def sysCapDerive (issuer : Issuer) (tables : Tables) (pid : UInt32)
    (handle mask : UInt64) : Except UInt64 (Tables × Nat) :=
  match tables.withTable pid fun table =>
      (derived issuer table handle mask).bind table.insert with
  | .error error => .error (handleErrno error)
  | .ok stored => .ok stored

/-! ## What a derivation keeps -/

namespace Token

@[simp] theorem objectId_restrict (token : Token) (mask : UInt64) :
    (token.restrict mask).objectId = token.objectId := by
  refine List.foldlRecOn (motive := fun child : Token => child.objectId = token.objectId)
    allPermissions _ rfl ?_
  intro child same permission _
  split
  · exact same
  · exact same

theorem mem_restrict (token : Token) (mask : UInt64) (permission : Permission) :
    permission ∈ (token.restrict mask).permissions ↔ permission ∈ token.permissions ∧
        has mask permission.tag.toNat := by
  have folded : ∀ (permissions : List Permission) (child : Token), permission ∈ (permissions.foldl
        (fun child permission =>
          if mask &&& permission.bit == 0 then child.removePermission permission
          else child)
        child).permissions ↔
      permission ∈ child.permissions ∧ (permission ∈ permissions →
          has mask permission.tag.toNat) := by
    intro permissions
    induction permissions with
    | nil => simp
    | cons first rest ih =>
      intro child
      rw [List.foldl_cons, ih, List.mem_cons]
      by_cases set : mask &&& first.bit ≠ 0
      · rw [if_neg (by simpa using set)]
        rw [and_bit_ne_zero_iff] at set
        grind
      · rw [if_pos (by simpa using set)]
        rw [and_bit_ne_zero_iff] at set
        simp only [removePermission, List.mem_filter, bne_iff_ne]
        grind
  rw [restrict, folded]
  simp only [mem_allPermissions, forall_const]

theorem mem_addPermission (token : Token) (added permission : Permission) :
    permission ∈ (token.addPermission added).permissions ↔
      permission ∈ token.permissions ∨ permission = added := by
  simp only [addPermission]
  split
  · rename_i held
    rw [List.contains_iff_mem] at held
    grind
  · simp

end Token

namespace HandleTable

variable (parentMask mask : UInt64)

/-- The mask that a derivation asks for, once it is allowed. -/
def childMask : UInt64 := mask ||| (parentMask &&& approvalBit)

/-- The mask adds nothing to its parent but the approval bit. -/
def Allowed : Prop := mask &&& ~~~parentMask &&& ~~~approvalBit = 0

instance : Decidable (Allowed parentMask mask) :=
  inferInstanceAs (Decidable (_ = _))

theorem allowed_iff : Allowed parentMask mask ↔ ∀ bit, has mask bit →
    has parentMask bit ∨ bit = 7 := by
  rw [Allowed, and_not_eq_zero_iff]
  refine forall_congr' fun bit => ?_
  simp only [has_and_not, has_approvalBit, Bool.and_eq_true,
    Bool.not_eq_true', decide_eq_true_eq, eq_comm (a := 7)]
  cases has mask bit <;> cases has parentMask bit <;> simp

theorem has_childMask (bit : Nat) : has (childMask parentMask mask) bit ↔
    has mask bit ∨ has parentMask bit ∧ bit = 7 := by
  simp only [childMask, has_or, has_and, has_approvalBit,
    Bool.or_eq_true, Bool.and_eq_true, decide_eq_true_eq, eq_comm (a := 7)]

variable {parentMask mask}

theorem mem_child (parent : Token) (mask : UInt64) (permission : Permission) :
    permission ∈ (if mask &&& approvalBit ≠ 0 then
        (parent.restrict mask).addPermission .requiresApproval
      else parent.restrict mask).permissions ↔ has mask permission.tag.toNat ∧
        (permission ∈ parent.permissions ∨ permission = .requiresApproval) := by
  by_cases gated : mask &&& approvalBit ≠ 0
  · rw [if_pos gated, Token.mem_addPermission, Token.mem_restrict]
    rw [and_approvalBit_ne_zero_iff] at gated
    constructor
    · rintro (⟨held, set⟩ | rfl)
      · exact ⟨set, .inl held⟩
      · exact ⟨gated, .inr rfl⟩
    · rintro ⟨set, held | rfl⟩
      · exact .inl ⟨held, set⟩
      · exact .inr rfl
  · rw [if_neg gated, Token.mem_restrict]
    rw [and_approvalBit_ne_zero_iff] at gated
    constructor
    · rintro ⟨held, set⟩
      exact ⟨set, .inl held⟩
    · rintro ⟨set, held | rfl⟩
      · exact ⟨held, set⟩
      · exact absurd set gated

/-- A derivation does not change the object, and the mask of the child is
computed from that of the parent. -/
theorem attenuated_ok (derives : attenuated parent mask = .ok child) :
    child.objectId = parent.objectId ∧ Allowed parent.permissionMask mask ∧
      child.permissionMask = childMask parent.permissionMask mask := by
  simp only [attenuated] at derives
  split at derives
  · cases derives
  rename_i allowed
  rw [not_not] at allowed
  cases derives
  refine ⟨?_, allowed, ?_⟩
  · split
    · exact Token.objectId_restrict _ _
    · exact Token.objectId_restrict _ _
  apply Mask.ext
  intro bit
  rw [Bool.eq_iff_iff, Capability.permissionMask, has_maskOf]
  constructor
  · rintro ⟨permission, present, rfl⟩
    exact ((mem_child _ _ _).mp present).1
  intro set
  rcases (has_childMask _ _ _).mp set with asked | ⟨-, rfl⟩
  · rcases (allowed_iff _ _).mp allowed bit asked with held | rfl
    · obtain ⟨permission, present, rfl⟩ := (has_maskOf _ _).mp held
      exact ⟨permission, (mem_child _ _ _).mpr ⟨set, .inl present⟩, rfl⟩
    · exact ⟨.requiresApproval, (mem_child _ _ _).mpr ⟨set, .inr rfl⟩, rfl⟩
  · exact ⟨.requiresApproval, (mem_child _ _ _).mpr ⟨set, .inr rfl⟩, rfl⟩

/-! ## What the calls do to the tables -/

theorem mem_of_get {table : HandleTable} (held : table.get handle = .ok token) :
    some token ∈ table.caps := by
  unfold get at held
  split at held
  · rename_i found
    cases held
    exact List.mem_of_getElem? found
  · cases held

theorem not_mem_reset (pid : UInt32) (token : Token) : some token ∉ (reset pid).caps := by
  intro present
  have nothing := List.eq_of_mem_replicate present
  cases nothing

theorem insert_ok {table inserted : HandleTable}
    (fits : table.insert token = .ok (inserted, slot)) :
    inserted.pid = table.pid ∧
      ∀ other, some other ∈ inserted.caps → some other ∈ table.caps ∨ other = token := by
  unfold insert at fits
  split at fits
  · cases fits
  cases fits
  refine ⟨rfl, ?_⟩
  intro other present
  rcases List.mem_or_eq_of_mem_set present with kept | same
  · exact .inl kept
  · exact .inr (Option.some.inj same)

theorem remove_ok {table left : HandleTable} (removes : table.remove handle = .ok (left, token)) :
    left.pid = table.pid ∧ ∀ other, some other ∈ left.caps → some other ∈ table.caps := by
  unfold remove at removes
  cases got : table.get handle with
  | error error =>
    rw [got] at removes
    cases removes
  | ok held =>
    rw [got] at removes
    cases removes
    refine ⟨rfl, ?_⟩
    intro other present
    rcases List.mem_or_eq_of_mem_set present with kept | same
    · exact kept
    · cases same

end HandleTable

open HandleTable

namespace Tables

variable {tables changed : Tables} {pid : UInt32}

theorem withTable_found (done : tables.withTable pid call = .ok (changed, result)) :
    ∃ table new, tables.list.find? (isOf pid) = some table ∧ call table = .ok (new, result) ∧
      changed = tables.replace (isOf pid) new := by
  unfold withTable at done
  split at done
  · cases done
  rename_i table found
  cases called : call table with
  | error error =>
    rw [called] at done
    cases done
  | ok made =>
    rw [called] at done
    cases done
    exact ⟨table, made.1, found, called, rfl⟩

theorem pid_of_find {tables : List HandleTable} (found : tables.find? (isOf pid) = some table) :
    table.pid = pid ∧ pid ≠ 0 := by
  have is := List.find?_some found
  simpa only [isOf, Bool.and_eq_true, beq_iff_eq, bne_iff_ne] using is

theorem withTable_ok (done : tables.withTable pid call = .ok (changed, result)) :
    ∃ early table late new, tables.list = early ++ table :: late ∧
      table.pid = pid ∧ pid ≠ 0 ∧ call table = .ok (new, result) ∧
      changed.list = early ++ new :: late := by
  obtain ⟨table, new, found, called, rfl⟩ := withTable_found done
  obtain ⟨early, late, split, replaced⟩ := replaceF_of_find (fun _ => new) found
  obtain ⟨own, live⟩ := pid_of_find found
  exact ⟨early, table, late, new, split, own, live, called, replaced⟩

/-- After a call on the table of a process every token is an old one of the same
process, or one that the call put there. -/
theorem origin_of_withTable {added : Token → Prop}
    (done : tables.withTable pid call = .ok (changed, result))
    (keeps : ∀ table new, tables.list.find? (isOf pid) = some table →
      call table = .ok (new, result) → new.pid = table.pid ∧ ∀ token, some token ∈ new.caps →
          some token ∈ table.caps ∨ added token) :
    ∀ table ∈ changed.list, ∀ token, some token ∈ table.caps →
      (∃ old ∈ tables.list, old.pid = table.pid ∧ some token ∈ old.caps) ∨
        table.pid = pid ∧ pid ≠ 0 ∧ added token := by
  obtain ⟨table, new, found, called, rfl⟩ := withTable_found done
  obtain ⟨samePid, tokens⟩ := keeps table new found called
  obtain ⟨own, live⟩ := pid_of_find found
  obtain ⟨early, late, before, after⟩ := replaceF_of_find (fun _ => new) found
  intro other listed token held
  have kept : other ∈ early ∨ other ∈ late → other ∈ tables.list := by
    rw [before, List.mem_append, List.mem_cons]
    exact Or.imp id .inr
  change other ∈ List.replaceF _ _ at listed
  rw [after, List.mem_append, List.mem_cons] at listed
  rcases listed with first | rfl | last
  · exact .inl ⟨other, kept (.inl first), rfl, held⟩
  · rw [samePid, own]
    refine (tokens token held).imp ?_ ?_
    · exact fun old => ⟨table, List.mem_of_find?_eq_some found, own, old⟩
    · exact fun new => ⟨rfl, live, new⟩
  · exact .inl ⟨other, kept (.inr last), rfl, held⟩

theorem replace_cases (tables : Tables) (test : HandleTable → Bool) (new : HandleTable) :
    (tables.list.any test = false ∧ (tables.replace test new).list = tables.list) ∨
      ∃ early old late, tables.list = early ++ old :: late ∧ test old ∧
        (tables.replace test new).list = early ++ new :: late := by
  cases found : tables.list.find? test with
  | none =>
    refine .inl ⟨?_, replaceF_of_find_none (fun _ => new) found⟩
    rwa [List.any_eq_false, ← List.find?_eq_none]
  | some old =>
    obtain ⟨early, late, split, replaced⟩ := replaceF_of_find (fun _ => new) found
    exact .inr ⟨early, old, late, split, List.find?_some found, replaced⟩

end Tables

/-! ## Runs -/

/-- What the history remembers. -/
inductive HandleEvent where
  | created (pid : UInt32)
  | granted (pid : UInt32) (object : Bytes) (mask : UInt64)
  deriving DecidableEq

/-- The handle tables with their history. -/
structure Custody where
  tables : Tables
  log : List HandleEvent
  deriving DecidableEq

def Custody.boot : Custody := ⟨.boot, []⟩

/-- A call on the handle tables. -/
inductive HandleCall where
  | createTable (pid : UInt32)
  | grant (pid : UInt32) (object : Kernel.KernelObject) (permissions : List Permission)
  | capDerive (pid : UInt32) (handle mask : UInt64)
  | capDrop (pid : UInt32) (handle : UInt64)
  | destroyTable (pid : UInt32)

/-- Make a call and note what happened. -/
def Custody.step (issuer : Issuer) (custody : Custody) : HandleCall → Custody
  | .createTable pid =>
    match custody.tables.createTable pid with
    | .error _ => custody
    | .ok tables => ⟨tables, custody.log ++ [.created pid]⟩
  | .grant pid object permissions =>
    match custody.tables.grant issuer pid object permissions with
    | .error _ => custody
    | .ok (tables, _) =>
      ⟨tables, custody.log ++ [.granted pid object.id
        (Capability.withPermissions object permissions).permissionMask]⟩
  | .capDerive pid handle mask =>
    match sysCapDerive issuer custody.tables pid handle mask with
    | .error _ => custody
    | .ok (tables, _) => { custody with tables }
  | .capDrop pid handle =>
    match sysCapDrop custody.tables pid handle with
    | .error _ => custody
    | .ok tables => { custody with tables }
  | .destroyTable pid =>
    { custody with tables := custody.tables.destroyTable pid }

/-- The grant happened, and the process has not been given another table
since. -/
def GrantedSince (log : List HandleEvent) (pid : UInt32) (object : Bytes) (mask : UInt64) : Prop :=
  ∃ early late, log = early ++ .granted pid object mask :: late ∧ HandleEvent.created pid ∉ late

/-- The mask has no permission that was not granted, and the approval
constraint if the grant had it. -/
structure Within (mask granted : UInt64) : Prop where
  effect : mask &&& ~~~approvalBit &&& ~~~granted = 0
  gate : granted &&& approvalBit ≠ 0 → mask &&& approvalBit ≠ 0

/-- The token is within a grant that its process has had since. -/
def Backed (log : List HandleEvent) (pid : UInt32) (token : Token) : Prop :=
  ∃ granted, GrantedSince log pid token.objectId granted ∧ Within token.permissionMask granted

/-- The token carries the issuer's proof for what it is now. -/
structure Covered (issuer : Issuer) (token : Token) : Prop where
  proof : token.proof = some (Token.proofBy issuer token.toCapability)
  short : token.objectId.length ≤ Kernel.maxId

variable {pid : UInt32}

theorem Within.refl (mask : UInt64) : Within mask mask where
  effect := by
    rw [and_not_eq_zero_iff]
    intro bit set
    simp only [has_and_not, Bool.and_eq_true] at set
    exact set.1
  gate := id

theorem Within.childMask (within : Within parentMask granted)
    (allowed : HandleTable.Allowed parentMask mask) :
    Within (childMask parentMask mask) granted where
  effect := by
    have effect := (and_not_eq_zero_iff _ _).mp within.effect
    rw [and_not_eq_zero_iff]
    intro bit set
    simp only [has_and_not, has_approvalBit, Bool.and_eq_true,
      has_childMask, Bool.not_eq_true', decide_eq_false_iff_not] at set
    apply effect
    simp only [has_and_not, has_approvalBit, Bool.and_eq_true,
      Bool.not_eq_true', decide_eq_false_iff_not]
    refine ⟨?_, set.2⟩
    rcases set.1 with asked | ⟨held, _⟩
    · rcases (allowed_iff _ _).mp allowed bit asked with held | rfl
      · exact held
      · exact absurd rfl set.2
    · exact held
  gate := by
    intro gated
    have parentGated := within.gate gated
    rw [and_approvalBit_ne_zero_iff] at parentGated ⊢
    exact (has_childMask _ _ _).mpr (.inr ⟨parentGated, rfl⟩)

theorem Backed.append (backed : Backed log pid token) (other : event ≠ .created pid) :
    Backed (log ++ [event]) pid token := by
  obtain ⟨granted, ⟨early, late, rfl, none⟩, within⟩ := backed
  refine ⟨granted, ⟨early, late ++ [event], by simp, ?_⟩, within⟩
  rw [List.mem_append, List.mem_singleton]
  rintro (before | same)
  · exact none before
  · exact other same.symm

theorem derived_ok (derives : derived issuer table handle mask = .ok stored) :
    ∃ parent child, table.get handle = .ok parent ∧ attenuated parent mask = .ok child ∧
      stored = child.issue issuer := by
  simp only [derived, attenuate] at derives
  cases got : table.get handle with
  | error error =>
    rw [got] at derives
    cases derives
  | ok parent =>
    simp only [got, bind, Except.bind] at derives
    split at derives
    · cases derives
    cases attenuates : attenuated parent mask with
    | error error =>
      rw [attenuates] at derives
      cases derives
    | ok child =>
      rw [attenuates] at derives
      cases derives
      exact ⟨parent, child, rfl, attenuates, rfl⟩

theorem Backed.derived (backed : Backed log pid parent)
    (attenuates : attenuated parent mask = .ok child) : Backed log pid child := by
  obtain ⟨granted, since, within⟩ := backed
  obtain ⟨object, allowed, masks⟩ := attenuated_ok attenuates
  refine ⟨granted, ?_, ?_⟩
  · rwa [object]
  · rw [masks]
    exact within.childMask allowed

/-- What holds of the tables at any time. -/
structure Custody.Sound (issuer : Issuer) (custody : Custody) : Prop where
  /-- Free tables are empty, and every token is backed and covered. -/
  backed : ∀ table ∈ custody.tables.list, ∀ token, some token ∈ table.caps →
    table.pid ≠ 0 ∧ Backed custody.log table.pid token ∧ Covered issuer token
  /-- No process has two tables. -/
  distinct : custody.tables.list.Pairwise fun left right =>
    left.pid = right.pid → left.pid = 0

namespace Custody

variable {issuer : Issuer} {custody : Custody}

theorem sound_boot (issuer : Issuer) : Sound issuer boot where
  backed := by
    intro table present token held
    rw [List.eq_of_mem_replicate present] at held
    exact absurd held (not_mem_reset 0 token)
  distinct := by
    refine List.pairwise_iff_forall_sublist.mpr ?_
    intro left right inside _
    rw [List.eq_of_mem_replicate (inside.subset List.mem_cons_self)]
    rfl

variable {tables : Tables}

section

variable (sound : Sound issuer custody)
include sound

/-- A call on the table of a process keeps the invariant if every token it puts
there is backed and covered. -/
theorem Sound.withTable {result : α} {log : List HandleEvent}
    (longer : ∀ pid token, Backed custody.log pid token → Backed log pid token)
    (keeps : ∀ table new, table ∈ custody.tables.list → table.pid = pid →
      call table = .ok (new, result) → new.pid = table.pid ∧
        ∀ token, some token ∈ new.caps →
          some token ∈ table.caps ∨ Backed log pid token ∧ Covered issuer token)
    (done : custody.tables.withTable pid call = .ok (tables, result)) :
    Sound issuer ⟨tables, log⟩ := by
  obtain ⟨early, table, late, new, before, own, -, called, after⟩ := Tables.withTable_ok done
  have present : table ∈ custody.tables.list := by
    rw [before]
    exact List.mem_append_right _ List.mem_cons_self
  have samePid := (keeps table new present own called).1
  constructor
  · intro other listed token held
    have origin := Tables.origin_of_withTable done fun table new found called =>
      keeps table new (List.mem_of_find?_eq_some found) (Tables.pid_of_find found).1 called
    rcases origin other listed token held with
      ⟨old, oldPresent, same, oldHeld⟩ | ⟨same, live, backed, covered⟩
    · obtain ⟨nonzero, backed, covered⟩ := sound.backed old oldPresent token oldHeld
      exact ⟨same ▸ nonzero, longer _ _ (same ▸ backed), covered⟩
    · exact ⟨same ▸ live, same ▸ backed, covered⟩
  · have distinct := sound.distinct
    rw [before] at distinct
    rw [after]
    have related := distinct
    rw [List.pairwise_append, List.pairwise_cons] at related
    refine pairwise_exchange distinct ?_ ?_
    · intro other first
      rw [samePid]
      exact related.2.2 other first table List.mem_cons_self
    · intro other last
      rw [samePid]
      exact related.2.1.1 other last

theorem Sound.reset {log : List HandleEvent} {early late : List HandleTable} {old : HandleTable}
    (before : custody.tables.list = early ++ old :: late)
    (after : tables.list = early ++ .reset pid :: late)
    (fresh : ∀ other, other ∈ early ∨ other ∈ late → other.pid = pid → pid = 0)
    (longer : ∀ other, other ∈ early ∨ other ∈ late → other.pid ≠ 0 →
      ∀ token, Backed custody.log other.pid token → Backed log other.pid token) :
    Sound issuer ⟨tables, log⟩ := by
  constructor
  · intro other listed token held
    have kept : other ∈ early ∨ other ∈ late → other.pid ≠ 0 ∧
        Backed log other.pid token ∧ Covered issuer token := by
      intro beside
      have old : other ∈ custody.tables.list := by
        rw [before, List.mem_append, List.mem_cons]
        exact beside.imp id .inr
      obtain ⟨nonzero, backed, covered⟩ := sound.backed other old token held
      exact ⟨nonzero, longer other beside nonzero token backed, covered⟩
    rw [after, List.mem_append, List.mem_cons] at listed
    rcases listed with first | rfl | last
    · exact kept (.inl first)
    · exact absurd held (not_mem_reset pid token)
    · exact kept (.inr last)
  · have distinct := sound.distinct
    rw [before] at distinct
    rw [after]
    refine pairwise_exchange distinct ?_ ?_
    · intro other first same
      exact same.trans (fresh other (.inl first) same)
    · intro other last same
      exact fresh other (.inr last) same.symm

theorem Sound.createTable (created : custody.tables.createTable pid = .ok tables) :
    Sound issuer ⟨tables, custody.log ++ [.created pid]⟩ := by
  -- Whichever table is taken, no other one has the pid.
  obtain ⟨early, old, late, before, after, fresh⟩ :
      ∃ early old late, custody.tables.list = early ++ old :: late ∧
        tables.list = early ++ .reset pid :: late ∧
        ∀ other, other ∈ early ∨ other ∈ late → other.pid = pid → pid = 0 := by
    have distinct := sound.distinct
    unfold Tables.createTable at created
    split at created
    · rename_i known
      cases created
      rcases custody.tables.replace_cases (·.pid == pid) (.reset pid) with
        ⟨absent, -⟩ | ⟨early, old, late, before, same, after⟩
      · cases absent.symm.trans known
      · refine ⟨early, old, late, before, after, ?_⟩
        rw [before, List.pairwise_append, List.pairwise_cons] at distinct
        rw [beq_iff_eq] at same
        subst same
        rintro other (first | last) equal
        · exact equal ▸ distinct.2.2 other first old List.mem_cons_self equal
        · exact distinct.2.1.1 other last equal.symm
    · rename_i unknown
      split at created
      · rename_i free
        cases created
        rcases custody.tables.replace_cases (·.pid == 0) (.reset pid) with
          ⟨absent, -⟩ | ⟨early, old, late, before, -, after⟩
        · cases absent.symm.trans free
        · refine ⟨early, old, late, before, after, ?_⟩
          intro other beside same
          have listed : other ∈ custody.tables.list := by
            rw [before, List.mem_append, List.mem_cons]
            exact beside.imp id .inr
          exact absurd (List.any_eq_true.mpr ⟨other, listed, by simpa using same⟩) unknown
      · cases created
  refine sound.reset before after fresh ?_
  intro other beside nonzero token backed
  refine backed.append ?_
  intro same
  have equal : pid = other.pid := by injection same
  exact nonzero (equal ▸ fresh other beside equal.symm)

theorem Sound.destroyTable (pid : UInt32) :
    Sound issuer { custody with tables := custody.tables.destroyTable pid } := by
  rcases custody.tables.replace_cases (·.pid == pid) (.reset 0) with
    ⟨-, unchanged⟩ | ⟨early, old, late, before, -, after⟩
  · constructor
    · intro table present
      exact sound.backed table (unchanged ▸ present)
    · exact unchanged.symm ▸ sound.distinct
  · exact sound.reset before after (fun _ _ _ => rfl) fun _ _ _ _ backed => backed

theorem Sound.grant {object : Kernel.KernelObject} {permissions : List Permission}
    (granted : custody.tables.grant issuer pid object permissions = .ok (tables, slot)) :
    Sound issuer ⟨tables, custody.log ++ [.granted pid object.id
      (Capability.withPermissions object permissions).permissionMask]⟩ := by
  refine sound.withTable ?_ ?_ granted
  · intro other token backed
    exact backed.append (by simp)
  intro table new _ _ inserted
  obtain ⟨samePid, tokens⟩ := insert_ok inserted
  refine ⟨samePid, ?_⟩
  intro token held
  refine (tokens token held).imp id ?_
  rintro rfl
  exact ⟨⟨_, ⟨custody.log, [], rfl, List.not_mem_nil⟩, .refl _⟩, ⟨rfl, object.idFits⟩⟩

theorem Sound.capDerive {handle mask : UInt64} {slot : Nat}
    (derives : sysCapDerive issuer custody.tables pid handle mask = .ok (tables, slot)) :
    Sound issuer { custody with tables } := by
  unfold sysCapDerive at derives
  split at derives
  · cases derives
  rename_i stored done
  cases derives
  refine sound.withTable (fun _ _ backed => backed) ?_ done
  rintro table new present rfl called
  cases made : derived issuer table handle mask with
  | error error =>
    rw [made] at called
    cases called
  | ok token =>
    rw [made] at called
    obtain ⟨newPid, tokens⟩ := insert_ok called
    refine ⟨newPid, ?_⟩
    intro other held
    refine (tokens other held).imp id ?_
    rintro rfl
    obtain ⟨parent, child, got, attenuates, rfl⟩ := derived_ok made
    obtain ⟨-, backed, covered⟩ := sound.backed table present parent (mem_of_get got)
    have childBacked : Backed custody.log table.pid child := backed.derived attenuates
    have sameObject := (attenuated_ok attenuates).1
    exact ⟨childBacked, rfl, sameObject ▸ covered.short⟩

theorem Sound.capDrop {handle : UInt64}
    (drops : sysCapDrop custody.tables pid handle = .ok tables) :
    Sound issuer { custody with tables } := by
  unfold sysCapDrop at drops
  split at drops
  · cases drops
  rename_i dropped token done
  cases drops
  refine sound.withTable (fun _ _ backed => backed) ?_ done
  intro table new _ _ removed
  obtain ⟨samePid, tokens⟩ := remove_ok removed
  exact ⟨samePid, fun token held => .inl (tokens token held)⟩

theorem Sound.step (call : HandleCall) : Sound issuer (custody.step issuer call) := by
  cases call with
  | createTable pid =>
    simp only [Custody.step]
    split
    · exact sound
    · exact sound.createTable ‹_›
  | grant pid object permissions =>
    simp only [Custody.step]
    split
    · exact sound
    · exact sound.grant ‹_›
  | capDerive pid handle mask =>
    simp only [Custody.step]
    split
    · exact sound
    · exact sound.capDerive ‹_›
  | capDrop pid handle =>
    simp only [Custody.step]
    split
    · exact sound
    · exact sound.capDrop ‹_›
  | destroyTable pid => exact sound.destroyTable pid

end

theorem sound_after (issuer : Issuer) (calls : List HandleCall) :
    Sound issuer (after (Custody.step issuer) boot calls) :=
  always calls (sound_boot issuer) fun _ call sound => sound.step call

end Custody

/-! ## No amplification -/

theorem Capability.sortedTags_perm (capability : Capability) :
    capability.sortedTags.Perm (capability.permissions.map Permission.tag) :=
  List.perm_insertionSort _ _

/-- The signed bytes determine the object and the set of permissions. -/
theorem Capability.signableInput_inj {left right : Capability}
    (leftShort : left.objectId.length ≤ Kernel.maxId)
    (rightShort : right.objectId.length ≤ Kernel.maxId)
    (equal : left.signableInput format algorithm issuerId =
      right.signableInput format algorithm issuerId) : left.objectId = right.objectId ∧
      left.permissionMask = right.permissionMask := by
  replace equal := List.append_cancel_left (List.append_cancel_left (List.append_cancel_left equal))
  obtain ⟨counts, equal⟩ := List.append_inj equal (by simp)
  have lengths := congrArg (fun bytes => UInt16.ofNat (leValue bytes)) counts
  simp only [ofNat_leValue_le16] at lengths
  have sameLength : left.objectId.length = right.objectId.length := by
    have toNat := congrArg UInt16.toNat lengths
    have wide : Kernel.maxId < UInt16.size := by decide
    rwa [UInt16.toNat_ofNat_of_lt' (leftShort.trans_lt wide),
      UInt16.toNat_ofNat_of_lt' (rightShort.trans_lt wide)] at toNat
  obtain ⟨objects, tails⟩ := List.append_inj equal sameLength
  obtain ⟨-, tags⟩ := List.cons.inj tails
  refine ⟨objects, (maskOf_eq_maskOf_iff _ _).mpr ?_⟩
  intro permission
  have sameTags : (left.permissions.map Permission.tag).Perm
      (right.permissions.map Permission.tag) := by
    refine left.sortedTags_perm.symm.trans ?_
    rw [tags]
    exact right.sortedTags_perm
  rw [← List.mem_map_of_injective tag_injective, sameTags.mem_iff,
    List.mem_map_of_injective tag_injective]

/-- No authority amplification.  In every state that calls can reach, each live
handle goes back to a grant to the same process, on the same object and since
its table was created, whose permissions it does not exceed and whose approval
constraint it keeps; and its proof is for its present object and permissions,
which the signed bytes determine. -/
theorem no_authority_amplification
    (issuer : Issuer)
    (calls : List HandleCall)
    (table : HandleTable)
    (present : table ∈ (after (Custody.step issuer) .boot calls).tables.list)
    (handle : UInt64)
    (token : Token)
    (live : table.get handle = .ok token) :
    table.pid ≠ 0 ∧
    (∃ granted, GrantedSince (after (Custody.step issuer) .boot calls).log table.pid
        token.objectId granted ∧ token.permissionMask &&& ~~~approvalBit &&& ~~~granted = 0 ∧
      (granted &&& approvalBit ≠ 0 → token.permissionMask &&& approvalBit ≠ 0)) ∧
    token.proof = some (Token.proofBy issuer token.toCapability) ∧
    ∀ other : Capability, other.objectId.length ≤ Kernel.maxId →
      other.signableInput tokenFormat .hybridEd25519MlDsa65 issuer.id =
        token.signableInput tokenFormat .hybridEd25519MlDsa65 issuer.id →
      other.objectId = token.objectId ∧ other.permissionMask = token.permissionMask := by
  obtain ⟨nonzero, ⟨granted, since, within⟩, covered⟩ :=
    (Custody.sound_after issuer calls).backed table present token (mem_of_get live)
  refine ⟨nonzero, ⟨granted, since, within.effect, within.gate⟩, covered.proof, ?_⟩
  intro other short equal
  exact Capability.signableInput_inj short covered.short equal

/-- An issuer whose signatures are taken as given. -/
def sampleIssuer : Issuer where
  crypto := sampleCrypto
  key := ⟨replicate 32 1, replicate 1952 2⟩
  sign _ _ := ⟨replicate 64 0, replicate 3309 0⟩

theorem sampleObject_idFits : (ascii "obj-1").length ≤ Kernel.maxId := by decide

def sampleObject : Kernel.KernelObject where
  id := ascii "obj-1"
  idFits := sampleObject_idFits
  kind := ascii "mailbox"
  queue := .empty

/-- Process 5 is granted `send,recv` and derives a gated `send`. -/
def sampleCalls : List HandleCall :=
  [.createTable 5, .grant 5 sampleObject [.sendMessage, .receiveMessage], .capDerive 5 0 144]

theorem no_authority_amplification_derived :
    ∃ table ∈ (after (Custody.step sampleIssuer) .boot sampleCalls).tables.list,
      ∃ token, table.get 1 = .ok token ∧ token.permissionMask = 144 ∧ ∃ granted, GrantedSince
          (after (Custody.step sampleIssuer) .boot sampleCalls).log
          table.pid token.objectId granted ∧
          (144 : UInt64) &&& ~~~approvalBit &&& ~~~granted = 0 := by
  obtain ⟨table, present, token, live, mask⟩ :
      ∃ table ∈ (after (Custody.step sampleIssuer) .boot
        sampleCalls).tables.list, ∃ token, table.get 1 = .ok token ∧
        token.permissionMask = 144 := by
    have run : ((after (Custody.step sampleIssuer) .boot
        sampleCalls).tables.list.any fun table =>
          match table.get 1 with
          | .ok token => token.permissionMask == 144
          | .error _ => false) := by
      decide +kernel
    obtain ⟨table, present, found⟩ := List.any_eq_true.mp run
    split at found
    · rename_i token live
      exact ⟨table, present, token, live, beq_iff_eq.mp found⟩
    · cases found
  obtain ⟨-, ⟨granted, since, effect, -⟩, -⟩ := no_authority_amplification
    sampleIssuer sampleCalls table present 1 token live
  exact ⟨table, present, token, live, mask, granted, since, mask ▸ effect⟩

end Cdk.Agent

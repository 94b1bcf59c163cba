import Cdk.Console.Compliance
import Cdk.Peer.Export

/-!
# Importing a delegation

`capImport` grants a process what another node has delegated: the capability is checked, an
object stands in for the peer's, and the grant is proposed, reviewed and stored.  On the way the
mask is computed four times, on two machines.  `delegation_never_amplifies`: nothing is added
but the approval gate, and the gate is never lost.
-/

namespace Cdk
namespace Kernel

def maxObjects : Nat := 16

/-- Register an object, if there is room.  Ids are counted up, so a new object
has a new one. -/
def Objects.register (objects : Objects) (object : KernelObject) : Objects :=
  if fits : object.id ∉ objects.list.map KernelObject.id ∧
      objects.list.length < maxObjects then
    { list := objects.list ++ [object]
      distinct := by
        rw [List.map_append, List.map_singleton, List.nodup_append]
        refine ⟨objects.distinct, List.nodup_singleton _, ?_⟩
        intro known listed new isNew
        rw [List.mem_singleton] at isNew
        exact fun same => fits.1 (isNew ▸ same ▸ listed) }
  else objects

end Kernel

namespace Console

open ByteFormat BoundedText Link Agent Policy Peer Mask

/-! ## The command -/

/-- The system with an object that stands in for a peer's, under a new id unless
there is one already. -/
def System.withProxy (system : System) (proxy : Bytes) (fresh : Str 64) : System :=
  if (system.objects.findByName proxy).isSome then system
  else
    { system with
      objects := system.objects.register ⟨fresh.text, fresh.fits, proxy, .empty⟩
      intentOf := fun id =>
        if id = fresh.text then ascii "peer" else system.intentOf id }

/-- How an import ends. -/
inductive ImportResult where
  | refused (refusal : Refusal)
  | notProposed (error : ProposalError)
  | notApproved
  | notRecorded (why : String)
  | granted
  deriving DecidableEq

/-- The grant that is proposed for an accepted capability.  The proxy's name has
at most 32 bytes and the permissions' names at most 48, so nothing is cut. -/
def stagedImport (pid : UInt32) (accepted : Accepted) : Staged where
  pid := pid
  object := .truncate 32 accepted.proxy
  permissions := .truncate 48 (permissionNames accepted.mask)

/-- What an import reads besides the state. -/
structure ImportRun where
  setting : Setting
  outcome : WriteOutcome
  asking : Policy.Asking
  fresh : Str 64
  pid : UInt32
  delivered : Bytes

/-- Grant what a check has accepted: there is an object to hold, the review lets
the grant through, and the import is recorded. -/
def grantImported (issuer : Issuer) (system : System) (run : ImportRun)
    (checked : Desk × Except Refusal Accepted) : System × Desk × ImportResult :=
  match checked.2 with
  | .error refusal => (system, checked.1, .refused refusal)
  | .ok accepted =>
    let system := system.withProxy accepted.proxy run.fresh
    match proposedGrant system (stagedImport run.pid accepted) with
    | .error error => (system, checked.1, .notProposed error)
    | .ok proposal =>
      match reviewGrants issuer.crypto system.surroundings
        system.currentGrants [proposal.grant] run.asking with
      | .applied _ =>
        let marked := markImported checked.1 accepted run.outcome
        match marked.2 with
        | .error why => (system, marked.1, .notRecorded why)
        | .ok () =>
          (system.withTables (applyGrant issuer system.objects
            system.tables proposal), marked.1, .granted)
      | _ => (system, checked.1, .notApproved)

/-- Check a delegation and grant it. -/
def capImport (issuer : Issuer) (system : System) (desk : Desk)
    (run : ImportRun) : System × Desk × ImportResult :=
  grantImported issuer system run (checkImport issuer.crypto run.setting
    system.policy.trusted desk run.delivered)

/-! ## The mask on its way -/

/-- What is granted of an offer: the trusted part, gated if either side asks for
it. -/
theorem has_grantMask {offered trusted mask : UInt64}
    (granted : grantMask offered trusted = some mask) (bit : Nat) : Mask.has mask bit ↔
      if bit = 7 then Mask.has offered 7 ∨ Mask.has trusted 7
      else Mask.has offered bit ∧ Mask.has trusted bit := by
  simp only [grantMask] at granted
  split at granted
  · cases granted
    rw [has_or, has_and_not, has_and, has_and, has_or, Peer.has_approvalBit]
    split
    · rename_i approval
      subst approval
      simp
    · rename_i other
      simp [Ne.symm other]
  · cases granted

theorem exists_has_grantMask {offered trusted mask : UInt64}
    (granted : grantMask offered trusted = some mask) :
    ∃ bit, bit ≠ 7 ∧ Mask.has mask bit := by
  have spec := has_grantMask granted
  simp only [grantMask] at granted
  split at granted
  · rename_i effect
    rw [bne_iff_ne, ne_zero_iff] at effect
    obtain ⟨bit, set⟩ := effect
    rw [has_and_not, has_and, Peer.has_approvalBit] at set
    simp only [Bool.and_eq_true, Bool.not_eq_true', decide_eq_false_iff_not] at set
    refine ⟨bit, Ne.symm set.2, (spec bit).mpr ?_⟩
    rw [if_neg (Ne.symm set.2)]
    exact set.1
  · cases granted

variable {system : System}

theorem maskOf_of_stagedImport (known : ∀ bit, Mask.has accepted.mask bit → 1 ≤ bit ∧ bit ≤ 7)
    (nonzero : accepted.mask ≠ 0)
    (resolves : proposedGrant system (stagedImport pid accepted) = .ok proposal) :
    proposal.pid = pid ∧ maskOf proposal.permissions = accepted.mask := by
  obtain ⟨samePid, parsed⟩ := permissions_of_proposedGrant resolves
  have named := parsePermissions_permissionNames (permissionsIn_ne_nil known nonzero)
  have whole : (stagedImport pid accepted).permissions.text = permissionNames accepted.mask :=
    Str.text_truncate_of_le (length_namesOf _)
  have written : (permissionNames accepted.mask).isEmpty = false := by
    rw [← Bool.not_eq_true, List.isEmpty_iff]
    intro empty
    rw [empty] at named
    cases named
  rw [whole, written, if_neg Bool.false_ne_true, named, Option.some.injEq] at parsed
  rw [← parsed, maskOf_permissionsIn known]
  exact ⟨samePid, rfl⟩

theorem tables_capImport
    (checked : (checkImport issuer.crypto run.setting system.policy.trusted desk
      run.delivered).2 = .ok accepted) :
    (capImport issuer system desk run).1.tables = system.tables ∨ ∃ proposal,
        proposedGrant (system.withProxy accepted.proxy run.fresh)
          (stagedImport run.pid accepted) = .ok proposal ∧
        (capImport issuer system desk run).1.tables =
          applyGrant issuer (system.withProxy accepted.proxy run.fresh).objects
            system.tables proposal := by
  have unchanged : (system.withProxy accepted.proxy run.fresh).tables = system.tables := by
    unfold System.withProxy
    split <;> rfl
  simp only [capImport, grantImported, checked]
  split
  · exact .inl unchanged
  rename_i proposal resolves
  split
  · split
    · exact .inl unchanged
    · exact .inr ⟨proposal, resolves, by rw [System.withTables, unchanged]⟩
  · exact .inl unchanged

/-- A process with a mask on its handle delegates it, and a process of the other
node gets a handle.  Beside the gate the new mask is not empty and lies within
the old one and within what the policy trusts the node with; the gate is there
if the old mask, the request or a trust asks for it; and the mask survives being
written as names and read again, so that every token that is added has it. -/
theorem delegation_never_amplifies
    (boot : Boot)
    (tables : Tables)
    (objects : Kernel.Objects)
    (request : ExportRequest)
    (random exports : UInt64)
    (draft : PortableCap)
    (prepared : prepareExport boot tables objects request random exports = .ok draft)
    (issuer : Issuer)
    (system : System)
    (desk : Desk)
    (run : ImportRun)
    (now : UInt64)
    (delivered : run.delivered = le64 now ++ (signExport boot draft).encode)
    (accepted : Accepted)
    (checked : (checkImport issuer.crypto run.setting system.policy.trusted desk
      run.delivered).2 = .ok accepted) :
    ∃ held, tables.handleCap request.pid request.handle = .ok held ∧
      accepted.mask &&& ~~~Agent.approvalBit ≠ 0 ∧
      accepted.mask &&& ~~~Agent.approvalBit &&& ~~~held.permissionMask = 0 ∧
      accepted.mask &&& ~~~Agent.approvalBit &&&
        ~~~system.policy.trusted draft.cert.name draft.object = 0 ∧
      (held.permissionMask &&& Agent.approvalBit ≠ 0 ∨
          (∃ asked ∈ request.perms, asked &&& Agent.approvalBit ≠ 0) ∨
          (∃ trust ∈ system.policy.trusts.items, trust.isFor draft.cert.name draft.object ∧
              maskOf trust.permissions &&& Agent.approvalBit ≠ 0) →
        accepted.mask &&& Agent.approvalBit ≠ 0) ∧
      (∃ permissions, parsePermissions (permissionNames accepted.mask) = some permissions ∧
          maskOf permissions = accepted.mask) ∧
      ∀ table ∈ (capImport issuer system desk run).1.tables.list, ∀ token, some token ∈ table.caps →
          (∃ old ∈ system.tables.list, old.pid = table.pid ∧ some token ∈ old.caps) ∨
            table.pid = run.pid ∧ token.permissionMask = accepted.mask := by
  obtain ⟨held, got, exported⟩ := prepareExport_ok prepared
  obtain ⟨within, asks, gate⟩ := exportMask_ok exported
  have granted : grantMask draft.perms
      (system.policy.trusted draft.cert.name draft.object) = some accepted.mask := by
    rw [delivered, checkImport_encode] at checked
    exact (admitImport_ok (checkCap_ok checked)).2
  have spec := has_grantMask granted
  obtain ⟨effect, notGate, set⟩ := exists_has_grantMask granted
  have known : ∀ bit, Mask.has accepted.mask bit → 1 ≤ bit ∧ bit ≤ 7 := by
    intro bit set
    rw [spec] at set
    split at set
    · omega
    · exact known_maskOf (within bit set.1)
  have nonzero : accepted.mask ≠ 0 := (ne_zero_iff _).mpr ⟨effect, set⟩
  -- Beside the gate a bit of the new mask is one of the offer and of the trust.
  have parts : ∀ bit, Mask.has (accepted.mask &&& ~~~Agent.approvalBit) bit →
      Mask.has draft.perms bit ∧
        Mask.has (system.policy.trusted draft.cert.name draft.object) bit := by
    intro bit set
    rw [has_and_not, Agent.has_approvalBit] at set
    simp only [Bool.and_eq_true, Bool.not_eq_true', decide_eq_false_iff_not] at set
    have both := (spec bit).mp set.1
    rwa [if_neg (Ne.symm set.2)] at both
  refine ⟨held, got, ?_, ?_, ?_, ?_, ?_, ?_⟩
  · rw [ne_zero_iff]
    refine ⟨effect, ?_⟩
    rw [has_and_not, set, Agent.has_approvalBit]
    simpa using Ne.symm notGate
  · rw [and_not_eq_zero_iff]
    exact fun bit set => within bit (parts bit set).1
  · rw [and_not_eq_zero_iff]
    exact fun bit set => (parts bit set).2
  · simp only [Agent.and_approvalBit_ne_zero_iff]
    rintro (heldGate | ⟨asked, isAsked, askedGate⟩ | ⟨trust, listed, isFor, trustGate⟩)
    · exact (spec 7).mpr (.inl (gate heldGate))
    · exact (spec 7).mpr (.inl (gate (asks asked isAsked 7 askedGate)))
    · exact (spec 7).mpr (.inr ((has_trusted _ _ _ _).mpr ⟨trust, listed, isFor, trustGate⟩))
  · exact ⟨permissionsIn accepted.mask,
      parsePermissions_permissionNames (permissionsIn_ne_nil known nonzero),
      maskOf_permissionsIn known⟩
  · intro table listed token present
    rcases tables_capImport checked with same | ⟨proposal, resolves, same⟩
    · rw [same] at listed
      exact .inl ⟨table, listed, rfl, present⟩
    rw [same] at listed
    obtain ⟨samePid, mask⟩ := maskOf_of_stagedImport known nonzero resolves
    refine (origin_of_applyGrant issuer _ _ proposal table listed token present).imp id ?_
    rintro ⟨pid, permissions⟩
    have shown : proposal.grant.pid = proposal.pid := by
      rw [(resolved_of_proposedGrant resolves).shown]
      rfl
    exact ⟨by rw [pid, shown, samePid], permissions.trans mask⟩

/-! ## A gated handle on its way -/

def hubBoot : Boot where
  toIssuer := { sampleIssuer with key := default }
  cert := some (sampleCert sampleHub 100)
  own := by
    intro held certified
    obtain rfl := Option.some.inj certified
    rfl

/-- Process 5 of the hub may send to `mailbox` and receive from it, after an
approval. -/
def hubTables : Tables where
  list := ⟨5, some (Request.token ⟨5, sampleObject,
      [.sendMessage, .receiveMessage, .requiresApproval]⟩ sampleIssuer) ::
        List.replicate 15 none, by decide⟩ :: List.replicate 7 (.reset 0)
  count := by decide

/-- Its handle is to be delegated to the edge, for sending only. -/
def sendToEdge : ExportRequest := ⟨5, 0, ascii "edge", some 16⟩

def mailboxDraft : PortableCap where
  cert := sampleCert sampleHub 100
  object := ⟨ascii "mailbox", by decide⟩
  perms := 144
  audience := sampleEdge
  serial := exportSerial 65536 1
  notAfter := 100
  signature := default

def edgeSystem : System :=
  { System.freshSystem with
    surroundings := plainSurroundings
      { emptyPolicy with
        trusts := ⟨[⟨sampleHub, none, [.sendMessage]⟩], by decide⟩ } }

def edgeRun : ImportRun where
  setting := ⟨some default, some sampleEdge, false, true⟩
  outcome := .committed
  asking := .off
  fresh := ⟨ascii "obj-2", by decide⟩
  pid := 5
  delivered := le64 50 ++ (signExport hubBoot mailboxDraft).encode

/-- The process of the edge gets a gated handle for sending. -/
theorem delegation_never_amplifies_mailbox :
    (capImport sampleIssuer edgeSystem sampleDesk edgeRun).1.tables.Holds 5
        (ascii "obj-2") 144 ∧
      ∃ accepted held, hubTables.handleCap 5 0 = .ok held ∧
        accepted.mask &&& ~~~Agent.approvalBit ≠ 0 ∧
        accepted.mask &&& ~~~Agent.approvalBit &&& ~~~held.permissionMask = 0 ∧
        (checkImport sampleIssuer.crypto edgeRun.setting edgeSystem.policy.trusted
          sampleDesk edgeRun.delivered).2 = .ok accepted := by
  have prepared : prepareExport hubBoot hubTables edgeSystem.objects sendToEdge
      65536 1 = .ok mailboxDraft := rfl
  have arrives : edgeRun.delivered = le64 50 ++ (signExport hubBoot mailboxDraft).encode := rfl
  have stored : (capImport sampleIssuer edgeSystem sampleDesk
      edgeRun).1.tables.Holds 5 (ascii "obj-2") 144 := by
    rw [capImport, arrives, checkImport_encode]
    decide +kernel
  have passes : (checkImport sampleIssuer.crypto edgeRun.setting
      edgeSystem.policy.trusted sampleDesk edgeRun.delivered).2.isOk := by
    rw [arrives, checkImport_encode]
    decide +kernel
  refine ⟨stored, ?_⟩
  cases checked : (checkImport sampleIssuer.crypto edgeRun.setting
      edgeSystem.policy.trusted sampleDesk edgeRun.delivered).2 with
  | error refusal =>
    rw [checked] at passes
    cases passes
  | ok accepted =>
    obtain ⟨held, got, nonempty, within, -⟩ := delegation_never_amplifies hubBoot
      hubTables edgeSystem.objects sendToEdge 65536 1 mailboxDraft prepared
      sampleIssuer edgeSystem sampleDesk edgeRun 50 arrives accepted checked
    exact ⟨accepted, held, got, nonempty, within, rfl⟩

end Console
end Cdk

import Cdk.Agent.Slots
import Cdk.Policy.Derivation
import Cdk.Policy.Legible

/-!
# Committing a batch of grants

The console resolves every staged grant, has all of them reviewed together and
then stores them one by one.  The review does not see how many slots are free,
and it sees only the first sixteen bytes of an object's id, by which the object
is looked up again.
-/

namespace Cdk.Console

open ByteFormat BoundedText Link Agent Policy Tools Tables

/-- What the console works on. -/
structure System where
  tables : Tables
  objects : Kernel.Objects
  /-- The intent of the object with an id. -/
  intentOf : Bytes → Bytes
  surroundings : Surroundings

namespace System

variable (system : System)

def kindOf (id : Bytes) : Bytes :=
  (system.objects.get id).elim [] Kernel.KernelObject.kind

def flagsOf (id : Bytes) : UInt8 :=
  pinnedFlags system.surroundings.manifest (system.kindOf id)

/-- A token of a process as the policy sees it. -/
def viewOf (pid : UInt32) (token : Token) : Grant :=
  grantOf pid (system.kindOf token.objectId) (system.flagsOf token.objectId) token

/-- Every capability of every process, as the policy sees it. -/
def currentGrants : List Grant :=
  (system.tables.list.filter (·.pid != 0)).flatMap fun table =>
    table.caps.reduceOption.map (system.viewOf table.pid)

/-- The id that an object reference stands for: an exact id, else the only
object of that kind, else the only object with that intent. -/
def resolveObjectRef (reference : Bytes) : Option Bytes :=
  if reference = [] then none
  else match system.objects.get reference with
    | some object => some object.id
    | none =>
      match system.objects.list.filter (·.kind == reference) with
      | [object] => some object.id
      | _ :: _ :: _ => none
      | [] =>
        match system.objects.list.filter fun object =>
          system.intentOf object.id == reference with
        | [object] => some object.id
        | _ => none

end System

/-! ## Proposals -/

/-- A staged grant: a process, an object reference and permissions. -/
structure Staged where
  pid : UInt32
  object : Str 32
  permissions : Str 48
  deriving DecidableEq

/-- Why a staged grant is not proposed. -/
inductive ProposalError where
  | badPermissions
  | noSuchProcess
  | noSuchObject
  deriving DecidableEq

/-- A resolved grant.  What is reviewed is the grant. -/
structure Proposal extends Request where
  grant : Grant
  deriving DecidableEq

/-- Resolve a staged grant. -/
def proposedGrant (system : System) (staged : Staged) : Except ProposalError Proposal :=
  let spec :=
    if staged.permissions.text.isEmpty then ascii "send,recv"
    else staged.permissions.text
  match parsePermissions spec with
  | none => .error .badPermissions
  | some permissions =>
    if !system.tables.hasTable staged.pid then .error .noSuchProcess
    else match system.resolveObjectRef staged.object.text with
      | none => .error .noSuchObject
      | some id => match system.objects.get id with
        | none => .error .noSuchObject
        | some object =>
          .ok
            { pid := staged.pid
              object := object
              permissions := permissions
              grant := .new staged.pid object.id object.kind
                (pinnedFlags system.surroundings.manifest object.kind)
                (maskOf permissions) }

/-- Resolve staged grants in order. -/
def proposedGrants (system : System) : List Staged → Except ProposalError (List Proposal)
  | [] => .ok []
  | staged :: rest =>
    match proposedGrant system staged with
    | .error error => .error error
    | .ok proposal => (proposedGrants system rest).map (proposal :: ·)

/-- Store a reviewed grant.  Its object is looked up by the id in the grant; if
that fails or no slot is free, nothing is stored. -/
def applyGrant (issuer : Issuer) (objects : Kernel.Objects) (tables : Tables)
    (proposal : Proposal) : Tables :=
  match objects.get proposal.grant.object.text with
  | none => tables
  | some object =>
    match tables.grant issuer proposal.grant.pid object proposal.permissions with
    | .error _ => tables
    | .ok (granted, _) => granted

/-! ## The commit -/

/-- Staged grants of a batch at most. -/
def maxStaged : Nat := 16

/-- Why a batch is not applied. -/
inductive CommitError where
  | noOpenBatch
  | batchWasEmpty
  | nothingApplied
  | batchNotApplied
  deriving DecidableEq

/-- Resolve and review the open batch: the proposals that are let through. -/
def approved (crypto : Crypto) (system : System) (batch : Option (BoundedVec Staged maxStaged))
    (asking : Policy.Asking) : Except CommitError (List Proposal) :=
  match batch with
  | none => .error .noOpenBatch
  | some batch =>
    if batch.items.isEmpty then .error .batchWasEmpty
    else match proposedGrants system batch.items with
      | .error _ => .error .nothingApplied
      | .ok proposals =>
        match reviewGrants crypto system.surroundings system.currentGrants
          (proposals.map Proposal.grant) asking with
        | .applied _ => .ok proposals
        | _ => .error .batchNotApplied

/-- Review and apply the open batch: the tables afterwards, and the result. -/
def policyCommit (crypto : Crypto) (issuer : Issuer) (system : System)
    (batch : Option (BoundedVec Staged maxStaged))
    (asking : Policy.Asking) : Tables × Except CommitError Unit :=
  match approved crypto system batch asking with
  | .error error => (system.tables, .error error)
  | .ok proposals =>
    (proposals.foldl (applyGrant issuer system.objects) system.tables, .ok ())

/-! ## Resolved proposals -/

/-- The proposal is about a registered object, and its grant shows it. -/
structure Proposal.Resolved (system : System) (proposal : Proposal) : Prop where
  registered : system.objects.get proposal.object.id = some proposal.object
  shown : proposal.grant = .new proposal.pid proposal.object.id proposal.object.kind
    (pinnedFlags system.surroundings.manifest proposal.object.kind) (maskOf proposal.permissions)

theorem resolved_of_proposedGrant (resolves : proposedGrant system staged = .ok proposal) :
    proposal.Resolved system := by
  simp only [proposedGrant] at resolves
  split at resolves
  · cases resolves
  split at resolves
  · cases resolves
  split at resolves
  · cases resolves
  split at resolves
  · cases resolves
  · rename_i id _ _ object found
    cases resolves
    have named : object.id = id := by simpa using List.find?_some found
    exact ⟨named.symm ▸ found, rfl⟩

/-- The proposal has the permissions that are written, or the usual two. -/
theorem permissions_of_proposedGrant (resolves : proposedGrant system staged = .ok proposal) :
    proposal.pid = staged.pid ∧
      parsePermissions (if staged.permissions.text.isEmpty then ascii "send,recv"
        else staged.permissions.text) = some proposal.permissions := by
  simp only [proposedGrant] at resolves
  repeat' split at resolves
  all_goals try contradiction
  all_goals
    cases resolves
    exact ⟨rfl, by assumption⟩

theorem resolved_of_proposedGrants (resolve : proposedGrants system batch = .ok proposals) :
    ∀ proposal ∈ proposals, proposal.Resolved system := by
  induction batch generalizing proposals with
  | nil =>
    cases resolve
    exact nofun
  | cons staged rest ih =>
    rw [proposedGrants] at resolve
    split at resolve
    · cases resolve
    rename_i first resolved
    cases others : proposedGrants system rest with
    | error error =>
      rw [others] at resolve
      cases resolve
    | ok later =>
      rw [others] at resolve
      cases resolve
      exact List.forall_mem_cons.mpr ⟨resolved_of_proposedGrant resolved, ih others⟩

theorem of_approved (passed : approved crypto system batch asking = .ok proposals) :
    (∃ staged, batch = some staged ∧ proposedGrants system staged.items = .ok proposals) ∧
      ∃ digest, reviewGrants crypto system.surroundings system.currentGrants
        (proposals.map Proposal.grant) asking = .applied digest := by
  unfold approved at passed
  split at passed
  · cases passed
  rename_i staged
  split at passed
  · cases passed
  split at passed
  · cases passed
  rename_i resolved resolve
  split at passed
  · rename_i digest reviewed
    cases passed
    exact ⟨⟨staged, rfl, resolve⟩, digest, reviewed⟩
  · cases passed

/-! ## Applying proposals -/

section Apply

variable {issuer : Issuer} {system : System} {tables granted : Tables}
variable {proposal : Proposal} {proposals : List Proposal}

/-- The number of slots without a token. -/
abbrev freeSlots (tables : Tables) : Nat := tables.slots.count none

section

variable (issuer : Issuer) (objects : Kernel.Objects) (tables : Tables) (proposal : Proposal)

/-- Applying a grant stores a token for the object with the id in the grant, or
changes nothing. -/
theorem applyGrant_cases : (applyGrant issuer objects tables proposal = tables ∧
        (objects.get proposal.grant.object.text = none ∨ tables.room proposal.grant.pid = 0)) ∨
      ∃ object slot, objects.get proposal.grant.object.text = some object ∧
        tables.grantOne issuer ⟨proposal.grant.pid, object, proposal.permissions⟩ =
          .ok (applyGrant issuer objects tables proposal, slot) := by
  unfold applyGrant
  cases found : objects.get proposal.grant.object.text with
  | none => exact .inl ⟨rfl, .inl rfl⟩
  | some object =>
    have possible := grantOne_ok_iff issuer tables
      ⟨proposal.grant.pid, object, proposal.permissions⟩
    simp only [grantOne] at possible ⊢
    cases done : tables.grant issuer proposal.grant.pid object proposal.permissions with
    | error error =>
      refine .inl ⟨rfl, .inr (Nat.eq_zero_of_not_pos ?_)⟩
      rw [← possible, done]
      rintro ⟨stored, impossible⟩
      cases impossible
    | ok stored => exact .inr ⟨object, stored.2, rfl, done⟩

/-- Every token after a grant is an old one of the same process, or has the
granted permissions and is held by the process that they are granted to. -/
theorem origin_of_applyGrant :
    ∀ table ∈ (applyGrant issuer objects tables proposal).list, ∀ token, some token ∈ table.caps →
        (∃ old ∈ tables.list, old.pid = table.pid ∧ some token ∈ old.caps) ∨
          table.pid = proposal.grant.pid ∧ token.permissionMask = maskOf proposal.permissions := by
  intro table listed token held
  rcases applyGrant_cases issuer objects tables proposal with
    ⟨same, -⟩ | ⟨object, slot, -, done⟩
  · rw [same] at listed
    exact .inl ⟨table, listed, rfl, held⟩
  · have origin := origin_of_withTable done
      fun table new _ inserted => HandleTable.insert_ok inserted
    refine (origin table listed token held).imp id ?_
    rintro ⟨samePid, -, rfl⟩
    exact ⟨samePid, Request.permissionMask_token
      ⟨proposal.grant.pid, object, proposal.permissions⟩ issuer⟩

theorem freeSlots_applyGrant_le :
    freeSlots (applyGrant issuer objects tables proposal) ≤ freeSlots tables ∧
      (freeSlots (applyGrant issuer objects tables proposal) = freeSlots tables →
        applyGrant issuer objects tables proposal = tables) := by
  rcases applyGrant_cases issuer objects tables proposal with
    ⟨same, -⟩ | ⟨object, slot, -, done⟩
  · rw [same]
    exact ⟨Nat.le_refl _, fun _ => rfl⟩
  · obtain ⟨early, late, before, after⟩ := slots_grantOne done
    have fewer : freeSlots tables = freeSlots (applyGrant issuer objects tables proposal) + 1 := by
      simp [freeSlots, before, after]
      omega
    exact ⟨by omega, fun equal => by omega⟩

theorem freeSlots_foldl_le
    (proposals : List Proposal) : freeSlots (proposals.foldl (applyGrant issuer objects) tables) ≤
      freeSlots tables := by
  refine List.foldlRecOn (motive := (freeSlots · ≤ freeSlots tables)) proposals _ le_rfl ?_
  exact fun next fewer proposal _ => (freeSlots_applyGrant_le _ _ _ _).1.trans fewer

end

/-- A grant that stores nothing is one that cannot be stored. -/
theorem applyGrant_eq_self_iff : applyGrant issuer system.objects tables proposal = tables ↔
    system.objects.get proposal.grant.object.text = none ∨
      tables.room proposal.grant.pid = 0 := by
  rcases applyGrant_cases issuer system.objects tables proposal with
    ⟨same, stuck⟩ | ⟨object, slot, found, done⟩
  · exact iff_of_true same stuck
  · refine iff_of_false ?_ ?_
    · intro same
      have fewer := room_grantOne_self done
      rw [same] at fewer
      omega
    · rintro (missing | full)
      · cases missing.symm.trans found
      · have positive := (grantOne_ok_iff issuer tables _).mp ⟨_, done⟩
        exact Nat.lt_irrefl 0 (full ▸ positive)

theorem foldl_eq_self_iff : proposals.foldl (applyGrant issuer system.objects) tables = tables ↔
    ∀ proposal ∈ proposals, applyGrant issuer system.objects tables proposal = tables := by
  induction proposals with
  | nil => simp
  | cons proposal rest ih =>
    rw [List.foldl_cons, List.forall_mem_cons]
    constructor
    · intro same
      -- Free slots only become fewer, so the first grant did not take one.
      have first : applyGrant issuer system.objects tables proposal = tables := by
        refine (freeSlots_applyGrant_le _ _ _ _).2 (Nat.le_antisymm ?_ ?_)
        · exact (freeSlots_applyGrant_le _ _ _ _).1
        · have fewer := freeSlots_foldl_le issuer system.objects
            (applyGrant issuer system.objects tables proposal) rest
          rwa [same] at fewer
      rw [first] at same
      exact ⟨first, ih.mp same⟩
    · rintro ⟨first, others⟩
      rw [first]
      exact ih.mpr others

theorem applyGrant_of_short (resolved : proposal.Resolved system)
    (short : proposal.object.id.length ≤ 16)
    (done : tables.grantOne issuer proposal.toRequest = .ok (granted, slot)) :
    applyGrant issuer system.objects tables proposal = granted := by
  have named : proposal.grant.object.text = proposal.object.id := by
    rw [resolved.shown]
    exact Str.text_truncate_of_le short
  have pid : proposal.grant.pid = proposal.pid := by rw [resolved.shown]; rfl
  unfold grantOne at done
  simp only [applyGrant, named, resolved.registered, pid, done]

theorem foldl_of_grantAll (resolved : ∀ proposal ∈ proposals, proposal.Resolved system)
    (short : ∀ proposal ∈ proposals, proposal.object.id.length ≤ 16)
    (done : tables.grantAll issuer (proposals.map Proposal.toRequest) = .ok granted) :
    proposals.foldl (applyGrant issuer system.objects) tables = granted := by
  induction proposals generalizing tables with
  | nil =>
    cases done
    rfl
  | cons proposal rest ih =>
    rw [List.forall_mem_cons] at resolved short
    rw [List.map_cons, grantAll] at done
    split at done
    · cases done
    · rename_i stored slot one
      rw [List.foldl_cons, applyGrant_of_short resolved.1 short.1 one]
      exact ih resolved.2 short.2 done

/-- The slot has a token for an object whose id is longer than the id in a
grant. -/
def isLong (slot : Option Token) : Bool := slot.any fun token => 16 < token.objectId.length

theorem isLong_none : isLong none = false :=
  rfl

theorem countP_isLong_grantOne (done : tables.grantOne issuer request = .ok (granted, slot)) :
    granted.slots.countP isLong = tables.slots.countP isLong +
      if 16 < request.object.id.length then 1 else 0 := by
  obtain ⟨early, late, before, after⟩ := slots_grantOne done
  have token : isLong (some (request.token issuer)) = decide (16 < request.object.id.length) := rfl
  simp only [before, after, List.countP_append, List.countP_cons, token, isLong_none,
    decide_eq_true_eq, Bool.false_eq_true, if_false]
  omega

theorem countP_isLong_foldl :
    (proposals.foldl (applyGrant issuer system.objects) tables).slots.countP
      isLong = tables.slots.countP isLong := by
  refine List.foldlRecOn (motive := fun next : Tables =>
    next.slots.countP isLong = tables.slots.countP isLong) proposals _ rfl ?_
  intro next same proposal _
  rw [← same]
  rcases applyGrant_cases issuer system.objects next proposal with
    ⟨unchanged, -⟩ | ⟨object, slot, found, done⟩
  · rw [unchanged]
  · have named : object.id = proposal.grant.object.text := by
      simpa using List.find?_some found
    rw [countP_isLong_grantOne done, if_neg, Nat.add_zero]
    rw [named, Nat.not_lt]
    exact proposal.grant.object.fits

/-- Storing everything stores a token for every object with a long id. -/
theorem countP_isLong_grantAll (done : tables.grantAll issuer requests = .ok granted) :
    granted.slots.countP isLong = tables.slots.countP isLong +
      requests.countP fun request => 16 < request.object.id.length := by
  induction requests generalizing tables with
  | nil =>
    cases done
    rfl
  | cons request rest ih =>
    rw [grantAll] at done
    split at done
    · cases done
    rename_i stored slot one
    rw [ih done, countP_isLong_grantOne one, List.countP_cons]
    simp only [decide_eq_true_eq]
    omega

end Apply

/-! ## Whole or not at all -/

/-- Every grant is about an object whose id is shown in full, and every process
has as many free slots as there are grants for it. -/
def Fits (system : System) (proposals : List Proposal) : Prop :=
  ∀ proposal ∈ proposals, proposal.object.id.length ≤ 16 ∧
    proposals.countP (·.pid == proposal.pid) ≤ system.tables.room proposal.pid

/-- No grant can be stored, and every one is held already. -/
def Idle (system : System) (proposals : List Proposal) : Prop := ∀ proposal ∈ proposals,
    (system.objects.get proposal.grant.object.text = none ∨
        system.tables.room proposal.grant.pid = 0) ∧
      system.tables.Holds proposal.pid proposal.object.id proposal.grant.mask

theorem grantAll_ok_iff_enough (issuer : Issuer) (tables : Tables) (proposals : List Proposal) :
    (∃ granted, tables.grantAll issuer (proposals.map Proposal.toRequest) = .ok granted) ↔
      ∀ proposal ∈ proposals,
        proposals.countP (·.pid == proposal.pid) ≤ tables.room proposal.pid := by
  rw [grantAll_ok_iff]
  simp only [List.countP_map]
  constructor
  · intro enough proposal _
    exact enough proposal.pid
  intro enough pid
  by_cases asked : ∃ proposal ∈ proposals, proposal.pid = pid
  · obtain ⟨proposal, listed, rfl⟩ := asked
    exact enough proposal listed
  have none : proposals.countP
      ((fun request : Request => request.pid == pid) ∘ Proposal.toRequest) = 0 := by
    rw [List.countP_eq_zero]
    intro proposal listed same
    exact asked ⟨proposal, listed, by simpa using same⟩
  omega

/-- A commit applies the batch whole or not at all, and reports success only if
every grant is held, exactly if each reviewed object is shown by its full id and
each process has room for all its grants.  The only other case is that of a
batch in which nothing can be stored and nothing needs to be. -/
theorem commit_whole_or_nothing_iff
    (crypto : Crypto)
    (issuer : Issuer)
    (system : System)
    (batch : Option (BoundedVec Staged maxStaged))
    (asking : Policy.Asking) :
    (((∃ staged proposals, batch = some staged ∧
          proposedGrants system staged.items = .ok proposals ∧
          system.tables.grantAll issuer (proposals.map Proposal.toRequest) =
            .ok (policyCommit crypto issuer system batch asking).1) ∨
        (policyCommit crypto issuer system batch asking).1 = system.tables) ∧
      ((policyCommit crypto issuer system batch asking).2 = .ok () →
        ∀ proposals, approved crypto system batch asking = .ok proposals → ∀ proposal ∈ proposals,
            (policyCommit crypto issuer system batch asking).1.Holds proposal.pid
              proposal.object.id proposal.grant.mask)) ↔
      ∀ proposals, approved crypto system batch asking = .ok proposals →
        Fits system proposals ∨ Idle system proposals := by
  cases passed : approved crypto system batch asking with
  | error error =>
    simp only [policyCommit, passed]
    refine iff_of_true ⟨.inr trivial, ?_⟩ ?_
    · exact nofun
    · exact nofun
  | ok proposals =>
    obtain ⟨⟨staged, rfl, resolve⟩, -⟩ := of_approved passed
    have resolved := resolved_of_proposedGrants resolve
    have masks : ∀ proposal ∈ proposals, proposal.grant.mask = maskOf proposal.permissions := by
      intro proposal listed
      rw [(resolved proposal listed).shown]
      rfl
    simp only [policyCommit, passed, Option.some.injEq, Except.ok.injEq,
      forall_eq', forall_const, exists_and_left, exists_eq_left', resolve]
    constructor
    · rintro ⟨whole | nothing, held⟩
      · left
        have enough := (grantAll_ok_iff_enough issuer system.tables proposals).mp ⟨_, whole⟩
        -- A long id would be missing from the tables.
        have counts := countP_isLong_grantAll whole
        rw [countP_isLong_foldl, List.countP_map, Nat.left_eq_add, List.countP_eq_zero] at counts
        intro proposal listed
        exact ⟨by simpa using counts proposal listed, enough proposal listed⟩
      · right
        rw [nothing] at held
        rw [foldl_eq_self_iff] at nothing
        intro proposal listed
        exact ⟨applyGrant_eq_self_iff.mp (nothing proposal listed), held proposal listed⟩
    · rintro (fits | idle)
      · obtain ⟨granted, done⟩ := (grantAll_ok_iff_enough issuer system.tables proposals).mpr
            fun proposal listed => (fits proposal listed).2
        have applied := foldl_of_grantAll resolved
          (fun proposal listed => (fits proposal listed).1) done
        rw [applied]
        refine ⟨.inl done, ?_⟩
        intro proposal listed
        rw [masks proposal listed]
        exact holds_grantAll done proposal.toRequest (List.mem_map_of_mem listed)
      · have unchanged : proposals.foldl (applyGrant issuer system.objects)
            system.tables = system.tables :=
          foldl_eq_self_iff.mpr fun proposal listed =>
            applyGrant_eq_self_iff.mpr (idle proposal listed).1
        rw [unchanged]
        exact ⟨.inr rfl, fun proposal listed => (idle proposal listed).2⟩

/-- Process 5 has one free slot. -/
def crowdedTables : Tables where
  list := ⟨5, List.replicate 15 (some (Request.token ⟨5, sampleObject, [.sendMessage]⟩
      sampleIssuer)) ++ [none], by decide⟩ :: List.replicate 7 (.reset 0)
  count := by decide

def sampleObjects : Kernel.Objects := ⟨[sampleObject], by decide⟩

def crowdedSystem : System where
  tables := crowdedTables
  objects := sampleObjects
  intentOf _ := []
  surroundings := plainSurroundings emptyPolicy

/-- Two grants for process 5. -/
def readAndExec : BoundedVec Staged maxStaged :=
  ⟨[⟨5, firstId, ⟨ascii "read", by decide⟩⟩, ⟨5, firstId, ⟨ascii "exec", by decide⟩⟩],
    by decide⟩

/-- With one free slot the first of two approved grants is stored and the
second is not, and the commit reports success. -/
theorem commit_stores_part :
    (policyCommit sampleCrypto sampleIssuer crowdedSystem (some readAndExec) .off).2 = .ok () ∧
    (policyCommit sampleCrypto sampleIssuer crowdedSystem (some readAndExec) .off).1 ≠
      crowdedTables ∧ ∃ proposals, approved sampleCrypto crowdedSystem (some readAndExec) .off =
      .ok proposals ∧ ∃ proposal ∈ proposals,
        ¬(policyCommit sampleCrypto sampleIssuer crowdedSystem (some readAndExec)
          .off).1.Holds proposal.pid proposal.object.id proposal.grant.mask := by
  have missing : (approved sampleCrypto crowdedSystem (some readAndExec)
      .off).toOption.any (fun proposals => decide (∃ proposal ∈ proposals,
        ¬(policyCommit sampleCrypto sampleIssuer crowdedSystem (some readAndExec)
          .off).1.Holds proposal.pid proposal.object.id proposal.grant.mask)) =
      true := by
    decide +kernel
  have taken : (policyCommit sampleCrypto sampleIssuer crowdedSystem
      (some readAndExec) .off).1.room 5 ≠ crowdedTables.room 5 := by
    decide +kernel
  refine ⟨by decide +kernel, fun same => taken (congrArg (room · 5) same), ?_⟩
  cases passed : approved sampleCrypto crowdedSystem (some readAndExec) .off with
  | error error =>
    rw [passed] at missing
    cases missing
  | ok proposals =>
    rw [passed] at missing
    exact ⟨proposals, rfl, of_decide_eq_true missing⟩

end Cdk.Console

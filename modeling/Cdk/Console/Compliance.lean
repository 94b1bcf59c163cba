import Cdk.Console.Commit
import Cdk.Policy.Edit

/-!
# Compliance over whole runs

The handles change by reviewed batches, derivations, drops and the end of
processes, and the policy by reviewed edits.  Every step leaves handles that
are covered by those before it, together with what the step adds; so the rules
stay obeyed as long as what a step adds was reviewed as it is, or adds nothing
that the rules count.
-/

namespace Cdk.Console

open ByteFormat BoundedText Link Agent Policy Tools Run HandleTable

/-! ## Steps -/

/-- A change of the handles or of the policy. -/
inductive Move where
  /-- Review a batch; the grants at the given places are stored, in this
  order. -/
  | commit (batch : List Staged) (asking : Policy.Asking) (stored : List Nat)
  | edit (change : Edit) (asking : Policy.Asking)
  | createTable (pid : UInt32)
  | capDerive (pid : UInt32) (handle mask : UInt64)
  | capDrop (pid : UInt32) (handle : UInt64)
  | reap (pid : UInt32)

namespace System

abbrev policy (system : System) : Policy := system.surroundings.policy

def withTables (system : System) (tables : Tables) : System := { system with tables }

/-- The handles that are held violate no rule. -/
def Compliant (system : System) : Prop := system.policy.violations system.currentGrants = []

/-- The state after a move; what fails or is refused changes nothing. -/
def step (crypto : Crypto) (issuer : Issuer) (system : System) : Move → System
  | .commit batch asking stored =>
    match proposedGrants system batch with
    | .error _ => system
    | .ok proposals =>
      match reviewGrants crypto system.surroundings system.currentGrants
        (proposals.map Proposal.grant) asking with
      | .applied _ =>
        system.withTables
          ((stored.filterMap fun place => proposals[place]?).foldl
            (applyGrant issuer system.objects) system.tables)
      | _ => system
  | .edit change asking =>
    match Policy.edit system.surroundings system.currentGrants change asking with
    | .error _ => system
    | .ok policy =>
      { system with surroundings := { system.surroundings with policy } }
  | .createTable pid =>
    match system.tables.createTable pid with
    | .error _ => system
    | .ok tables => system.withTables tables
  | .capDerive pid handle mask =>
    match sysCapDerive issuer system.tables pid handle mask with
    | .error _ => system
    | .ok (tables, _) => system.withTables tables
  | .capDrop pid handle =>
    match sysCapDrop system.tables pid handle with
    | .error _ => system
    | .ok tables => system.withTables tables
  | .reap pid => system.withTables (system.tables.destroyTable pid)

theorem mem_currentGrants (system : System) (grant : Grant) : grant ∈ system.currentGrants ↔
    ∃ table ∈ system.tables.list, table.pid ≠ 0 ∧ ∃ token, some token ∈ table.caps ∧
        system.viewOf table.pid token = grant := by
  simp only [currentGrants, List.mem_flatMap, List.mem_filter, bne_iff_ne,
    List.mem_map, List.reduceOption_mem_iff, and_assoc]

/-! ## What a step adds -/

section Adds

variable {system : System} {tables : Tables} {pid : UInt32} {extra : List Grant}

/-- Every token is an old one of the same process, or one of those that are
added. -/
theorem currentGrants_subset (origin : ∀ table ∈ tables.list, table.pid ≠ 0 → ∀ token,
      some token ∈ table.caps →
        (∃ old ∈ system.tables.list, old.pid = table.pid ∧ some token ∈ old.caps) ∨
          system.viewOf table.pid token ∈ extra) :
    (system.withTables tables).currentGrants ⊆ system.currentGrants ++ extra := by
  intro grant listed
  obtain ⟨table, present, live, token, held, rfl⟩ := (mem_currentGrants _ _).mp listed
  rw [List.mem_append, mem_currentGrants]
  rcases origin table present live token held with ⟨old, oldPresent, same, oldHeld⟩ | new
  · refine .inl ⟨old, oldPresent, same ▸ live, token, oldHeld, ?_⟩
    rw [same]
    rfl
  · exact .inr new

theorem currentGrants_withTable (done : system.tables.withTable pid call = .ok (tables, result))
    (keeps : ∀ table new, system.tables.list.find? (Tables.isOf pid) = some table →
      call table = .ok (new, result) → new.pid = table.pid ∧ ∀ token, some token ∈ new.caps →
          some token ∈ table.caps ∨ system.viewOf pid token ∈ extra) :
    (system.withTables tables).currentGrants ⊆ system.currentGrants ++ extra := by
  refine currentGrants_subset ?_
  intro table listed _ token held
  refine (Tables.origin_of_withTable done keeps table listed token held).imp id ?_
  rintro ⟨rfl, -, new⟩
  exact new

theorem currentGrants_reset (test : HandleTable → Bool) (pid : UInt32) :
    (system.withTables (system.tables.replace test (.reset pid))).currentGrants ⊆
      system.currentGrants := by
  have nothing : (system.withTables (system.tables.replace test (.reset pid))).currentGrants ⊆
        system.currentGrants ++ [] := by
    refine currentGrants_subset ?_
    intro table listed _ token held
    rcases system.tables.replace_cases test (.reset pid) with
      ⟨-, same⟩ | ⟨early, old, late, before, -, after⟩
    · exact .inl ⟨table, same ▸ listed, rfl, held⟩
    · rw [after, List.mem_append, List.mem_cons] at listed
      rcases listed with first | rfl | last
      · refine .inl ⟨table, ?_, rfl, held⟩
        rw [before]
        exact List.mem_append_left _ first
      · exact absurd held (not_mem_reset pid token)
      · refine .inl ⟨table, ?_, rfl, held⟩
        rw [before]
        exact List.mem_append_right _ (List.mem_cons_of_mem _ last)
  rwa [List.append_nil] at nothing

theorem currentGrants_applyGrant (resolved : proposal.Resolved system)
    (short : proposal.object.id.length ≤ 16) :
    (system.withTables (applyGrant issuer system.objects system.tables proposal)).currentGrants ⊆
      system.currentGrants ++ [proposal.grant] := by
  rcases applyGrant_cases issuer system.objects system.tables proposal with
    ⟨same, -⟩ | ⟨object, slot, found, done⟩
  · rw [same]
    exact List.subset_append_left _ _
  · refine currentGrants_withTable done ?_
    intro table new _ inserted
    obtain ⟨samePid, tokens⟩ := insert_ok inserted
    refine ⟨samePid, ?_⟩
    intro token held
    refine (tokens token held).imp id ?_
    rintro rfl
    -- The id in the grant is the full one, so the object is the reviewed one.
    have named : proposal.grant.object.text = proposal.object.id := by
      rw [resolved.shown]
      exact Str.text_truncate_of_le short
    have same : proposal.object = object := by
      rw [named, resolved.registered] at found
      exact Option.some.inj found
    subst same
    have mask := Request.permissionMask_token
      ⟨proposal.grant.pid, proposal.object, proposal.permissions⟩ issuer
    have kind : system.kindOf proposal.object.id = proposal.object.kind := by
      rw [kindOf, resolved.registered]
      rfl
    rw [List.mem_singleton]
    refine Eq.trans ?_ resolved.shown.symm
    change Grant.new proposal.grant.pid proposal.object.id
      (system.kindOf proposal.object.id) (system.flagsOf proposal.object.id)
      (Request.token _ issuer).permissionMask = _
    rw [mask, flagsOf, kind, resolved.shown]
    rfl

theorem currentGrants_foldl {proposals : List Proposal}
    (resolved : ∀ proposal ∈ proposals, proposal.Resolved system)
    (short : ∀ proposal ∈ proposals, proposal.object.id.length ≤ 16) :
    (system.withTables (proposals.foldl (applyGrant issuer system.objects)
        system.tables)).currentGrants ⊆ system.currentGrants ++ proposals.map Proposal.grant := by
  induction proposals generalizing system with
  | nil => exact List.subset_append_left _ _
  | cons proposal rest ih =>
    rw [List.forall_mem_cons] at resolved short
    let next := system.withTables (applyGrant issuer system.objects system.tables proposal)
    have first : next.currentGrants ⊆ system.currentGrants ++ [proposal.grant] :=
      currentGrants_applyGrant resolved.1 short.1
    have stillResolved : ∀ other ∈ rest, other.Resolved next := by
      intro other listed
      exact ⟨(resolved.2 other listed).registered, (resolved.2 other listed).shown⟩
    have others := ih stillResolved short.2
    intro grant listed
    rcases List.mem_append.mp (others listed) with early | late
    · rcases List.mem_append.mp (first early) with old | new
      · exact List.mem_append_left _ old
      · rw [List.mem_singleton.mp new]
        exact List.mem_append_right _ List.mem_cons_self
    · exact List.mem_append_right _ (List.mem_cons_of_mem _ late)

theorem currentGrants_capDerive
    (derives : sysCapDerive issuer system.tables pid handle mask = .ok (tables, slot)) :
    ∃ table parent, system.tables.list.find? (Tables.isOf pid) = some table ∧
      table.get handle = .ok parent ∧ HandleTable.Allowed parent.permissionMask mask ∧
      (system.withTables tables).currentGrants ⊆
        system.currentGrants ++ [(system.viewOf pid parent).derive mask] := by
  unfold sysCapDerive at derives
  split at derives
  · cases derives
  rename_i stored done
  cases derives
  obtain ⟨table, new, found, called, -⟩ := Tables.withTable_found done
  cases made : derived issuer table handle mask with
  | error error =>
    rw [made] at called
    cases called
  | ok token =>
    obtain ⟨parent, child, got, attenuates, rfl⟩ := derived_ok made
    have sameObject := (attenuated_ok attenuates).1
    obtain ⟨allowed, view⟩ := grantOf_attenuated attenuates pid
      (system.kindOf parent.objectId) (system.flagsOf parent.objectId)
    refine ⟨table, parent, found, got, allowed, currentGrants_withTable done ?_⟩
    intro other changed otherFound otherCalled
    cases otherFound.symm.trans found
    rw [made] at otherCalled
    obtain ⟨samePid, tokens⟩ := insert_ok otherCalled
    refine ⟨samePid, ?_⟩
    intro token held
    refine (tokens token held).imp id ?_
    rintro rfl
    rw [List.mem_singleton]
    refine Eq.trans ?_ view
    change grantOf pid (system.kindOf child.objectId) (system.flagsOf child.objectId) child = _
    rw [sameObject]

theorem currentGrants_capDrop (drops : sysCapDrop system.tables pid handle = .ok tables) :
    (system.withTables tables).currentGrants ⊆ system.currentGrants := by
  unfold sysCapDrop at drops
  split at drops
  · cases drops
  rename_i dropped token done
  cases drops
  have nothing : (system.withTables tables).currentGrants ⊆ system.currentGrants ++ [] := by
    refine currentGrants_withTable done ?_
    intro table new _ called
    obtain ⟨samePid, tokens⟩ := remove_ok called
    exact ⟨samePid, fun token held => .inl (tokens token held)⟩
  rwa [List.append_nil] at nothing

end Adds

/-! ## Runs -/

/-- The move is not one of the two that can break a rule: it does not grant
anything on an object whose id is longer than what the review sees, and it does
not add the approval constraint to a handle without permissions that the rules
cover. -/
def Harmless (system : System) : Move → Prop
  | .commit batch _ _ =>
    ∀ proposal ∈ (proposedGrants system batch).toOption.getD [], proposal.object.id.length ≤ 16
  | .capDerive pid handle mask =>
    ∀ table ∈ system.tables.list.find? (Tables.isOf pid), ∀ parent ∈ (table.get handle).toOption,
        system.policy.awakens system.currentGrants (system.viewOf pid parent) mask = false
  | _ => True

instance (system : System) (move : Move) : Decidable (system.Harmless move) := by
  cases move <;> unfold Harmless <;> infer_instance

variable {crypto : Crypto} {issuer : Issuer} {system : System} {pid : UInt32}

section

variable (compliant : system.Compliant)
include compliant

theorem Compliant.of_subset {tables : Tables}
    (subset : (system.withTables tables).currentGrants ⊆ system.currentGrants) :
    (system.withTables tables).Compliant :=
  (covers_of_subset system.policy subset).violations_eq_nil compliant

theorem Compliant.commit {asking : Policy.Asking}
    (harmless : system.Harmless (.commit batch asking stored)) :
    (system.step crypto issuer (.commit batch asking stored)).Compliant := by
  cases resolve : proposedGrants system batch with
  | error error =>
    simp only [step, resolve]
    exact compliant
  | ok proposals =>
    simp only [Harmless, resolve, Except.toOption, Option.getD_some] at harmless
    simp only [step, resolve]
    have resolved := resolved_of_proposedGrants resolve
    split
    · rename_i digest reviewed
      have lawful : system.policy.Lawful _ := lawful_of_reviewGrants compliant reviewed
      refine Covers.violations_eq_nil (covers_of_subset _ ?_) lawful
      have inside : ∀ proposal ∈ stored.filterMap fun place => proposals[place]?,
          proposal ∈ proposals := by
        intro proposal listed
        obtain ⟨place, -, here⟩ := List.mem_filterMap.mp listed
        exact List.mem_of_getElem? here
      refine List.Subset.trans (currentGrants_foldl
        (fun proposal listed => resolved proposal (inside proposal listed))
        (fun proposal listed => harmless proposal (inside proposal listed))) ?_
      intro grant listed
      rcases List.mem_append.mp listed with old | new
      · exact List.mem_append_left _ old
      · obtain ⟨proposal, chosen, rfl⟩ := List.mem_map.mp new
        exact List.mem_append_right _ (List.mem_map_of_mem (inside proposal chosen))
    · exact compliant

theorem Compliant.edit (change : Edit) (asking : Policy.Asking) :
    (system.step crypto issuer (.edit change asking)).Compliant := by
  simp only [step]
  split
  · exact compliant
  · exact lawful_of_edit ‹_›

theorem Compliant.createTable (pid : UInt32) :
    (system.step crypto issuer (.createTable pid)).Compliant := by
  simp only [step, Tables.createTable]
  split
  · exact compliant
  rename_i tables created
  split at created
  · cases created
    exact compliant.of_subset (currentGrants_reset _ _)
  · split at created
    · cases created
      exact compliant.of_subset (currentGrants_reset _ _)
    · cases created

theorem Compliant.capDerive (harmless : system.Harmless (.capDerive pid handle mask)) :
    (system.step crypto issuer (.capDerive pid handle mask)).Compliant := by
  simp only [step]
  split
  · exact compliant
  rename_i tables slot derives
  obtain ⟨table, parent, found, got, allowed, added⟩ := currentGrants_capDerive derives
  have quiet := harmless table found parent (by rw [got]; rfl)
  have present : system.viewOf pid parent ∈ system.currentGrants := by
    have is := List.find?_some found
    simp only [Tables.isOf, Bool.and_eq_true, beq_iff_eq, bne_iff_ne] at is
    refine (mem_currentGrants _ _).mpr ⟨table, List.mem_of_find?_eq_some found,
      is.1 ▸ is.2, parent, mem_of_get got, ?_⟩
    rw [is.1]
  have lawful := (derivation_obeys_iff compliant present allowed).mpr quiet
  exact Covers.violations_eq_nil (covers_of_subset _ added) lawful

end

theorem Compliant.step (system : System) (move : Move) (compliant : system.Compliant)
    (harmless : system.Harmless move) : (system.step crypto issuer move).Compliant := by
  cases move with
  | commit batch asking stored => exact compliant.commit harmless
  | edit change asking => exact compliant.edit change asking
  | createTable pid => exact compliant.createTable pid
  | capDerive pid handle mask => exact compliant.capDerive harmless
  | capDrop pid handle =>
    simp only [System.step]
    split
    · exact compliant
    · exact compliant.of_subset (currentGrants_capDrop ‹_›)
  | reap pid => exact compliant.of_subset (currentGrants_reset _ _)

/-- Compliance is kept by every run of harmless steps, and a broken boot policy
has every change refused. -/
theorem compliance_kept
    (crypto : Crypto)
    (issuer : Issuer)
    (first : System)
    (initially : first.policy.violations first.currentGrants = []) :
    (∀ moves, Run.Along (step crypto issuer) Harmless first moves →
      (after (step crypto issuer) first moves).policy.violations
        (after (step crypto issuer) first moves).currentGrants = []) ∧
    ∀ system : System, system.surroundings.broken → (∀ grants proposed asking,
        reviewGrants crypto system.surroundings grants proposed asking = .broken) ∧
      ∀ grants change asking, Policy.edit system.surroundings grants change asking =
          .error .policyBroken := by
  constructor
  · intro moves harmless
    have kept : (after (step crypto issuer) first moves).Compliant :=
      invariant initially Compliant.step harmless
    exact kept
  · intro system broken
    constructor
    · intro grants proposed asking
      simp only [reviewGrants, broken, if_true]
    · intro grants change asking
      simp only [Policy.edit, broken, if_true]

/-- Process 5 has no handles yet. -/
def freshSystem : System where
  tables := ⟨.reset 5 :: List.replicate 7 (.reset 0), by decide⟩
  objects := sampleObjects
  intentOf _ := []
  surroundings := plainSurroundings emptyPolicy

/-- A grant of `send` is approved, and what is derived from it has no
permissions.  When only that is left, the object is labelled and denied. -/
def movesToDeny : List Move :=
  [.commit [⟨5, firstId, ⟨ascii "send", by decide⟩⟩] .off [0],
    .capDerive 5 0 0,
    .capDrop 5 0,
    .edit (.addLabel firstId.text secretLabel.text) .off,
    .edit (.addRule (.deny secretLabel)) .off]

/-- The empty handle is no violation, but a derivation turns it into one. -/
theorem compliance_lost_by_derivation :
    freshSystem.policy.violations freshSystem.currentGrants = [] ∧
    (after (step sampleCrypto sampleIssuer) freshSystem
        (movesToDeny ++ [.capDerive 5 1 approvalBit])).policy.violations
      (after (step sampleCrypto sampleIssuer) freshSystem
        (movesToDeny ++ [.capDerive 5 1 approvalBit])).currentGrants ≠ [] := by
  decide +kernel

theorem compliance_kept_until_denied :
    (after (step sampleCrypto sampleIssuer) freshSystem movesToDeny ).policy.violations
      (after (step sampleCrypto sampleIssuer) freshSystem movesToDeny ).currentGrants = [] :=
  (compliance_kept sampleCrypto sampleIssuer freshSystem (by decide +kernel)).1
    movesToDeny (by decide +kernel)

end System

end Cdk.Console

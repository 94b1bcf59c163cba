import Cdk.Agent.Handles
import Mathlib.Data.List.ReduceOption

/-!
# Granting several capabilities

Grants are stored one by one in tables of bounded size.  A grant takes one free
slot of its process and changes no other slot, so a list of grants can be
stored completely exactly if every process has as many free slots as there are
grants for it (`grantAll_ok_iff`).
-/

namespace Cdk.Agent

open ByteFormat Link FirstMatch HandleTable

/-- A capability to be granted. -/
structure Request where
  pid : UInt32
  object : Kernel.KernelObject
  permissions : List Permission
  deriving DecidableEq

def Request.token (request : Request) (issuer : Issuer) : Token :=
  (Capability.withPermissions request.object request.permissions).issue issuer

/-- The granted permissions are exactly those that are asked for. -/
theorem Request.permissionMask_token (request : Request) (issuer : Issuer) :
    (request.token issuer).permissionMask = maskOf request.permissions := by
  rw [Capability.permissionMask, maskOf_eq_maskOf_iff]
  intro permission
  refine (mem_foldl_append_new id request.permissions [] permission).trans ?_
  simp only [List.not_mem_nil, false_or, id, exists_eq_right]

namespace HandleTable

theorem insert_exchange {table inserted : HandleTable}
    (fits : table.insert token = .ok (inserted, slot)) :
    inserted.pid = table.pid ∧ ∃ early late, table.caps = early ++ none :: late ∧
      inserted.caps = early ++ some token :: late := by
  unfold insert at fits
  split at fits
  · cases fits
  rename_i slot found
  cases fits
  obtain ⟨inside, free, -⟩ := List.findIdx?_eq_some_iff_getElem.mp found
  refine ⟨rfl, table.caps.take slot, table.caps.drop (slot + 1), ?_, ?_⟩
  · rw [← Option.isNone_iff_eq_none.mp free, List.getElem_cons_drop, List.take_append_drop]
  · exact List.set_eq_take_append_cons_drop.trans (if_pos inside)

theorem insert_ok_iff (table : HandleTable) (token : Token) :
    (∃ stored, table.insert token = .ok stored) ↔ 0 < table.caps.count none := by
  rw [List.count_pos_iff]
  unfold insert
  cases found : table.caps.findIdx? Option.isNone with
  | none =>
    rw [List.findIdx?_eq_none_iff] at found
    constructor
    · rintro ⟨stored, impossible⟩
      cases impossible
    · intro free
      exact absurd (found none free) (by simp)
  | some slot =>
    obtain ⟨inside, free, -⟩ := List.findIdx?_eq_some_iff_getElem.mp found
    refine iff_of_true ⟨_, rfl⟩ ?_
    rw [← Option.isNone_iff_eq_none.mp free]
    exact List.getElem_mem inside

end HandleTable

namespace Tables

variable {issuer : Issuer} {tables granted : Tables} {request : Request}

def grantOne (issuer : Issuer) (tables : Tables) (request : Request) :
    Except HandleError (Tables × Nat) :=
  tables.grant issuer request.pid request.object request.permissions

/-- Grant until one fails. -/
def grantAll (issuer : Issuer) : Tables → List Request → Except HandleError Tables
  | tables, [] => .ok tables
  | tables, request :: rest =>
    match tables.grantOne issuer request with
    | .error error => .error error
    | .ok (granted, _) => grantAll issuer granted rest

/-- Free slots of a process. -/
def room (tables : Tables) (pid : UInt32) : Nat :=
  (tables.list.find? (isOf pid)).elim 0 fun table => table.caps.count none

def slots (tables : Tables) : List (Option Token) := tables.list.flatMap caps

/-- The process has a handle with the mask on the object. -/
def Holds (tables : Tables) (pid : UInt32) (object : Bytes) (mask : UInt64) : Prop :=
  ∃ table ∈ tables.list, isOf pid table ∧ ∃ token ∈ table.caps.reduceOption,
      token.objectId = object ∧ token.permissionMask = mask

instance (tables : Tables) (pid : UInt32) (object : Bytes) (mask : UInt64) :
    Decidable (tables.Holds pid object mask) :=
  inferInstanceAs (Decidable (∃ table ∈ tables.list, _ ∧ ∃ token ∈ _, _ ∧ _))

/-! ## One grant -/

variable {slot : Nat}

theorem grantOne_ok (done : tables.grantOne issuer request = .ok (granted, slot)) :
    ∃ table new, tables.list.find? (isOf request.pid) = some table ∧
      table.insert (request.token issuer) = .ok (new, slot) ∧
      granted = tables.replace (isOf request.pid) new :=
  withTable_found done

theorem grantOne_ok_iff (issuer : Issuer) (tables : Tables) (request : Request) :
    (∃ granted, tables.grantOne issuer request = .ok granted) ↔ 0 < tables.room request.pid := by
  unfold grantOne grant withTable room
  cases tables.list.find? (isOf request.pid) with
  | none =>
    refine iff_of_false ?_ (Nat.lt_irrefl 0)
    rintro ⟨granted, impossible⟩
    cases impossible
  | some table =>
    refine Iff.trans ?_ (table.insert_ok_iff (request.token issuer))
    change (∃ granted, (table.insert (request.token issuer)).map _ = _) ↔ _
    cases table.insert (request.token issuer) with
    | error error =>
      refine iff_of_false ?_ ?_
      · rintro ⟨granted, impossible⟩
        cases impossible
      · rintro ⟨stored, impossible⟩
        cases impossible
    | ok stored => exact iff_of_true ⟨_, rfl⟩ ⟨_, rfl⟩

section

variable (done : tables.grantOne issuer request = .ok (granted, slot))
include done

theorem room_grantOne_self : granted.room request.pid + 1 = tables.room request.pid := by
  obtain ⟨table, new, found, inserted, rfl⟩ := grantOne_ok done
  obtain ⟨samePid, early, late, before, after⟩ := insert_exchange inserted
  have isNew : isOf request.pid new := by
    have isOld := List.find?_some found
    rwa [isOf, ← samePid] at isOld
  have foundNew := find_replaceF_self found isNew
  unfold room
  rw [found, replace, foundNew]
  simp only [Option.elim_some, before, after, List.count_append, List.count_cons]
  simp only [reduceCtorEq, beq_self_eq_true, if_true, beq_iff_eq, if_false]
  omega

theorem room_grantOne_other {pid : UInt32} (other : pid ≠ request.pid) :
    granted.room pid = tables.room pid := by
  obtain ⟨table, new, found, inserted, rfl⟩ := grantOne_ok done
  have samePid := (insert_exchange inserted).1
  have isOld := List.find?_some found
  have different : ∀ table, isOf request.pid table → isOf pid table = false := by
    intro table is
    simp only [isOf, Bool.and_eq_true, beq_iff_eq] at is
    simp only [isOf, is.1, Bool.and_eq_false_iff, beq_eq_false_iff_ne]
    exact .inl other.symm
  have isNew : isOf request.pid new := by rwa [isOf, ← samePid] at isOld
  unfold room
  rw [replace, find_replaceF_other different (different new isNew)]

theorem slots_grantOne :
    ∃ early late, tables.slots = early ++ none :: late ∧
      granted.slots = early ++ some (request.token issuer) :: late := by
  obtain ⟨first, table, last, new, before, -, -, inserted, after⟩ := withTable_ok done
  obtain ⟨-, early, late, old, filled⟩ := insert_exchange inserted
  refine ⟨first.flatMap caps ++ early, late ++ last.flatMap caps, ?_, ?_⟩
  · simp [slots, before, old]
  · simp [slots, after, filled, Request.token]

theorem holds_grantOne :
    granted.Holds request.pid request.object.id (maskOf request.permissions) := by
  obtain ⟨first, table, last, new, -, pid, live, inserted, after⟩ := withTable_ok done
  obtain ⟨samePid, early, late, -, filled⟩ := insert_exchange inserted
  refine ⟨new, ?_, ?_, request.token issuer, ?_, rfl, request.permissionMask_token issuer⟩
  · rw [after]
    exact List.mem_append_right _ List.mem_cons_self
  · simp [isOf, samePid, pid, live]
  · rw [List.reduceOption_mem_iff, filled]
    exact List.mem_append_right _ List.mem_cons_self

end

theorem Holds.grantOne {pid : UInt32} (holds : tables.Holds pid object mask)
    (done : tables.grantOne issuer request = .ok (granted, slot)) :
    granted.Holds pid object mask := by
  obtain ⟨holder, listed, is, token, held, what⟩ := holds
  obtain ⟨first, table, last, new, before, -, -, inserted, after⟩ := withTable_ok done
  obtain ⟨samePid, early, late, old, filled⟩ := insert_exchange inserted
  rw [before, List.mem_append, List.mem_cons] at listed
  rcases listed with inFirst | rfl | inLast
  · exact ⟨holder, after ▸ List.mem_append_left _ inFirst, is, token, held, what⟩
  · refine ⟨new, after ▸ List.mem_append_right _ List.mem_cons_self, ?_, token, ?_, what⟩
    · rwa [isOf, samePid]
    · rw [List.reduceOption_mem_iff, old, List.mem_append, List.mem_cons] at held
      rw [List.reduceOption_mem_iff, filled, List.mem_append, List.mem_cons]
      rcases held with inEarly | impossible | inLate
      · exact .inl inEarly
      · cases impossible
      · exact .inr (.inr inLate)
  · exact ⟨holder, after ▸ List.mem_append_right _ (List.mem_cons_of_mem _ inLast),
      is, token, held, what⟩

/-! ## Several grants -/

/-- All capabilities of a list are granted exactly if every process has as many
free slots as the list has capabilities for it. -/
theorem grantAll_ok_iff (issuer : Issuer) (tables : Tables) (requests : List Request) :
    (∃ granted, tables.grantAll issuer requests = .ok granted) ↔
      ∀ pid, requests.countP (·.pid == pid) ≤ tables.room pid := by
  induction requests generalizing tables with
  | nil => exact iff_of_true ⟨tables, rfl⟩ (by simp)
  | cons request rest ih =>
    have possible := grantOne_ok_iff issuer tables request
    rw [grantAll]
    cases done : tables.grantOne issuer request with
    | error error =>
      rw [done] at possible
      refine iff_of_false (by simp) ?_
      intro enough
      have here := enough request.pid
      rw [List.countP_cons_of_pos (by simp)] at here
      obtain ⟨granted, impossible⟩ := possible.mpr (by omega)
      cases impossible
    | ok stored =>
      have self := room_grantOne_self done
      refine (ih stored.1).trans ?_
      refine forall_congr' fun pid => ?_
      by_cases same : pid = request.pid
      · subst same
        rw [List.countP_cons_of_pos (by simp)]
        omega
      · rw [List.countP_cons_of_neg (by simpa using Ne.symm same), room_grantOne_other done same]

theorem Holds.grantAll {pid : UInt32} (holds : tables.Holds pid object mask)
    (done : tables.grantAll issuer requests = .ok granted) : granted.Holds pid object mask := by
  induction requests generalizing tables with
  | nil =>
    cases done
    exact holds
  | cons request rest ih =>
    rw [Tables.grantAll] at done
    split at done
    · cases done
    · rename_i stored slot one
      exact ih (holds.grantOne one) done

theorem holds_grantAll (done : tables.grantAll issuer requests = .ok granted) :
    ∀ request ∈ requests, granted.Holds request.pid request.object.id
      (maskOf request.permissions) := by
  induction requests generalizing tables with
  | nil => exact nofun
  | cons request rest ih =>
    rw [grantAll] at done
    split at done
    · cases done
    rename_i stored slot one
    exact List.forall_mem_cons.mpr ⟨(holds_grantOne one).grantAll done, ih done⟩

end Tables

end Cdk.Agent

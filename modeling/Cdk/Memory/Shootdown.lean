import Cdk.Library.Masks
import Cdk.Library.Run

/-!
# TLB shootdowns

All requests share one page, one mask of the cores that have yet to take it and one of those that
have.  A request overwrites what is left of the one before.  A core gets a page exactly if it is
the next to act, of itself and those who ask, after a request that it is a target of
(`mem_results_iff`), and is acknowledged exactly if it took the latest request
(`acknowledged_iff`).
-/

namespace Cdk.Memory

open Mask

/-- The shared words: the latest request, and who has yet to take it and who has. -/
structure Shootdown where
  gen : UInt64
  page : UInt64
  pending : UInt64
  ack : UInt64
  deriving DecidableEq

namespace Shootdown

variable (state : Shootdown) (apicId : UInt32)

/-- The new generation is the result. -/
def beginTlbShootdown (pageVirt targetMask : UInt64) : Shootdown :=
  ⟨state.gen + 1, pageVirt, targetMask, 0⟩

/-- The bit of a core below 64. -/
def bit : UInt64 := 1 <<< apicId.toUInt64

/-- Ask one core.  Nothing is begun for a core whose bit no mask has. -/
def requestTlbShootdown (pageVirt : UInt64) : Shootdown :=
  if 64 ≤ apicId.toNat then state else state.beginTlbShootdown pageVirt (bit apicId)

/-- A core takes the request, and acknowledges it. -/
def takeTlbShootdown : Option UInt64 × Shootdown :=
  if 64 ≤ apicId.toNat then (none, state)
  else
    let cleared := { state with pending := state.pending &&& ~~~bit apicId }
    if state.pending &&& bit apicId = 0 then (none, cleared)
    else (some state.page, { cleared with ack := state.ack ||| bit apicId })

/-- The atomic steps of the cores. -/
inductive Call
  | begin (pageVirt targetMask : UInt64)
  | request (apicId : UInt32) (pageVirt : UInt64)
  | take (apicId : UInt32)
  deriving DecidableEq

/-- The words after a step. -/
def step : Call → Shootdown
  | .begin pageVirt targetMask => state.beginTlbShootdown pageVirt targetMask
  | .request apicId pageVirt => state.requestTlbShootdown apicId pageVirt
  | .take apicId => (state.takeTlbShootdown apicId).2

/-- What a core gets, each time it takes. -/
def results (core : UInt32) : Shootdown → List Call → List (Option UInt64)
  | _, [] => []
  | state, call :: rest =>
    if call = .take core then (state.takeTlbShootdown core).1 :: results core (state.step call) rest
    else results core (state.step call) rest

/-! ## What happens in a sequence of calls -/

/-- The page and the targets of a request that takes effect. -/
def Call.begins : Call → Option (UInt64 × UInt64)
  | .begin pageVirt targetMask => some (pageVirt, targetMask)
  | .request apicId pageVirt =>
    if 64 ≤ apicId.toNat then none else some (pageVirt, bit apicId)
  | .take _ => none

/-- The call asks the core to flush the page. -/
def Call.Asks (core : UInt32) (page : UInt64) (call : Call) : Prop :=
  call = .request core page ∨ ∃ targets, call = .begin page targets ∧ has targets core.toNat

/-- The core takes before anything is begun. -/
def TakesFirst (core : UInt32) (calls : List Call) : Prop :=
  ∃ between late, calls = between ++ .take core :: late ∧
    ∀ call ∈ between, call.begins = none ∧ call ≠ .take core

/-- A request of the page has the core among its targets, and the core takes before the
next one. -/
def Answered (core : UInt32) (page : UInt64) (calls : List Call) : Prop :=
  ∃ early request rest targets, calls = early ++ request :: rest ∧
    request.begins = some (page, targets) ∧ has targets core.toNat ∧ TakesFirst core rest

/-- The latest request has the core among its targets, and the core has taken since. -/
def Acknowledged (core : UInt32) (calls : List Call) : Prop :=
  ∃ early request rest page targets, calls = early ++ request :: rest ∧
    request.begins = some (page, targets) ∧ has targets core.toNat ∧
    (∀ call ∈ rest, call.begins = none) ∧ .take core ∈ rest

section Calls

variable {core : UInt32} {page : UInt64} {call : Call} {calls : List Call}

@[simp] theorem takesFirst_nil : ¬ TakesFirst core [] := by
  rintro ⟨between, late, split, -⟩
  simp at split

@[simp] theorem answered_nil : ¬ Answered core page [] := by
  rintro ⟨early, request, rest, targets, split, -⟩
  simp at split

@[simp] theorem acknowledged_nil : ¬ Acknowledged core [] := by
  rintro ⟨early, request, rest, page, targets, split, -⟩
  simp at split

theorem takesFirst_cons :
    TakesFirst core (call :: calls) ↔
      call = .take core ∨ call.begins = none ∧ call ≠ .take core ∧ TakesFirst core calls := by
  constructor
  · rintro ⟨_ | ⟨first, between⟩, late, split, quiet⟩
    · exact .inl (List.cons.inj split).1
    · obtain ⟨rfl, rfl⟩ := List.cons.inj split
      obtain ⟨here, later⟩ := List.forall_mem_cons.mp quiet
      exact .inr ⟨here.1, here.2, between, late, rfl, later⟩
  · rintro (rfl | ⟨none, other, between, late, rfl, quiet⟩)
    · exact ⟨[], calls, rfl, nofun⟩
    · exact ⟨call :: between, late, rfl, List.forall_mem_cons.mpr ⟨⟨none, other⟩, quiet⟩⟩

/-- Some call of a sequence is the first one, or a later one. -/
theorem exists_split_cons {holds : Call → List Call → Prop} :
    (∃ early request rest, call :: calls = early ++ request :: rest ∧ holds request rest) ↔
      holds call calls ∨
        ∃ early request rest, calls = early ++ request :: rest ∧ holds request rest := by
  constructor
  · rintro ⟨_ | ⟨first, early⟩, request, rest, split, here⟩
    · obtain ⟨rfl, rfl⟩ := List.cons.inj split
      exact .inl here
    · obtain ⟨rfl, rfl⟩ := List.cons.inj split
      exact .inr ⟨early, request, rest, rfl, here⟩
  · rintro (here | ⟨early, request, rest, rfl, later⟩)
    · exact ⟨[], call, calls, rfl, here⟩
    · exact ⟨call :: early, request, rest, rfl, later⟩

theorem answered_cons :
    Answered core page (call :: calls) ↔
      (∃ targets, call.begins = some (page, targets) ∧ has targets core.toNat ∧
        TakesFirst core calls) ∨ Answered core page calls := by
  simp only [Answered, exists_and_left, exists_split_cons]

theorem acknowledged_cons :
    Acknowledged core (call :: calls) ↔
      (∃ page targets, call.begins = some (page, targets) ∧ has targets core.toNat ∧
        (∀ later ∈ calls, later.begins = none) ∧ .take core ∈ calls) ∨
      Acknowledged core calls := by
  simp only [Acknowledged, exists_and_left, exists_split_cons]

end Calls

/-! ## What a core sees of the words -/

/-- What concerns one core: the page, and its bits of the two masks. -/
def seenBy : UInt64 × Bool × Bool :=
  (state.page, has state.pending apicId.toNat, has state.ack apicId.toNat)

variable {state apicId}

theorem has_bit (small : apicId.toNat < 64) (place : Nat) :
    has (bit apicId) place = decide (apicId.toNat = place) := by
  rw [bit, has_one_shiftLeft, UInt32.toNat_toUInt64]
  rwa [UInt32.toNat_toUInt64]

theorem has_of_large (large : 64 ≤ place) : has mask place = false := by
  by_contra set
  exact absurd (lt_of_has (by simpa using set)) (Nat.not_lt.mpr large)

/-- A core gets the page if it is waited for, and then has acknowledged it. -/
theorem takeTlbShootdown_self
    {held : UInt64}
    {waits took : Bool}
    (seen : state.seenBy apicId = (held, waits, took)) :
    (state.takeTlbShootdown apicId).1 = (if waits then some held else none) ∧
      (state.takeTlbShootdown apicId).2.seenBy apicId = (held, false, took || waits) := by
  obtain ⟨rfl, rfl, rfl⟩ : state.page = held ∧ has state.pending apicId.toNat = waits ∧
      has state.ack apicId.toNat = took := by
    simpa [seenBy] using seen
  by_cases large : 64 ≤ apicId.toNat
  · simp [takeTlbShootdown, if_pos large, seenBy, has_of_large large]
  · have small := Nat.lt_of_not_le large
    rw [takeTlbShootdown, if_neg large]
    have tested := @and_ne_zero_iff _ _ state.pending (has_bit small)
    cases pending : has state.pending apicId.toNat <;> simp_all [-has_and, seenBy, has_bit small]

/-- The others leave it alone. -/
theorem seenBy_takeTlbShootdown {core : UInt32} (other : apicId ≠ core) :
    (state.takeTlbShootdown apicId).2.seenBy core = state.seenBy core := by
  have different : apicId.toNat ≠ core.toNat := fun same => other (UInt32.toNat_inj.mp same)
  unfold takeTlbShootdown
  split_ifs with large
  · rfl
  all_goals simp [seenBy, -has_and, has_bit (Nat.lt_of_not_le large), different]

/-- A call that begins something sets everything, and any other is a take or nothing. -/
theorem seenBy_step (core : UInt32) (call : Call) :
    (∃ page targets, call.begins = some (page, targets) ∧ call ≠ .take core ∧
      (state.step call).seenBy core = (page, has targets core.toNat, false)) ∨
    call = .take core ∨
    call.begins = none ∧ call ≠ .take core ∧ (state.step call).seenBy core = state.seenBy core := by
  cases call with
  | begin page targets =>
    exact .inl ⟨page, targets, rfl, nofun, by simp [step, beginTlbShootdown, seenBy]⟩
  | request apicId page =>
    by_cases large : 64 ≤ apicId.toNat
    · refine .inr (.inr ⟨if_pos large, nofun, ?_⟩)
      rw [step, requestTlbShootdown, if_pos large]
    · refine .inl ⟨page, bit apicId, if_neg large, nofun, ?_⟩
      rw [step, requestTlbShootdown, if_neg large]
      simp [beginTlbShootdown, seenBy]
  | take apicId =>
    by_cases own : apicId = core
    · exact .inr (.inl (own ▸ rfl))
    · exact .inr (.inr ⟨rfl, fun same => own (Call.take.inj same), seenBy_takeTlbShootdown own⟩)

/-! ## What a core gets -/

section Runs

variable {core : UInt32} {held page other : UInt64} {waits took : Bool} {call : Call}
  {calls : List Call}

/-- A core gets a page if it was waited for with it and takes first, or if a request of the
page is answered. -/
theorem mem_results_iff (seen : state.seenBy core = (held, waits, took)) :
    some page ∈ results core state calls ↔
      waits ∧ held = page ∧ TakesFirst core calls ∨ Answered core page calls := by
  induction calls generalizing state held waits took with
  | nil => simp [results]
  | cons call rest ih =>
    rw [results, takesFirst_cons, answered_cons]
    obtain ⟨begun, targets, begins, other, next⟩ | rfl | ⟨quiet, other, same⟩ :=
      @seenBy_step state core call
    · rw [if_neg other, ih next]
      simp only [begins, other, false_or, reduceCtorEq, false_and, and_false, Option.some.injEq,
        Prod.mk.injEq]
      aesop
    · obtain ⟨result, next⟩ := takeTlbShootdown_self seen
      rw [if_pos rfl, List.mem_cons, step, ih next, result]
      cases waits <;> simp [Call.begins, @eq_comm _ page]
    · rw [if_neg other, ih (same.trans seen)]
      simp [quiet, other]

/-- A core is acknowledged if it took the latest request. -/
theorem has_ack_iff (seen : state.seenBy core = (held, waits, took)) :
    has (Run.after step state calls).ack core.toNat ↔
      (∀ call ∈ calls, call.begins = none) ∧ (took ∨ waits ∧ .take core ∈ calls) ∨
        Acknowledged core calls := by
  induction calls generalizing state held waits took with
  | nil =>
    have ack : has state.ack core.toNat = took := congrArg (·.2.2) seen
    simp [Run.after, ack]
  | cons call rest ih =>
    rw [Run.after_cons, acknowledged_cons, List.forall_mem_cons, List.mem_cons]
    obtain ⟨begun, targets, begins, other, next⟩ | rfl | ⟨quiet, other, same⟩ :=
      @seenBy_step state core call
    · rw [ih next]
      simp only [begins]
      aesop
    · rw [step, ih (takeTlbShootdown_self seen).2]
      simp [Call.begins]
    · rw [ih (same.trans seen)]
      simp [quiet, other.symm]

/-- What is left of an older request goes with the new one. -/
theorem Call.Asks.begins_or_large (asked : call.Asks core page) :
    call ≠ .take core ∧ (call.begins ≠ none ∨ 64 ≤ core.toNat) := by
  obtain rfl | ⟨targets, rfl, -⟩ := asked
  · refine ⟨nofun, or_iff_not_imp_right.mpr fun small => ?_⟩
    rw [Call.begins, if_neg small]
    exact nofun
  · exact ⟨nofun, .inl nofun⟩

theorem mem_results_of_asks (asked : call.Asks core page) :
    some other ∈ results core state (call :: calls) ↔ Answered core other (call :: calls) := by
  rw [mem_results_iff rfl, or_iff_right]
  rintro ⟨waits, -, first⟩
  obtain ⟨notTake, begins | large⟩ := asked.begins_or_large
  · obtain take | ⟨quiet, -⟩ := takesFirst_cons.mp first
    · exact notTake take
    · exact begins quiet
  · rw [has_of_large large] at waits
    cases waits

theorem has_ack_of_asks (asked : call.Asks core page) :
    has (Run.after step state (call :: calls)).ack core.toNat ↔
      Acknowledged core (call :: calls) := by
  rw [has_ack_iff rfl, or_iff_right]
  rintro ⟨quiet, holds⟩
  obtain ⟨-, begins | large⟩ := asked.begins_or_large
  · exact begins (quiet call List.mem_cons_self)
  · rw [has_of_large large, has_of_large large] at holds
    simp at holds

end Runs

/-- A core that is asked to flush a page gets the page or a full flush, by the time it takes
after some calls of all cores, exactly if such a request is answered.  It is acknowledged
exactly if it has taken the latest request, and so for this page exactly if that, or one before,
was for the page or a full flush. -/
theorem shootdown_taken_iff
    (state : Shootdown)
    (core : UInt32)
    (page : UInt64)
    (request : Call)
    (calls : List Call)
    (asked : request.Asks core page) :
    (some page ∈ results core state (request :: calls ++ [.take core]) ∨
        some 0 ∈ results core state (request :: calls ++ [.take core]) ↔
      Answered core page (request :: calls ++ [.take core]) ∨
        Answered core 0 (request :: calls ++ [.take core])) ∧
    (has (Run.after step state (request :: calls)).ack core.toNat ↔
      Acknowledged core (request :: calls)) ∧
    ((has (Run.after step state (request :: calls)).ack core.toNat →
        some page ∈ results core state (request :: calls) ∨
          some 0 ∈ results core state (request :: calls)) ↔
      (Acknowledged core (request :: calls) →
        Answered core page (request :: calls) ∨ Answered core 0 (request :: calls))) := by
  refine ⟨?_, has_ack_of_asks asked, ?_⟩
  · rw [List.cons_append, mem_results_of_asks asked, mem_results_of_asks asked]
  · rw [has_ack_of_asks asked, mem_results_of_asks asked, mem_results_of_asks asked]

/-- Core 3 is asked for page 1; another core takes, a request to core 4 comes in between and
core 3 finds nothing, and then everybody is asked for a full flush: the full flush counts. -/
theorem shootdown_taken_iff_flushed :
    let boot : Shootdown := ⟨0, 0, 0, 0⟩
    let calls : List Call := [.take 2, .request 4 2, .take 3, .begin 0 0xff]
    results 3 boot (.request 3 1 :: calls ++ [.take 3]) = [none, some 0] ∧
      (Answered 3 1 (.request 3 1 :: calls ++ [.take 3]) ∨
        Answered 3 0 (.request 3 1 :: calls ++ [.take 3])) ∧
      ¬ Acknowledged 3 (.request 3 1 :: calls) := by
  intro boot calls
  have flushed : results 3 boot (.request 3 1 :: calls ++ [.take 3]) = [none, some 0] := by
    decide +kernel
  obtain ⟨taken, acknowledged, -⟩ :=
    shootdown_taken_iff boot 3 1 (.request 3 1) calls (.inl rfl)
  refine ⟨flushed, taken.mp ?_, ?_⟩
  · rw [flushed]
    decide
  · rw [← acknowledged]
    decide +kernel

/-- Core 3 is asked for page 1 and then for page 2 before it takes the first: it never gets page 1,
but the wait for page 1 ends.  A request to core 4 in between takes it away altogether. -/
theorem shootdown_lost :
    let boot : Shootdown := ⟨0, 0, 0, 0⟩
    results 3 boot [.request 3 1, .request 3 2, .take 3, .take 3] = [some 2, none] ∧
      (Run.after step boot [.request 3 1, .request 3 2, .take 3]).ack = bit 3 ∧
      results 3 boot [.request 3 1, .request 4 2, .take 3] = [none] := by
  decide +kernel

end Shootdown
end Cdk.Memory

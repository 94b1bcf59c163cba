import Cdk.Processes.Invariants
import Mathlib.Data.List.Range

/-!
# No process in the queue of a CPU starves

The slots stand in a circle and a CPU looks for its next process from the slot
after the one that it dispatched last.  While a process waits in the queue of the
CPU, every turn that goes to another process brings the CPU nearer to its slot.
-/

namespace Cdk.Processes
namespace ProcessTable

variable {table : ProcessTable} {op : Op} {cpu : Cpu} {slot next : SlotId}

/-- The steps from one slot forward to another, at least one. -/
def distance (last slot : SlotId) : Nat := (slot - last - 1).val + 1

theorem distance_pos (last slot : SlotId) : 1 ≤ distance last slot := Nat.le_add_left 1 _

theorem distance_lt_of_lt : ∀ {last next slot : SlotId}, distance last next < distance last slot →
    distance next slot < distance last slot := by
  decide

theorem eq_of_distance_eq :
    ∀ {last next slot : SlotId}, distance last next = distance last slot → next = slot := by
  decide

theorem distance_order : ∀ (last : SlotId) (step : Fin 8),
    distance last (last + Fin.ofNat maxProcesses (step.val + 1)) = step.val + 1 := by
  decide

@[simp] theorem length_order : (table.order cpu).length = 8 := by
  simp [order, maxProcesses]

theorem getElem_order (bound : index < (table.order cpu).length) :
    distance (table.cursor cpu) (table.order cpu)[index] = index + 1 := by
  simp only [order, List.getElem_map, List.getElem_range]
  exact distance_order (table.cursor cpu) ⟨index, by simpa using bound⟩

theorem exists_getElem_order (slot : SlotId) :
    ∃ (index : Nat) (bound : index < (table.order cpu).length),
      (table.order cpu)[index] = slot := by
  have bound : (slot - table.cursor cpu - 1).val < (table.order cpu).length := by
    rw [length_order]
    exact (slot - table.cursor cpu - 1).isLt
  refine ⟨_, bound, ?_⟩
  apply @eq_of_distance_eq (table.cursor cpu)
  rw [getElem_order]
  rfl

/-- A process waits in the queue of a CPU. -/
structure Queued (table : ProcessTable) (cpu : Cpu) (slot : SlotId) : Prop where
  scheduled : (table.slots slot).scheduled
  ready : (table.slots slot).state = .ready
  home : (table.slots slot).home.toNat = cpu.val

/-- No slot that lies behind a waiting process is taken before it. -/
theorem distance_nextRunnable_le (queued : table.Queued cpu slot)
    (runs : table.nextRunnable cpu = some next) :
    distance (table.cursor cpu) next ≤ distance (table.cursor cpu) slot := by
  obtain ⟨index, bound, isSlot⟩ := @exists_getElem_order table cpu slot
  have eligible : decide (table.runnable slot ∧ table.isHome cpu slot) := by
    simp [runnable, isHome, queued.scheduled, queued.ready, queued.home]
  -- The own queue is not empty, so the other queues are not looked at.
  have own : (table.order cpu).find? (fun other =>
      decide (table.runnable other ∧ table.isHome cpu other)) = some next := by
    unfold nextRunnable at runs
    rw [List.find?_filter] at runs
    rcases Option.or_eq_some_iff.mp runs with own | ⟨empty, _⟩
    · exact own
    · rw [List.find?_eq_none] at empty
      exact absurd eligible (empty slot (isSlot ▸ List.getElem_mem bound))
  obtain ⟨_, found, foundBound, isNext, before⟩ := List.find?_eq_some_iff_getElem.mp own
  have notBefore : ¬ index < found := by
    intro earlier
    have skipped := before index earlier
    rw [isSlot, eligible] at skipped
    cases skipped
  rw [← isNext, ← isSlot, getElem_order, getElem_order]
  omega

/-! ## Turns -/

def FrameEvent.isTurn : FrameEvent → Bool
  | .dispatched _ _ | .switched _ _ _ => true
  | _ => false

/-- The CPU on which an operation may start a process. -/
def Op.runsOn : Op → Option Cpu
  | .dispatchNext cpu | .tick cpu _ _ _ => some cpu
  | _ => none

def turn (cpu : Cpu) (table : ProcessTable) (op : Op) : Bool :=
  op.runsOn == some cpu && (table.events op).any FrameEvent.isTurn

def turns (cpu : Cpu) (table : ProcessTable) : List Op → Nat
  | [] => 0
  | op :: rest => (table.turn cpu op).toNat + (table.step op).turns cpu rest

theorem cursor_of_not_turn (consistent : table.Consistent) (noTurn : table.turn cpu op = false) :
    (table.step op).cursor cpu = table.cursor cpu := by
  have change := step_change table op
  unfold turn at noTurn
  generalize table.step op = next, table.events op = frames at change noTurn ⊢
  have otherCpu : ∀ {owner : Cpu} {slot : SlotId}, owner ≠ cpu →
      Function.update table.cursor owner slot cpu = table.cursor cpu := fun different =>
    Function.update_of_ne different.symm ..
  cases change with
  | @dispatched owner slot _ _ =>
    apply otherCpu
    simpa [Op.runsOn, FrameEvent.isTurn] using noTurn
  | @switched owner frame slice budget slot next _ _ _ isSwitched =>
    subst isSwitched
    apply otherCpu
    simpa [Op.runsOn, FrameEvent.isTurn] using noTurn
  | selected _ _ sameCursor => rw [sameCursor]
  | orphaned _ current notFound => exact absurd notFound (consistent.find_current current)
  | unchanged | inserted | marked | charged | left | unblocked | reaped => rfl

theorem Queued.charge (queued : table.Queued cpu slot) (owner : Cpu) (charged : SlotId) :
    (table.charge owner charged).Queued cpu slot := by
  by_cases isSlot : slot = charged
  · subst slot
    constructor <;> rw [charge_slots_self]
    · exact queued.scheduled
    · exact queued.ready
    · exact queued.home
  · constructor <;> rw [charge_slots_of_ne isSlot]
    · exact queued.scheduled
    · exact queued.ready
    · exact queued.home

/-- A turn goes to the waiting process or to one that lies before it. -/
theorem cursor_of_turn (consistent : table.Consistent) (queued : table.Queued cpu slot)
    (isTurn : table.turn cpu op) :
    ((table.step op).slots ((table.step op).cursor cpu)).state = .running ∧
      distance (table.cursor cpu) ((table.step op).cursor cpu) ≤
        distance (table.cursor cpu) slot := by
  have change := step_change table op
  unfold turn at isTurn
  rw [Bool.and_eq_true, beq_iff_eq] at isTurn
  obtain ⟨isOwner, isTurn⟩ := isTurn
  generalize table.step op = after, table.events op = frames at change isTurn ⊢
  cases change with
  | @dispatched owner next _ runs =>
    obtain rfl : owner = cpu := Option.some.inj isOwner
    have isNext : (table.runSlot owner next).cursor owner = next := Function.update_self ..
    rw [isNext, runSlot_slots_self]
    exact ⟨rfl, distance_nextRunnable_le queued runs⟩
  | @switched owner frame slice budget old next _ isCurrent runs isSwitched =>
    obtain rfl : owner = cpu := Option.some.inj isOwner
    subst isSwitched
    have isNext : (((table.charge owner old).renew owner).switchTo owner old next
        frame).cursor owner = next := Function.update_self ..
    rw [isNext, consistent.switchTo_slots isCurrent runs]
    have notBehind := distance_nextRunnable_le (queued.charge owner old) runs
    exact ⟨rfl, notBehind⟩
  | orphaned _ current notFound => exact absurd notFound (consistent.find_current current)
  | left => simp [FrameEvent.isTurn] at isTurn
  | unchanged | inserted | selected | marked | charged | unblocked | reaped => cases isTurn

/-- While a process waits, a turn that goes to another one brings the CPU nearer. -/
theorem distance_step (consistent : table.Consistent) (queued : table.Queued cpu slot)
    (still : (table.step op).Queued cpu slot) :
    distance ((table.step op).cursor cpu) slot + (table.turn cpu op).toNat ≤
      distance (table.cursor cpu) slot := by
  cases isTurn : table.turn cpu op with
  | false => rw [cursor_of_not_turn consistent isTurn, Bool.toNat_false, Nat.add_zero]
  | true =>
    obtain ⟨running, notBehind⟩ := cursor_of_turn consistent queued isTurn
    have different : distance (table.cursor cpu) ((table.step op).cursor cpu) ≠
        distance (table.cursor cpu) slot := by
      intro same
      rw [eq_of_distance_eq same, still.ready] at running
      cases running
    exact distance_lt_of_lt (lt_of_le_of_ne notBehind different)

/-- The process stays in the queue during the operations. -/
def QueuedThrough (cpu : Cpu) (slot : SlotId) (table : ProcessTable) (ops : List Op) : Prop :=
  ∀ early, early <+: ops → (table.after early).Queued cpu slot

theorem queuedThrough_cons (queued : table.Queued cpu slot)
    (later : QueuedThrough cpu slot (table.step op) ops) :
    QueuedThrough cpu slot table (op :: ops) := by
  intro early isPrefix
  rcases List.prefix_cons_iff.mp isPrefix with rfl | ⟨rest, rfl, restPrefix⟩
  · exact queued
  · exact later rest restPrefix

/-- A process does not wait while the CPU takes as many turns as its distance. -/
theorem leaves_queue (consistent : table.Consistent) (queued : table.Queued cpu slot)
    (fresh : Run.Along step Fresh table ops)
    (enough : distance (table.cursor cpu) slot ≤ table.turns cpu ops) :
    ∃ early op late, ops = early ++ op :: late ∧ QueuedThrough cpu slot table early ∧
      ¬ (table.after (early ++ [op])).Queued cpu slot ∧
      table.turns cpu (early ++ [op]) ≤ distance (table.cursor cpu) slot := by
  induction ops generalizing table with
  | nil => exact absurd enough (Nat.not_le.mpr (distance_pos _ _))
  | cons op rest ih =>
    obtain ⟨freshOp, freshRest⟩ := fresh
    by_cases still : (table.step op).Queued cpu slot
    · have nearer := distance_step consistent queued still
      simp only [turns] at enough
      obtain ⟨early, last, late, rfl, through, leaves, bounded⟩ :=
        ih (step_consistent consistent freshOp) still freshRest (by omega)
      refine ⟨op :: early, last, late, rfl, queuedThrough_cons queued through, leaves, ?_⟩
      simp only [List.cons_append, turns]
      omega
    · refine ⟨[], op, rest, rfl, ?_, still, ?_⟩
      · intro early isPrefix
        rw [List.prefix_nil.mp isPrefix]
        exact queued
      · have near := distance_pos (table.cursor cpu) slot
        have atMost := Bool.toNat_le (table.turn cpu op)
        simp only [List.nil_append, turns]
        omega

/-- The process leaves the queue only to run. -/
def StaysUntilRun (cpu : Cpu) (slot : SlotId) (table : ProcessTable) (ops : List Op) : Prop :=
  ∀ early op late, ops = early ++ op :: late → QueuedThrough cpu slot table early →
    (table.after (early ++ [op])).Queued cpu slot ∨
      ((table.after (early ++ [op])).slots slot).state = .running

theorem runs_within_turns (consistent : table.Consistent) (queued : table.Queued cpu slot)
    (fresh : Run.Along step Fresh table ops) (stays : StaysUntilRun cpu slot table ops)
    (enough : maxProcesses ≤ table.turns cpu ops) :
    ∃ early late, ops = early ++ late ∧ table.turns cpu early ≤ maxProcesses ∧
      ((table.after early).slots slot).state = .running := by
  have near : distance (table.cursor cpu) slot ≤ maxProcesses := (slot - table.cursor cpu - 1).isLt
  obtain ⟨early, op, late, isRun, through, leaves, bounded⟩ :=
    leaves_queue consistent queued fresh (near.trans enough)
  refine ⟨early ++ [op], late, by rw [isRun, List.append_assoc]; rfl, bounded.trans near, ?_⟩
  exact (stays early op late isRun through).resolve_left leaves

end ProcessTable
end Cdk.Processes

import Cdk.Processes.Table

/-!
# Consistency of the process table

A CPU runs a process exactly if one slot is running with that CPU as its home.  Four updates keep
this: a process changes while no CPU runs it, it leaves its CPU, it is given an idle CPU, or
something changes that the agreement does not speak of.
-/

namespace Cdk.Processes
namespace ProcessTable

variable {table next : ProcessTable} {cpu : Cpu} {slot : SlotId} {pid : UInt32}
  {update : Process → Process}

/-- Slots and CPUs agree on what runs where. -/
structure Consistent (table : ProcessTable) : Prop where
  distinct : ∀ {left right : SlotId},
    (table.slots left).state ≠ .free → (table.slots right).state ≠ .free →
      (table.slots left).pid = (table.slots right).pid → left = right
  current_runs : ∀ {cpu : Cpu} {pid : UInt32}, table.current cpu = some pid →
    ∃ slot, (table.slots slot).pid = pid ∧ (table.slots slot).state = .running ∧
      (table.slots slot).home = UInt8.ofNat cpu.val
  running_is_current : ∀ {slot : SlotId}, (table.slots slot).state = .running →
    ∃ cpu, table.current cpu = some (table.slots slot).pid

theorem consistent_new : new.Consistent where
  distinct occupied := absurd rfl occupied
  current_runs current := nomatch current
  running_is_current running := nomatch running

namespace Consistent

variable (consistent : table.Consistent)
include consistent

theorem find_eq_some (occupied : (table.slots slot).state ≠ .free) :
    table.find (table.slots slot).pid = some slot := by
  cases found : table.find (table.slots slot).pid with
  | none => exact absurd rfl (find_eq_none_iff.mp found slot occupied)
  | some other =>
    obtain ⟨otherOccupied, samePid⟩ := of_find_eq_some found
    rw [consistent.distinct otherOccupied occupied samePid]

theorem home_of_current (running : (table.slots slot).state = .running)
    (current : table.current cpu = some (table.slots slot).pid) :
    (table.slots slot).home = UInt8.ofNat cpu.val := by
  obtain ⟨runner, samePid, runs, home⟩ := consistent.current_runs current
  have same : runner = slot := consistent.distinct (by simp [runs]) (by simp [running]) samePid
  rwa [same] at home

theorem currentSlot_eq_some_iff :
    table.currentSlot cpu = some slot ↔ (table.slots slot).state = .running ∧
        table.current cpu = some (table.slots slot).pid := by
  rw [ProcessTable.currentSlot_eq_some_iff]
  constructor
  · rintro ⟨current, found⟩
    obtain ⟨runner, samePid, runs, _⟩ := consistent.current_runs current
    have same : runner = slot :=
      consistent.distinct (by simp [runs]) (of_find_eq_some found).1 samePid
    exact ⟨same ▸ runs, current⟩
  · rintro ⟨running, current⟩
    exact ⟨current, consistent.find_eq_some (by simp [running])⟩

theorem runs (isCurrent : table.currentSlot cpu = some slot) :
    (table.slots slot).state = .running :=
  (consistent.currentSlot_eq_some_iff.mp isCurrent).1

theorem find_current (current : table.current cpu = some pid) : table.find pid ≠ none := by
  obtain ⟨runner, rfl, runs, _⟩ := consistent.current_runs current
  simp [consistent.find_eq_some (by simp [runs] : (table.slots runner).state ≠ .free)]

theorem cpu_unique {left right : Cpu} (onLeft : table.current left = some pid)
    (onRight : table.current right = some pid) : left = right := by
  obtain ⟨slot, rfl, running, _⟩ := consistent.current_runs onLeft
  apply cpu_ext
  exact (consistent.home_of_current running onLeft).symm.trans
    (consistent.home_of_current running onRight)

/-! ## The four updates -/

/-- Nothing changes but what the agreement does not speak of. -/
theorem congr (samePid : ∀ slot, (next.slots slot).pid = (table.slots slot).pid)
    (sameState : ∀ slot, (next.slots slot).state = (table.slots slot).state)
    (sameHome : ∀ slot, (table.slots slot).state = .running →
      (next.slots slot).home = (table.slots slot).home)
    (sameCurrent : next.current = table.current) : next.Consistent where
  distinct {left right} leftOccupied rightOccupied same := by
    rw [samePid, samePid] at same
    exact consistent.distinct (sameState left ▸ leftOccupied) (sameState right ▸ rightOccupied) same
  current_runs {cpu pid} current := by
    rw [sameCurrent] at current
    obtain ⟨slot, isPid, running, home⟩ := consistent.current_runs current
    exact ⟨slot, (samePid slot).trans isPid, (sameState slot).trans running,
      (sameHome slot running).trans home⟩
  running_is_current {slot} := by
    rw [sameState, samePid, sameCurrent]
    exact consistent.running_is_current

/-- A process changes in what the agreement does not speak of. -/
theorem modify_same (samePid : (update (table.slots slot)).pid = (table.slots slot).pid)
    (sameState : (update (table.slots slot)).state = (table.slots slot).state)
    (sameHome : (update (table.slots slot)).home = (table.slots slot).home) :
    (table.modify slot update).Consistent := by
  have same : ∀ other, ((table.modify slot update).slots other).pid = (table.slots other).pid ∧
      ((table.modify slot update).slots other).state = (table.slots other).state ∧
      ((table.modify slot update).slots other).home = (table.slots other).home := by
    intro other
    by_cases isSlot : other = slot
    · subst other
      rw [modify_slots_self]
      exact ⟨samePid, sameState, sameHome⟩
    · rw [modify_slots_of_ne isSlot]
      exact ⟨rfl, rfl, rfl⟩
  exact consistent.congr (fun other => (same other).1) (fun other => (same other).2.1)
    (fun other _ => (same other).2.2) rfl

/-- One slot changes, and the CPUs that run other slots go on.  The process in it has an
identifier of its own, and a CPU runs it exactly if it is running with that CPU as its home. -/
theorem of_slot (others : ∀ other, other ≠ slot → next.slots other = table.slots other)
    (own : (next.slots slot).state ≠ .free → ∀ other, other ≠ slot →
      (table.slots other).state ≠ .free → (table.slots other).pid ≠ (next.slots slot).pid)
    (goOn : ∀ cpu other, table.currentSlot cpu = some other → other ≠ slot →
      next.current cpu = table.current cpu)
    (runs : ∀ cpu pid, next.current cpu = some pid →
      (next.slots slot).pid = pid ∧ (next.slots slot).state = .running ∧
          (next.slots slot).home = UInt8.ofNat cpu.val ∨
        table.current cpu = some pid ∧ table.currentSlot cpu ≠ some slot)
    (running : (next.slots slot).state = .running →
      ∃ cpu, next.current cpu = some (next.slots slot).pid) : next.Consistent where
  distinct {left right} leftOccupied rightOccupied samePid := by
    by_cases leftIs : left = slot <;> by_cases rightIs : right = slot
    · rw [leftIs, rightIs]
    · subst left
      rw [others right rightIs] at rightOccupied samePid
      exact absurd samePid.symm (own leftOccupied right rightIs rightOccupied)
    · subst right
      rw [others left leftIs] at leftOccupied samePid
      exact absurd samePid (own rightOccupied left leftIs leftOccupied)
    · rw [others left leftIs] at leftOccupied samePid
      rw [others right rightIs] at rightOccupied samePid
      exact consistent.distinct leftOccupied rightOccupied samePid
  current_runs {cpu pid} current := by
    obtain here | ⟨current, elsewhere⟩ := runs cpu pid current
    · exact ⟨slot, here⟩
    obtain ⟨runner, rfl, running, home⟩ := consistent.current_runs current
    have different : runner ≠ slot := fun same =>
      elsewhere (same ▸ consistent.currentSlot_eq_some_iff.mpr ⟨running, current⟩)
    refine ⟨runner, ?_⟩
    rw [others runner different]
    exact ⟨rfl, running, home⟩
  running_is_current {other} runs := by
    by_cases isSlot : other = slot
    · subst other
      exact running runs
    rw [others other isSlot] at runs ⊢
    obtain ⟨cpu, current⟩ := consistent.running_is_current runs
    have isCurrent := consistent.currentSlot_eq_some_iff.mpr ⟨runs, current⟩
    exact ⟨cpu, (goOn cpu other isCurrent isSlot).trans current⟩

/-- A process that no CPU runs changes. -/
theorem modify_resting (rests : (table.slots slot).state ≠ .running)
    (still : (update (table.slots slot)).state ≠ .running)
    (own : (update (table.slots slot)).state ≠ .free → ∀ other, other ≠ slot →
      (table.slots other).state ≠ .free →
        (table.slots other).pid ≠ (update (table.slots slot)).pid) :
    (table.modify slot update).Consistent := by
  refine consistent.of_slot (fun _ => modify_slots_of_ne) ?_ (fun _ _ _ _ => rfl) ?_ ?_
  · rwa [modify_slots_self]
  · exact fun _ _ current => .inr ⟨current, fun isCurrent =>
      rests (consistent.runs isCurrent)⟩
  · rw [modify_slots_self]
    exact fun running => absurd running still

theorem leave (isCurrent : table.currentSlot cpu = some slot)
    (samePid : (update (table.slots slot)).pid = (table.slots slot).pid)
    (stops : (update (table.slots slot)).state ≠ .running) :
    ((table.setCurrent cpu none).modify slot update).Consistent := by
  obtain ⟨runs, onCpu⟩ := consistent.currentSlot_eq_some_iff.mp isCurrent
  refine consistent.of_slot (fun _ => modify_slots_of_ne) ?_ ?_ ?_ ?_
  · intro _ other different occupied same
    rw [modify_slots_self] at same
    exact different (consistent.distinct occupied (by simp [runs]) (same.trans samePid))
  · intro other runner isRunner different
    rw [modify_current, setCurrent_current_of_ne]
    rintro rfl
    exact different (Option.some.inj (isRunner.symm.trans isCurrent))
  · intro other pid current
    have otherCpu : other ≠ cpu := by
      rintro rfl
      rw [modify_current, setCurrent_current_self] at current
      cases current
    rw [modify_current, setCurrent_current_of_ne otherCpu] at current
    refine .inr ⟨current, fun isOther => otherCpu ?_⟩
    exact consistent.cpu_unique (consistent.currentSlot_eq_some_iff.mp isOther).2 onCpu
  · rw [modify_slots_self]
    exact fun running => absurd running stops

theorem runSlot (idle : table.current cpu = none) (ready : (table.slots slot).state = .ready) :
    (table.runSlot cpu slot).Consistent := by
  refine consistent.of_slot (fun _ => runSlot_slots_of_ne) ?_ ?_ ?_ ?_
  · intro _ other different occupied same
    rw [runSlot_slots_self] at same
    exact different (consistent.distinct occupied (by simp [ready]) same)
  · intro other runner isRunner _
    rw [runSlot_current_of_ne]
    rintro rfl
    rw [(consistent.currentSlot_eq_some_iff.mp isRunner).2] at idle
    cases idle
  · intro other pid current
    by_cases isCpu : other = cpu
    · subst other
      rw [runSlot_current_self] at current
      rw [runSlot_slots_self]
      exact .inl ⟨Option.some.inj current, rfl, rfl⟩
    rw [runSlot_current_of_ne isCpu] at current
    refine .inr ⟨current, fun isOther => ?_⟩
    rw [consistent.runs isOther] at ready
    cases ready
  · rw [runSlot_slots_self]
    exact fun _ => ⟨cpu, runSlot_current_self⟩

end Consistent

end ProcessTable
end Cdk.Processes

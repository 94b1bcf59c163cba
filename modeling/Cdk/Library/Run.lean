import Mathlib.Data.List.Basic

/-!
# Runs of a labelled transition system

A system is a total step function; the labels carry every choice that it does not make itself.
`after` is the state a run ends in and `Along` says that every step meets a condition.  A
statement about the end of every run is one about every reachable state.
-/

namespace Run

variable {State : Type u} {Label : Type v}
variable (step : State → Label → State)
variable (condition : State → Label → Prop)

def after (first : State) (labels : List Label) : State := labels.foldl step first

/-- Every step of the run meets the condition. -/
def Along : State → List Label → Prop
  | _, [] => True
  | state, label :: rest =>
    condition state label ∧ Along (step state label) rest

instance decidableAlong [∀ state label, Decidable (condition state label)] :
    ∀ (first : State) (labels : List Label), Decidable (Along step condition first labels)
  | _, [] => isTrue trivial
  | first, label :: rest =>
    have := decidableAlong (step first label) rest
    inferInstanceAs (Decidable (condition first label ∧
        Along step condition (step first label) rest))

variable {step condition}

@[simp] theorem after_nil (first : State) : after step first [] = first :=
  rfl

@[simp] theorem after_cons (first : State) (label : Label) (rest : List Label) :
    after step first (label :: rest) = after step (step first label) rest :=
  rfl

theorem after_append (first : State) (early late : List Label) : after step first (early ++ late) =
    after step (after step first early) late :=
  List.foldl_append

theorem along_append :
    Along step condition first (early ++ late) ↔ Along step condition first early ∧
        Along step condition (after step first early) late := by
  induction early generalizing first with
  | nil => simp [Along]
  | cons label rest ih =>
    simp only [List.cons_append, Along, ih, after_cons, and_assoc]

theorem along_congr (same : ∀ state label, condition state label ↔ other state label) :
    Along step condition first labels ↔ Along step other first labels := by
  induction labels generalizing first with
  | nil => rfl
  | cons label rest ih =>
    exact and_congr (same first label) ih

theorem along_and (along : Along step condition first labels)
    (also : Along step other first labels) :
    Along step (fun state label => condition state label ∧ other state label) first labels := by
  induction labels generalizing first with
  | nil => trivial
  | cons label rest ih =>
    exact ⟨⟨along.1, also.1⟩, ih along.2 also.2⟩

variable {Holds : State → Prop}

/-- The invariant rule: what holds first and is kept by every step that meets
the condition holds at the end. -/
theorem invariant {first : State} {labels : List Label} (initially : Holds first)
    (kept : ∀ state label, Holds state → condition state label → Holds (step state label))
    (along : Along step condition first labels) : Holds (after step first labels) := by
  induction labels generalizing first with
  | nil => exact initially
  | cons label rest ih =>
    exact ih (kept _ _ initially along.1) along.2

/-- The invariant rule for steps that need no condition. -/
theorem always {first : State} (labels : List Label) (initially : Holds first)
    (kept : ∀ state label, Holds state → Holds (step state label)) :
    Holds (after step first labels) := by
  induction labels generalizing first with
  | nil => exact initially
  | cons label rest ih =>
    exact ih (kept _ _ initially)

/-- What the steps of a run show, in order. -/
def outputs {Sight : Type w} (step : State → Label → State) (out : State → Label → List Sight) :
    State → List Label → List Sight
  | _, [] => []
  | state, label :: rest => out state label ++ outputs step out (step state label) rest

/-- The invariant rule for a state together with what was shown so far. -/
theorem outputs_invariant {Sight : Type w} {out : State → Label → List Sight}
    {Holds : State → List Sight → Prop} {first : State} {labels : List Label} {seen : List Sight}
    (initially : Holds first seen)
    (kept : ∀ state seen label, Holds state seen → condition state label →
      Holds (step state label) (seen ++ out state label))
    (along : Along step condition first labels) :
    Holds (after step first labels) (seen ++ outputs step out first labels) := by
  induction labels generalizing first seen with
  | nil => simpa [outputs] using initially
  | cons label rest ih =>
    rw [outputs, ← List.append_assoc]
    exact ih (kept _ _ _ initially along.1) along.2

theorem of_mem {label : Label} {labels : List Label} (present : label ∈ labels)
    (brings : ∀ state, Holds (step state label))
    (kept : ∀ state later, Holds state → Holds (step state later)) (first : State) :
    Holds (after step first labels) := by
  obtain ⟨early, late, rfl⟩ := List.append_of_mem present
  rw [after_append, after_cons]
  exact always late (brings _) kept

/-- What does not hold first and holds at the end begins to hold at some step. -/
theorem exists_turn {first : State} {labels : List Label} (initially : ¬Holds first)
    (lastly : Holds (after step first labels)) :
    ∃ early label late, labels = early ++ label :: late ∧ ¬Holds (after step first early) ∧
        Holds (step (after step first early) label) := by
  induction labels generalizing first with
  | nil => exact absurd lastly initially
  | cons label rest ih =>
    by_cases turned : Holds (step first label)
    · exact ⟨[], label, rest, rfl, initially, turned⟩
    · obtain ⟨early, later, late, split, before, turns⟩ := ih turned lastly
      exact ⟨label :: early, later, late, by rw [split, List.cons_append], before, turns⟩

theorem exists_filling {field : State → Option Value}
    (stays : ∀ state label value, field state = some value → field (step state label) = some value)
    (unset : field first = none) (filled : field (after step first labels) = some value) :
    ∃ early label late, labels = early ++ label :: late ∧ field (after step first early) = none ∧
        field (step (after step first early) label) = some value := by
  obtain ⟨early, label, late, split, before, turns⟩ :=
    @exists_turn _ _ step (fun state => field state = some value) first labels
      (by simp [unset]) filled
  refine ⟨early, label, late, split, ?_, turns⟩
  cases other : field (after step first early) with
  | none => rfl
  | some earlier =>
    have kept := stays _ label _ other
    rw [turns] at kept
    exact absurd (other.trans kept.symm) before

/-- Some step of the run shows the sight. -/
def Observed {Sight : Type w} (step : State → Label → State) (shows : State → Label → Sight → Prop)
    (first : State) (labels : List Label) (sight : Sight) : Prop :=
  ∃ early label late, labels = early ++ label :: late ∧ shows (after step first early) label sight

variable {Sight : Type w} {shows : State → Label → Sight → Prop}

theorem not_observed_nil (first : State) (sight : Sight) : ¬Observed step shows first [] sight := by
  rintro ⟨early, label, late, split, _⟩
  cases early <;> cases split

theorem observed_concat :
    Observed step shows first (labels ++ [last]) sight ↔ Observed step shows first labels sight ∨
        shows (after step first labels) last sight := by
  constructor
  · rintro ⟨early, label, late, split, shown⟩
    rcases List.eq_nil_or_concat late with rfl | ⟨rest, final, rfl⟩
    · obtain ⟨rfl, same⟩ := List.append_inj' split rfl
      cases same
      exact .inr shown
    · have regrouped : labels ++ [last] = (early ++ label :: rest) ++ [final] := by
        simpa using split
      obtain ⟨rfl, _⟩ := List.append_inj' regrouped rfl
      exact .inl ⟨early, label, rest, rfl, shown⟩
  · rintro (⟨early, label, late, rfl, shown⟩ | shown)
    · exact ⟨early, label, late ++ [last], by simp, shown⟩
    · exact ⟨labels, last, [], rfl, shown⟩

end Run

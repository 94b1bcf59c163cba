import Cdk.Library.ByteFormat
import Cdk.Library.Run
import Mathlib.Algebra.BigOperators.Group.List.Basic
import Mathlib.Data.List.Induction
import Mathlib.Data.List.Nodup

/-!
# The graph of memory objects

Objects are kept by id, in no order that matters, with a running total of their sizes.  An id
too long for a key becomes the empty one; a registration adds to the total also where it
replaces an object.
-/

namespace Cdk.Memory

open ByteFormat Run

/-- Objects the graph holds. -/
def maxObjects : Nat := 16

/-- Bytes of a key. -/
def maxIdLen : Nat := 64

/-- An object, by its key. -/
structure MemoryObject where
  objectId : Bytes
  size : Nat
  references : Nat
  deriving DecidableEq

/-- The objects and the running total.  Sizes are numbers: their sums are taken not to overflow. -/
structure MemoryGraph where
  objects : List MemoryObject
  totalMemory : Nat

namespace MemoryGraph

/-- No objects. -/
def new : MemoryGraph := ⟨[], 0⟩

/-- `String::from_str` with `unwrap_or_default`. -/
def key (id : Bytes) : Bytes := if id.length ≤ maxIdLen then id else []

variable (graph : MemoryGraph) (id : Bytes)

/-- The object of an id. -/
def get : Option MemoryObject := graph.objects.find? (·.objectId == key id)

/-- Insert an object, in the place of the one with its key if there is one. -/
def registerObject (size : Nat) : MemoryGraph :=
  match graph.get id with
  | some old => ⟨⟨key id, size, 0⟩ :: graph.objects.erase old, graph.totalMemory + size⟩
  | none =>
    if graph.objects.length < maxObjects then
      ⟨⟨key id, size, 0⟩ :: graph.objects, graph.totalMemory + size⟩
    else graph

/-- Change the count of references of an object. -/
def modifyReferences (update : Nat → Nat) : MemoryGraph :=
  match graph.get id with
  | none => graph
  | some old =>
    { graph with
      objects := { old with references := update old.references } :: graph.objects.erase old }

/-- One reference more. -/
def addReference : MemoryGraph := graph.modifyReferences id (· + 1)

/-- One reference less, if there is one. -/
def removeReference : MemoryGraph := graph.modifyReferences id (· - 1)

/-- Remove an object, and take its size from the total. -/
def removeObject : Option Nat × MemoryGraph :=
  match graph.get id with
  | none => (none, graph)
  | some old => (some old.size, ⟨graph.objects.erase old, graph.totalMemory - old.size⟩)

/-- The calls on a graph. -/
inductive Call where
  | register (id : Bytes) (size : Nat)
  | addReference (id : Bytes)
  | removeReference (id : Bytes)
  | remove (id : Bytes)

/-- The graph after a call. -/
def step : Call → MemoryGraph
  | .register id size => graph.registerObject id size
  | .addReference id => graph.addReference id
  | .removeReference id => graph.removeReference id
  | .remove id => (graph.removeObject id).2

/-- The sum of the sizes. -/
def sizes : Nat := (graph.objects.map MemoryObject.size).sum

/-- The size of the object that a registration replaces. -/
def replaced : Call → Nat
  | .register id _ => (graph.get id).elim 0 MemoryObject.size
  | _ => 0

/-- What a run has replaced. -/
def replacedIn : MemoryGraph → List Call → Nat
  | _, [] => 0
  | graph, call :: rest => graph.replaced call + replacedIn (graph.step call) rest

variable {graph id}

theorem sizes_erase (found : graph.get id = some old) :
    old.size + ((graph.objects.erase old).map MemoryObject.size).sum = graph.sizes :=
  List.sum_map_erase _ (List.mem_of_find?_eq_some found)

/-- A call moves the total and the sum alike, but for what it replaces. -/
theorem totalMemory_step (call : Call) (total : graph.totalMemory = graph.sizes + extra) :
    (graph.step call).totalMemory = (graph.step call).sizes + (extra + graph.replaced call) := by
  cases call with
  | register id size =>
    simp only [step, registerObject, replaced]
    cases found : graph.get id with
    | none =>
      dsimp only [Option.elim_none]
      split
      · simp only [sizes, List.map_cons, List.sum_cons] at total ⊢
        omega
      · exact total
    | some old =>
      have rest := sizes_erase found
      simp only [sizes, List.map_cons, List.sum_cons, Option.elim_some] at total rest ⊢
      omega
  | addReference id | removeReference id =>
    simp only [step, addReference, removeReference, modifyReferences, replaced]
    cases found : graph.get id with
    | none => exact total
    | some old =>
      rw [total, ← sizes_erase found]
      rfl
  | remove id =>
    simp only [step, removeObject, replaced]
    cases found : graph.get id with
    | none => exact total
    | some old =>
      have rest := sizes_erase found
      simp only [sizes] at total rest ⊢
      omega

theorem totalMemory_after (calls : List Call) (total : graph.totalMemory = graph.sizes + extra) :
    (after step graph calls).totalMemory =
      (after step graph calls).sizes + (extra + replacedIn graph calls) := by
  induction calls generalizing graph extra with
  | nil => exact total
  | cons call rest ih =>
    rw [after_cons, ih (totalMemory_step call total), replacedIn, Nat.add_assoc]

theorem replacedIn_eq_zero_iff (calls : List Call) :
    replacedIn graph calls = 0 ↔
      ∀ early call late, calls = early ++ call :: late →
        (after step graph early).replaced call = 0 := by
  induction calls generalizing graph with
  | nil => simp [replacedIn]
  | cons first rest ih =>
    rw [replacedIn, Nat.add_eq_zero_iff, ih]
    constructor
    · rintro ⟨here, later⟩ (_ | ⟨_, early⟩) call late split
      · obtain ⟨rfl, -⟩ := List.cons.inj split
        exact here
      · obtain ⟨rfl, rest'⟩ := List.cons.inj split
        exact later early call late rest'
    · intro all
      refine ⟨all [] first rest rfl, fun early call late split => ?_⟩
      exact all (first :: early) call late (congrArg (first :: ·) split)

/-! ## Entries of their own -/

/-- The keys of the objects. -/
def keys (graph : MemoryGraph) : List Bytes := graph.objects.map MemoryObject.objectId

theorem objectId_of_get (found : graph.get id = some object) : object.objectId = key id := by
  simpa using List.find?_some found

theorem get_eq_none_iff : graph.get id = none ↔ key id ∉ graph.keys := by
  rw [get, List.find?_eq_none]
  simp [keys]

/-- The object of an id and the others. -/
theorem keys_perm (found : graph.get id = some old) :
    graph.keys.Perm (key id :: (graph.objects.erase old).map MemoryObject.objectId) := by
  rw [← objectId_of_get found]
  exact (List.perm_cons_erase (List.mem_of_find?_eq_some found)).map _

/-- A call leaves the keys as they are, adds that of a new object or removes some. -/
theorem keys_step_cases (call : Call) :
    ((graph.step call).keys.Perm graph.keys ∧ ∀ id size, call = .register id size →
        key id ∈ graph.keys ∨ maxObjects ≤ graph.objects.length) ∨
      (∃ id size, call = .register id size ∧ key id ∉ graph.keys ∧
        graph.objects.length < maxObjects ∧ (graph.step call).keys = key id :: graph.keys) ∨
      (∃ id, call = .remove id) ∧ (graph.step call).keys.Sublist graph.keys := by
  cases call with
  | register id size =>
    simp only [step, registerObject]
    cases found : graph.get id with
    | none =>
      by_cases room : graph.objects.length < maxObjects
      · exact .inr (.inl ⟨id, size, rfl, get_eq_none_iff.mp found, room, by rw [if_pos room]; rfl⟩)
      · refine .inl ⟨by rw [if_neg room], ?_⟩
        rintro _ _ ⟨⟩
        exact .inr (Nat.le_of_not_lt room)
    | some old =>
      refine .inl ⟨(keys_perm found).symm, ?_⟩
      rintro _ _ ⟨⟩
      exact .inl ((keys_perm found).mem_iff.mpr List.mem_cons_self)
  | addReference id | removeReference id =>
    refine .inl ⟨?_, nofun⟩
    simp only [step, addReference, removeReference, modifyReferences]
    cases found : graph.get id with
    | none => exact .refl _
    | some old =>
      have same := (keys_perm found).symm
      rwa [← objectId_of_get found] at same
  | remove id =>
    refine .inr (.inr ⟨⟨id, rfl⟩, ?_⟩)
    simp only [step, removeObject]
    cases found : graph.get id with
    | none => exact .refl _
    | some old => exact List.erase_sublist.map _

theorem nodup_keys_after (calls : List Call) : (after step new calls).keys.Nodup := by
  let Holds (graph : MemoryGraph) : Prop := graph.keys.Nodup
  have initially : Holds new := List.nodup_nil
  refine always calls initially fun graph call nodup => ?_
  obtain ⟨same, -⟩ | ⟨id, size, -, absent, -, added⟩ | ⟨-, fewer⟩ := keys_step_cases call
  · exact same.nodup_iff.mpr nodup
  · change (graph.step call).keys.Nodup
    rw [added]
    exact List.nodup_cons.mpr ⟨absent, nodup⟩
  · exact nodup.sublist fewer

/-- With distinct keys, the object of an id is the one with its key. -/
theorem get_eq_some_iff (nodup : graph.keys.Nodup) :
    graph.get id = some object ↔ object ∈ graph.objects ∧ object.objectId = key id := by
  constructor
  · intro found
    exact ⟨List.mem_of_find?_eq_some found, objectId_of_get found⟩
  · rintro ⟨listed, named⟩
    cases found : graph.get id with
    | none => exact absurd (named ▸ List.mem_map_of_mem listed) (get_eq_none_iff.mp found)
    | some other =>
      have same : other.objectId = object.objectId := (objectId_of_get found).trans named.symm
      rw [List.inj_on_of_nodup_map nodup (List.mem_of_find?_eq_some found) listed same]

/-- Two ids share an entry if there is one under the empty key: all ids that are too long find
it. -/
theorem apart_iff :
    (∀ left right object, graph.get left = some object → graph.get right = some object →
      left = right) ↔ [] ∉ graph.keys := by
  have empty : key (List.replicate 65 0) = [] := by
    decide
  constructor
  · intro apart present
    cases found : graph.get [] with
    | none => exact get_eq_none_iff.mp found present
    | some object =>
      have again : graph.get (List.replicate 65 0) = some object := by
        rw [get, empty]
        exact found
      cases apart [] (List.replicate 65 0) object found again
  · intro absent left right object isLeft isRight
    have keyed : ∀ id, graph.get id = some object → id = object.objectId := by
      intro id found
      have named := objectId_of_get found
      rw [key] at named
      split at named
      · exact named.symm
      · exact absurd (named ▸ List.mem_map_of_mem (List.mem_of_find?_eq_some found)) absent
    rw [keyed left isLeft, keyed right isRight]

/-- The empty key appears when an id that is empty or too long is registered and there is
room. -/
theorem empty_mem_keys_step (absent : [] ∉ graph.keys) (call : Call) :
    [] ∈ (graph.step call).keys ↔
      ∃ id size, call = .register id size ∧ key id = [] ∧ graph.objects.length < maxObjects := by
  obtain ⟨same, known⟩ | ⟨id, size, rfl, -, room, added⟩ | ⟨⟨id, rfl⟩, fewer⟩ :=
    keys_step_cases call
  · rw [same.mem_iff]
    refine ⟨fun present => absurd present absent, ?_⟩
    rintro ⟨id, size, rfl, empty, room⟩
    obtain present | full := known id size rfl
    · exact absurd (empty ▸ present) absent
    · exact absurd room (Nat.not_lt.mpr full)
  · rw [added, List.mem_cons, or_iff_left absent]
    constructor
    · intro empty
      exact ⟨id, size, rfl, empty.symm, room⟩
    · rintro ⟨_, _, ⟨⟩, empty, -⟩
      exact empty.symm
  · exact ⟨fun present => absurd (fewer.subset present) absent, nofun⟩

/-- No prefix of a run has the empty key if no such id is registered while there is room. -/
theorem empty_not_mem_keys_iff (calls : List Call) :
    (∀ early, early <+: calls → [] ∉ (after step new early).keys) ↔
      ∀ early id size late, calls = early ++ .register id size :: late →
        key id ≠ [] ∨ maxObjects ≤ (after step new early).objects.length := by
  have next : ∀ early call, after step new (early ++ [call]) = (after step new early).step call :=
    fun early call => by rw [after_append, after_cons, after_nil]
  constructor
  · rintro absent early id size late rfl
    by_contra! wrong
    obtain ⟨empty, room⟩ := wrong
    have before := absent early ⟨_, rfl⟩
    apply absent (early ++ [.register id size]) ⟨late, by simp⟩
    rw [next]
    exact (empty_mem_keys_step before _).mpr ⟨id, size, rfl, empty, room⟩
  · intro allowed early isPrefix
    induction early using List.reverseRecOn with
    | nil => exact List.not_mem_nil
    | append_singleton early call ih =>
      obtain ⟨late, split⟩ := isPrefix
      have before := ih ⟨call :: late, by simpa using split⟩
      rw [next, empty_mem_keys_step before]
      rintro ⟨id, size, rfl, empty, room⟩
      obtain named | full := allowed early id size late (by simpa using split.symm)
      · exact named empty
      · exact absurd room (Nat.not_lt.mpr full)

theorem key_ne_nil_iff : key id ≠ [] ↔ id ≠ [] ∧ id.length ≤ maxIdLen := by
  rw [key]
  split
  next short => simp [short]
  next long => simp [long]

/-- The total is the sum of the sizes if and only if every registration that meets an object of
its key meets one of size 0; and at no time do two ids share an entry if and only if every id
that is registered while there is room is not empty and not too long. -/
theorem memory_accounted_iff
    (calls : List Call) :
    ((after step new calls).totalMemory = (after step new calls).sizes ↔
      ∀ early id size late, calls = early ++ .register id size :: late →
        ∀ old ∈ (after step new early).objects, old.objectId = key id → old.size = 0) ∧
    ((∀ early, early <+: calls → ∀ left right object,
        (after step new early).get left = some object →
        (after step new early).get right = some object → left = right) ↔
      ∀ early id size late, calls = early ++ .register id size :: late →
        id ≠ [] ∧ id.length ≤ maxIdLen ∨ maxObjects ≤ (after step new early).objects.length) := by
  constructor
  · have none : new.totalMemory = new.sizes + 0 := rfl
    have total := totalMemory_after calls none
    have exactly : (after step new calls).totalMemory = (after step new calls).sizes ↔
        replacedIn new calls = 0 := by
      rw [total]
      omega
    rw [exactly, replacedIn_eq_zero_iff]
    constructor
    · intro nothing early id size late split old listed named
      have zero := nothing early _ late split
      rwa [replaced, (get_eq_some_iff (nodup_keys_after early)).mpr ⟨listed, named⟩] at zero
    · rintro empty early (⟨id, size⟩ | _ | _ | _) late split
      · cases found : (after step new early).get id with
        | none => rw [replaced, found, Option.elim_none]
        | some old =>
          rw [replaced, found, Option.elim_some]
          exact empty early id size late split old (List.mem_of_find?_eq_some found)
            (objectId_of_get found)
      · rfl
      · rfl
      · rfl
  · simp only [apart_iff, empty_not_mem_keys_iff, key_ne_nil_iff]

/-- An object that is registered again is counted twice, and two long ids are one entry. -/
theorem registered_again_counted_twice :
    (after step new [.register [1] 100, .register [1] 200]).totalMemory = 300 ∧
      (after step new [.register [1] 100, .register [1] 200]).sizes = 200 ∧
      (after step new [.register (List.replicate 65 1) 5, .register (List.replicate 65 2) 7]).get
        (List.replicate 65 1) = some ⟨[], 7, 0⟩ ∧
      (after step new [.register (List.replicate 65 1) 5, .register (List.replicate 65 2) 7]).get
        (List.replicate 65 2) = some ⟨[], 7, 0⟩ := by
  decide +kernel

end MemoryGraph

end Cdk.Memory

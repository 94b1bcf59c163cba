import Cdk.Library.Bounded

/-!
# Queues of bounded capacity

A bounded vector as a queue.  An item is taken out of the middle by moving the items before it to
the end, one by one; `takeFirst_cases` says that the others stay, in a rotated order.  Where the
oldest item makes room for a new one, the queue holds the latest items.
-/

namespace BoundedVec

variable {α : Type u} {capacity : Nat}

/-- The first item and the others. -/
def popFront (vec : BoundedVec α capacity) : Option (α × BoundedVec α capacity) :=
  match vec with
  | ⟨[], _⟩ => none
  | ⟨first :: rest, fits⟩ => some (first, ⟨rest, (Nat.le_succ _).trans fits⟩)

/-- Move the first item to the end; it would be dropped if it did not fit. -/
def rotateOnce (vec : BoundedVec α capacity) : Option (BoundedVec α capacity) :=
  vec.popFront.map fun popped => (popped.2.push? popped.1).getD popped.2

/-- Move items to the end, one by one. -/
def rotateBy : Nat → BoundedVec α capacity → Option (BoundedVec α capacity)
  | 0, vec => some vec
  | count + 1, vec => vec.rotateOnce.bind (rotateBy count)

/-- Take out the first item that passes. -/
def takeFirst (vec : BoundedVec α capacity) (test : α → Bool) :
    Option (α × BoundedVec α capacity) :=
  (vec.items.findIdx? test).bind fun index =>
    (rotateBy index vec).bind popFront

variable {vec : BoundedVec α capacity}

theorem popFront_of_items (items : vec.items = first :: rest) :
    ∃ others, vec.popFront = some (first, others) ∧ others.items = rest := by
  obtain ⟨_, fits⟩ := vec
  subst items
  exact ⟨_, rfl, rfl⟩

theorem rotateOnce_of_items (items : vec.items = first :: rest) :
    ∃ rotated, vec.rotateOnce = some rotated ∧ rotated.items = rest ++ [first] := by
  obtain ⟨others, popped, left⟩ := popFront_of_items items
  have room : others.items.length < capacity := by
    have fits := vec.fits
    rw [items] at fits
    rw [left]
    exact fits
  obtain ⟨pushed, push⟩ : ∃ pushed, others.push? first = some pushed := by
    rw [← Option.isSome_iff_exists, ← Option.ne_none_iff_isSome, ne_eq, push?_eq_none_iff, not_not]
    exact room
  refine ⟨pushed, ?_, ?_⟩
  · rw [rotateOnce, popped, Option.map_some, push]
    rfl
  · rw [(push?_eq_some_iff.mp push).2, left]

theorem rotateBy_of_items (items : vec.items = early ++ late) :
    ∃ rotated, rotateBy early.length vec = some rotated ∧ rotated.items = late ++ early := by
  induction early generalizing vec late with
  | nil => exact ⟨vec, rfl, by simpa using items⟩
  | cons first rest ih =>
    rw [List.cons_append] at items
    obtain ⟨once, rotatedOnce, onceItems⟩ := rotateOnce_of_items items
    rw [List.append_assoc] at onceItems
    obtain ⟨rotated, rotatedBy, rotatedItems⟩ := ih onceItems
    refine ⟨rotated, ?_, ?_⟩
    · rw [List.length_cons, rotateBy, rotatedOnce, Option.bind_some, rotatedBy]
    · rw [rotatedItems, List.append_assoc, List.singleton_append]

/-- Nothing meets the test, or the first item that does is taken out and the
others are rotated. -/
theorem takeFirst_cases (vec : BoundedVec α capacity) (test : α → Bool) :
    (vec.takeFirst test = none ∧ ∀ item ∈ vec.items, test item = false) ∨ ∃ early item late others,
        vec.items = early ++ item :: late ∧ test item ∧
          vec.takeFirst test = some (item, others) ∧ others.items = late ++ early := by
  rw [takeFirst]
  cases position : vec.items.findIdx? test with
  | none =>
    left
    exact ⟨rfl, List.findIdx?_eq_none_iff.mp position⟩
  | some index =>
    right
    obtain ⟨bound, meets, _⟩ := List.findIdx?_eq_some_iff_getElem.mp position
    have split : vec.items = vec.items.take index ++ vec.items[index] ::
          vec.items.drop (index + 1) := by
      rw [← List.drop_eq_getElem_cons bound, List.take_append_drop]
    have taken : (vec.items.take index).length = index := List.length_take_of_le bound.le
    obtain ⟨rotated, rotatedBy, rotatedItems⟩ := rotateBy_of_items split
    rw [taken] at rotatedBy
    obtain ⟨others, popped, left⟩ := popFront_of_items rotatedItems
    refine ⟨_, _, _, others, split, meets, ?_, left⟩
    rw [Option.bind_some, rotatedBy, Option.bind_some, popped]

/-! ## Keeping the latest items -/

/-- Drop the oldest item of a full queue. -/
def makeRoom (vec : BoundedVec α capacity) : Option α × BoundedVec α capacity :=
  if vec.isFull then
    match vec.popFront with
    | some (oldest, others) => (some oldest, others)
    | none => (none, vec)
  else (none, vec)

/-- Append an item; it is dropped if it does not fit. -/
def pushBack (vec : BoundedVec α capacity) (item : α) : BoundedVec α capacity :=
  (vec.push? item).getD vec

theorem items_pushBack (room : vec.items.length < capacity) (item : α) :
    (vec.pushBack item).items = vec.items ++ [item] := by
  rw [pushBack, push?, dif_pos room, Option.getD_some]

theorem makeRoom_cases (positive : 0 < capacity) (vec : BoundedVec α capacity) :
    (vec.items.length < capacity ∧ vec.makeRoom = (none, vec)) ∨ ∃ oldest others,
        vec.items.length = capacity ∧ vec.items = oldest :: others.items ∧
          vec.makeRoom = (some oldest, others) := by
  by_cases room : vec.items.length < capacity
  · have open' : vec.isFull = false := by
      rw [← Bool.not_eq_true, isFull_iff, not_not]
      exact room
    exact .inl ⟨room, by rw [makeRoom, open', if_neg Bool.false_ne_true]⟩
  have full := (isFull_iff vec).mpr room
  have length : vec.items.length = capacity := by
    have := vec.fits
    omega
  obtain ⟨oldest, rest, items⟩ :=
    List.exists_cons_of_ne_nil (List.ne_nil_of_length_pos (length ▸ positive))
  obtain ⟨others, popped, left⟩ := popFront_of_items items
  refine .inr ⟨oldest, others, length, left ▸ items, ?_⟩
  rw [makeRoom, if_pos full, popped]

theorem makeRoom_sublist (vec : BoundedVec α capacity) :
    vec.makeRoom.2.items.Sublist vec.items := by
  unfold makeRoom
  split
  · split
    · rename_i oldest others popped
      obtain ⟨items, fits⟩ := vec
      cases items with
      | nil => cases popped
      | cons first rest =>
        cases popped
        exact List.sublist_cons_self _ _
    · exact List.Sublist.refl _
  · exact List.Sublist.refl _

theorem length_makeRoom_lt (positive : 0 < capacity) (vec : BoundedVec α capacity) :
    vec.makeRoom.2.items.length < capacity := by
  rcases makeRoom_cases positive vec with
    ⟨room, same⟩ | ⟨oldest, others, full, items, made⟩
  · rwa [same]
  · rw [made]
    rw [items, List.length_cons] at full
    exact Nat.lt_of_succ_le full.le

theorem items_pushBack_makeRoom (positive : 0 < capacity)
    (latest : vec.items = history.drop (history.length - capacity)) (item : α) :
    (vec.makeRoom.2.pushBack item).items =
      (history ++ [item]).drop ((history ++ [item]).length - capacity) := by
  have count := congrArg List.length latest
  rw [List.length_drop] at count
  rw [List.length_append, List.length_singleton]
  rcases makeRoom_cases positive vec with
    ⟨room, same⟩ | ⟨oldest, others, full, items, made⟩
  · rw [same, items_pushBack room, latest]
    have short : history.length - capacity = 0 ∧ history.length + 1 - capacity = 0 := by
      omega
    rw [short.1, short.2, List.drop_zero, List.drop_zero]
  · have room : others.items.length < capacity := by
      rw [items, List.length_cons] at full
      omega
    have rest : others.items = history.drop (history.length + 1 - capacity) := by
      have tail := congrArg List.tail (items.symm.trans latest)
      rw [List.tail_cons, List.tail_drop] at tail
      rw [tail]
      congr 1
      omega
    rw [made, items_pushBack room, rest, List.drop_append_of_le_length (by omega)]

end BoundedVec

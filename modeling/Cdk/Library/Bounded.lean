import Mathlib.Data.Finset.Card

/-!
# Vectors of bounded capacity

A `BoundedVec` holds at most `capacity` items, so `push?` can fail.  `absorb` merges a list into
one, adding the items whose key it lacks; `absorbUntilFull` stops at the first failed push and
computes the same.  `absorb_covers_iff` says when nothing is dropped.
-/

/-- A list of at most `capacity` items. -/
structure BoundedVec (α : Type u) (capacity : Nat) where
  items : List α
  fits : items.length ≤ capacity
  deriving DecidableEq

namespace BoundedVec

variable {α : Type u} {κ : Type v} {capacity : Nat}

@[ext] theorem ext {left right : BoundedVec α capacity} (equal : left.items = right.items) :
    left = right := by
  cases left
  cases right
  congr

/-- The vector without items. -/
def empty : BoundedVec α capacity := ⟨[], Nat.zero_le _⟩

variable (vec : BoundedVec α capacity)

def isFull : Bool := vec.items.length == capacity

/-- Append an item, or fail if the vector is full. -/
def push? (item : α) : Option (BoundedVec α capacity) :=
  if room : vec.items.length < capacity then
    some ⟨vec.items ++ [item], by simpa using Nat.succ_le_of_lt room⟩
  else none

def retain (keep : α → Bool) : BoundedVec α capacity :=
  ⟨vec.items.filter keep, (List.length_filter_le _ _).trans vec.fits⟩

@[simp] theorem items_retain (keep : α → Bool) : (vec.retain keep).items = vec.items.filter keep :=
  rfl

def eraseIdx (place : Nat) : BoundedVec α capacity :=
  ⟨vec.items.eraseIdx place, (List.length_eraseIdx_le _ _).trans vec.fits⟩

theorem isFull_iff : vec.isFull ↔ ¬vec.items.length < capacity := by
  have bound := vec.fits
  simp only [isFull, beq_iff_eq]
  omega

theorem push?_eq_some_iff {vec pushed : BoundedVec α capacity} : vec.push? item = some pushed ↔
    vec.items.length < capacity ∧ pushed.items = vec.items ++ [item] := by
  unfold push?
  split
  · rename_i room
    simp only [Option.some.injEq, room, true_and]
    constructor
    · rintro rfl
      rfl
    · intro items
      exact ext items.symm
  · rename_i full
    simp [full]

theorem push?_eq_none_iff {vec : BoundedVec α capacity} {item : α} :
    vec.push? item = none ↔ ¬vec.items.length < capacity := by
  unfold push?
  split <;> simp_all

/-- Remove an item; the last one takes its place. -/
def swapRemove? (place : Nat) : Option (α × BoundedVec α capacity) :=
  match vec.items[place]?, vec.items.getLast? with
  | some item, some last =>
    some (item, ⟨(vec.items.set place last).dropLast, by
      rw [List.length_dropLast, List.length_set]
      exact (Nat.sub_le _ _).trans vec.fits⟩)
  | _, _ => none

variable {vec}

section

variable {item : α} {rest : BoundedVec α capacity}
  (removed : vec.swapRemove? place = some (item, rest))
include removed

/-- What is removed was at the place; either it was the last item, or the last
item has taken its place. -/
theorem swapRemove?_eq_some :
    ∃ early late, early.length = place ∧ vec.items = early ++ item :: late ∧
        ((late = [] ∧ rest.items = early) ∨
          ∃ middle last, late = middle ++ [last] ∧ rest.items = early ++ last :: middle) := by
  unfold swapRemove? at removed
  split at removed
  · rename_i item' last found atEnd
    cases removed
    obtain ⟨inside, rfl⟩ := List.getElem?_eq_some_iff.mp found
    refine ⟨vec.items.take place, vec.items.drop (place + 1),
      List.length_take_of_le inside.le, ?_, ?_⟩
    · rw [List.getElem_cons_drop, List.take_append_drop]
    rcases List.eq_nil_or_concat (vec.items.drop (place + 1)) with empty | ⟨middle, final, split⟩
    · refine .inl ⟨empty, ?_⟩
      change (vec.items.set place last).dropLast = _
      rw [List.set_eq_take_append_cons_drop, if_pos inside, empty, List.dropLast_concat]
    rw [List.concat_eq_append] at split
    have same : final = last := by
      rw [← List.take_append_drop (place + 1) vec.items, split, ← List.append_assoc,
        List.getLast?_concat] at atEnd
      exact Option.some.inj atEnd
    refine .inr ⟨middle, final, split, ?_⟩
    change (vec.items.set place last).dropLast = _
    rw [List.set_eq_take_append_cons_drop, if_pos inside, split, ← same,
      ← List.cons_append, ← List.append_assoc, List.dropLast_concat]
  · cases removed

theorem swapRemove?_perm : vec.items.Perm (item :: rest.items) := by
  obtain ⟨early, late, -, split, ⟨rfl, left⟩ | ⟨middle, last, rfl, left⟩⟩ :=
    swapRemove?_eq_some removed
  · rw [split, left]
    exact List.perm_append_singleton item early
  · rw [split, left]
    refine List.perm_middle.trans (List.Perm.cons _ (List.Perm.append_left _ ?_))
    exact List.perm_append_singleton last middle

end

theorem swapRemove?_of_lt (inside : place < vec.items.length) :
    ∃ rest, vec.swapRemove? place = some (vec.items[place], rest) := by
  have nonempty : vec.items ≠ [] := List.ne_nil_of_length_pos (by omega)
  simp [swapRemove?, List.getElem?_eq_getElem inside, List.getLast?_eq_some_getLast nonempty]

/-! ## Merging a list by key -/

section Absorb

variable [DecidableEq κ] (key : α → κ)

def hasKey (vec : BoundedVec α capacity) (wanted : κ) : Bool :=
  vec.items.any fun item => key item == wanted

theorem hasKey_iff (vec : BoundedVec α capacity) (wanted : κ) :
    vec.hasKey key wanted ↔ wanted ∈ vec.items.map key := by
  simp [hasKey]

/-- Add the items whose key is missing; an item that does not fit is
dropped. -/
def absorb (vec : BoundedVec α capacity) : List α → BoundedVec α capacity
  | [] => vec
  | item :: rest =>
    if vec.hasKey key (key item) then vec.absorb rest
    else match vec.push? item with
      | some pushed => pushed.absorb rest
      | none => vec.absorb rest

/-- Add new items while there is room. -/
def absorbUntilFull (vec : BoundedVec α capacity) : List α → BoundedVec α capacity
  | [] => vec
  | item :: rest =>
    if vec.hasKey key (key item) then vec.absorbUntilFull rest
    else match vec.push? item with
      | some pushed => pushed.absorbUntilFull rest
      | none => vec

variable {key}

variable {vec : BoundedVec α capacity}

theorem absorb_of_full (full : ¬vec.items.length < capacity) (list : List α) :
    vec.absorb key list = vec := by
  induction list with
  | nil => rfl
  | cons item rest ih =>
    rw [absorb, push?_eq_none_iff.mpr full]
    simp only [ih, ite_self]

/-- Stopping at the first item that does not fit drops nothing more. -/
theorem absorbUntilFull_eq_absorb (vec : BoundedVec α capacity) (list : List α) :
    vec.absorbUntilFull key list = vec.absorb key list := by
  induction list generalizing vec with
  | nil => rfl
  | cons item rest ih =>
    rw [absorb, absorbUntilFull]
    split
    · exact ih vec
    · cases pushed : vec.push? item with
      | some next => exact ih next
      | none =>
        exact (absorb_of_full (push?_eq_none_iff.mp pushed) rest).symm

theorem prefix_absorb (vec : BoundedVec α capacity) (list : List α) :
    vec.items <+: (vec.absorb key list).items := by
  induction list generalizing vec with
  | nil => exact List.prefix_rfl
  | cons item rest ih =>
    rw [absorb]
    split
    · exact ih vec
    cases pushed : vec.push? item with
    | none => exact ih vec
    | some next =>
      have extended := (push?_eq_some_iff.mp pushed).2
      exact (extended ▸ List.prefix_append _ _ : vec.items <+: next.items).trans (ih next)

variable (key) in
def lacking (vec : BoundedVec α capacity) (list : List α) : Nat :=
  ((list.map key).toFinset \ (vec.items.map key).toFinset).card

theorem lacking_cons_of_present (present : key item ∈ vec.items.map key) (list : List α) :
    vec.lacking key (item :: list) = vec.lacking key list := by
  unfold lacking
  rw [List.map_cons, List.toFinset_cons,
    Finset.insert_sdiff_of_mem _ (List.mem_toFinset.mpr present)]

theorem lacking_cons_of_pushed {vec pushed : BoundedVec α capacity}
    (absent : key item ∉ vec.items.map key) (extended : pushed.items = vec.items ++ [item])
    (list : List α) : vec.lacking key (item :: list) = pushed.lacking key list + 1 := by
  have split : ((item :: list).map key).toFinset \ (vec.items.map key).toFinset = insert (key item)
          ((list.map key).toFinset \ (pushed.items.map key).toFinset) := by
    ext other
    simp only [extended, List.map_cons, List.map_append, List.map_nil,
      List.toFinset_cons, List.toFinset_append, List.toFinset_nil,
      Finset.mem_sdiff, Finset.mem_insert, Finset.mem_union, List.mem_toFinset,
      Finset.notMem_empty]
    by_cases same : other = key item
    · simp [same, absent]
    · simp [same]
  unfold lacking
  rw [split, Finset.card_insert_of_notMem]
  simp [extended]

theorem lacking_cons_pos (absent : key item ∉ vec.items.map key) (list : List α) :
    0 < vec.lacking key (item :: list) := by
  apply Finset.card_pos.mpr
  exact ⟨key item, by simp [absent]⟩

/-- Every key of the list is represented afterwards exactly if the vector has
room for the distinct keys it lacks. -/
theorem absorb_covers_iff (vec : BoundedVec α capacity) (list : List α) :
    (∀ item ∈ list, key item ∈ (vec.absorb key list).items.map key) ↔
      vec.items.length + vec.lacking key list ≤ capacity := by
  induction list generalizing vec with
  | nil => simpa [lacking] using vec.fits
  | cons item rest ih =>
    by_cases present : key item ∈ vec.items.map key
    · rw [absorb, if_pos ((hasKey_iff key vec _).mpr present),
        lacking_cons_of_present present, ← ih vec,
        List.forall_mem_cons, and_iff_right]
      exact (List.IsPrefix.map key (prefix_absorb vec rest)).subset present
    have absent : ¬vec.hasKey key (key item) := fun has =>
      present ((hasKey_iff key vec _).mp has)
    rw [absorb, if_neg absent]
    cases pushed : vec.push? item with
    | none =>
      have full := push?_eq_none_iff.mp pushed
      have positive := lacking_cons_pos present rest
      have impossible : ¬vec.items.length + vec.lacking key (item :: rest) ≤ capacity := by
        omega
      refine iff_of_false (fun covered => present ?_) impossible
      simpa only [absorb_of_full full] using covered item List.mem_cons_self
    | some next =>
      obtain ⟨-, extended⟩ := push?_eq_some_iff.mp pushed
      have longer : next.items.length = vec.items.length + 1 := by
        simp [extended]
      have represented : key item ∈ (next.absorb key rest).items.map key := by
        apply (List.IsPrefix.map key (prefix_absorb next rest)).subset
        simp [extended]
      have step := ih next
      rw [lacking_cons_of_pushed present extended,
        List.forall_mem_cons, and_iff_right represented, step, longer]
      omega

/-- Each item of the list is there already, or is the first with its key in the list and its
key is not there. -/
def Settles (key : α → κ) (vec : BoundedVec α capacity) (list : List α) : Prop :=
  ∀ item ∈ list, item ∈ vec.items ∨
    key item ∉ vec.items.map key ∧ list.find? (fun other => key other == key item) = some item

/-- What is in the vector afterwards was there, or is the first with its key in the list. -/
theorem mem_of_mem_absorb
    {list : List α}
    (there : item ∈ (vec.absorb key list).items) :
    item ∈ vec.items ∨
      key item ∉ vec.items.map key ∧
        list.find? (fun other => key other == key item) = some item := by
  induction list generalizing vec with
  | nil => exact .inl there
  | cons first rest ih =>
    rw [absorb] at there
    split at there
    next has =>
      have present := (hasKey_iff key vec _).mp has
      refine (ih there).imp_right fun ⟨absent, found⟩ => ⟨absent, ?_⟩
      have other : key first ≠ key item := fun same => absent (same ▸ present)
      rwa [List.find?_cons, beq_false_of_ne other]
    next lacks =>
      have absent := mt (hasKey_iff key vec _).mpr lacks
      split at there
      next next pushed =>
        obtain ⟨-, extended⟩ := push?_eq_some_iff.mp pushed
        obtain old | ⟨missing, found⟩ := ih there
        · rw [extended, List.mem_append, List.mem_singleton] at old
          obtain old | rfl := old
          · exact .inl old
          · exact .inr ⟨absent, by rw [List.find?_cons, beq_self_eq_true]⟩
        · rw [extended, List.map_append, List.mem_append, not_or] at missing
          have other : key first ≠ key item := fun same => missing.2 (by simp [same])
          exact .inr ⟨missing.1, by rwa [List.find?_cons, beq_false_of_ne other]⟩
      next pushed =>
        rw [absorb_of_full (push?_eq_none_iff.mp pushed)] at there
        exact .inl there

/-- Every item of the list is in the vector afterwards exactly if there is room for the distinct
keys that are lacking, and no item has the key of another that comes before it. -/
theorem absorb_holds_iff (vec : BoundedVec α capacity) (list : List α) :
    (∀ item ∈ list, item ∈ (vec.absorb key list).items) ↔
      vec.items.length + vec.lacking key list ≤ capacity ∧ Settles key vec list := by
  rw [← absorb_covers_iff]
  constructor
  · intro holds
    exact ⟨fun item listed => List.mem_map_of_mem (holds item listed),
      fun item listed => mem_of_mem_absorb (holds item listed)⟩
  · rintro ⟨covers, settles⟩ item listed
    obtain old | ⟨absent, first⟩ := settles item listed
    · exact (prefix_absorb vec list).subset old
    obtain ⟨other, there, same⟩ := List.mem_map.mp (covers item listed)
    -- the one that has the key is the first with it
    obtain old | ⟨-, found⟩ := mem_of_mem_absorb there
    · exact absurd (same ▸ List.mem_map_of_mem old) absent
    · rw [same, first] at found
      exact Option.some.inj found ▸ there

end Absorb

end BoundedVec

import Mathlib.Data.List.Nodup

/-!
# The first match in a table

Tables are lists that are searched from the front: the first entry that meets a
test is read, replaced or removed.  An update that goes entry by entry relates
the old and the new table pointwise.  A list of keys, each in the place of its
first occurrence, is built by appending what is not there yet.
-/

namespace FirstMatch

variable {α : Type u}

variable {table : List α}

theorem find_of_unique (present : entry ∈ table) (passes : test entry)
    (only : ∀ other ∈ table, test other → other = entry) :
    table.find? test = some entry := by
  obtain ⟨other, found⟩ : ∃ other, table.find? test = some other :=
    Option.isSome_iff_exists.mp (List.find?_isSome.mpr ⟨entry, present, passes⟩)
  rw [found, only other (List.mem_of_find?_eq_some found) (List.find?_some found)]

theorem replaceF_of_find (update : α → α) (found : table.find? test = some entry) :
    ∃ early late, table = early ++ entry :: late ∧ (table.replaceF fun other =>
          if test other then some (update other) else none) = early ++ update entry :: late := by
  obtain ⟨passes, early, late, rfl, skipped⟩ := List.find?_eq_some_iff_append.mp found
  refine ⟨early, late, rfl, ?_⟩
  clear found
  induction early with
  | nil => exact List.replaceF_cons_of_some _ (if_pos passes)
  | cons first rest ih =>
    have fails : ¬test first := by
      simpa using skipped first List.mem_cons_self
    have others := ih fun other later =>
      skipped other (List.mem_cons_of_mem _ later)
    simp only [List.cons_append, List.replaceF, if_neg fails, others]

theorem replaceF_of_find_none (update : α → α) (absent : table.find? test = none) :
    (table.replaceF fun other => if test other then some (update other) else none) = table := by
  rw [List.find?_eq_none] at absent
  induction table with
  | nil => rfl
  | cons first rest ih =>
    simp only [List.replaceF, if_neg (absent first List.mem_cons_self), ih fun other later =>
        absent other (List.mem_cons_of_mem _ later)]

theorem find_replaceF_self (found : table.find? test = some entry) (passes : test new) :
    (table.replaceF fun other => if test other then some new else none).find? test = some new := by
  induction table with
  | nil => cases found
  | cons first rest ih =>
    by_cases here : test first
    · simp only [List.replaceF, if_pos here, List.find?_cons_of_pos passes]
    · rw [List.find?_cons_of_neg here] at found
      simp only [List.replaceF, if_neg here, List.find?_cons_of_neg here, ih found]

/-- The replacement of an entry is not seen by a test that neither the old nor
the new entry meets. -/
theorem find_replaceF_other {test other : α → Bool}
    (old : ∀ entry, test entry → other entry = false) (fails : other new = false) :
    (table.replaceF fun entry => if test entry then some new else none).find?
      other = table.find? other := by
  induction table with
  | nil => rfl
  | cons first rest ih =>
    by_cases here : test first
    · simp only [List.replaceF, if_pos here, List.find?_cons, fails, old first here]
    · simp only [List.replaceF, if_neg here, List.find?_cons, ih]

/-- A pairwise relation survives the exchange of one entry that is related to
the others. -/
theorem pairwise_exchange (pairwise : List.Pairwise relation (early ++ old :: late))
    (before : ∀ other ∈ early, relation other new) (after : ∀ other ∈ late, relation new other) :
    List.Pairwise relation (early ++ new :: late) := by
  rw [List.pairwise_append, List.pairwise_cons] at pairwise ⊢
  obtain ⟨first, ⟨-, last⟩, across⟩ := pairwise
  refine ⟨first, ⟨after, last⟩, ?_⟩
  intro left inEarly right inLate
  rcases List.mem_cons.mp inLate with rfl | later
  · exact before left inEarly
  · exact across left inEarly right (List.mem_cons_of_mem _ later)

variable {relation : α → α → Prop} {before later : List α}

/-- Every entry of the new table comes from one of the old table. -/
theorem exists_of_mem (related : List.Forall₂ relation before later) (present : new ∈ later) :
    ∃ old ∈ before, relation old new := by
  induction related with
  | nil => cases present
  | cons first _ ih =>
    rcases List.mem_cons.mp present with rfl | deeper
    · exact ⟨_, List.mem_cons_self, first⟩
    · obtain ⟨old, found, holds⟩ := ih deeper
      exact ⟨old, List.mem_cons_of_mem _ found, holds⟩

theorem map_eq_of_related (kept : ∀ old new, relation old new → field new = field old)
    (related : List.Forall₂ relation before later) : later.map field = before.map field := by
  induction related with
  | nil => rfl
  | cons first _ ih =>
    rw [List.map_cons, List.map_cons, kept _ _ first, ih]

theorem mem_foldl_append_new [BEq β] [LawfulBEq β] (key : α → β) (table : List α) (known : List β)
    (value : β) : value ∈ table.foldl (fun known entry =>
          if known.contains (key entry) then known else known ++ [key entry]) known ↔
      value ∈ known ∨ ∃ entry ∈ table, key entry = value := by
  induction table generalizing known with
  | nil => simp
  | cons entry rest ih =>
    rw [List.foldl_cons, ih, List.exists_mem_cons_iff, ← or_assoc]
    refine or_congr_left ?_
    split
    · rename_i present
      rw [List.contains_iff_mem] at present
      exact ⟨.inl, fun either => either.elim id fun same => same ▸ present⟩
    · rw [List.mem_append, List.mem_singleton, eq_comm]

end FirstMatch

import Mathlib.Data.List.Basic

/-!
# Hash chains

The entries of a chain carry a hash that covers the hash before.  `tip` is the hash after some
entries and `Chained` says that every entry fits its place.  If a hash determines its entry and
the hash before, two chains with one tip are equal as far back as both go.
-/

namespace HashChain

variable {Entry : Type u} {Hash : Type v}
variable (hash : Entry → Hash) (fits : Nat → Hash → Entry → Prop)

/-- The hash after some entries. -/
def tip : Hash → List Entry → Hash
  | first, [] => first
  | _, entry :: rest => tip (hash entry) rest

/-- Each entry fits its place and the hash before it. -/
def Chained : Hash → Nat → List Entry → Prop
  | _, _, [] => True
  | before, place, entry :: rest =>
    fits place before entry ∧ Chained (hash entry) (place + 1) rest

/-- The entries of a chain with their places and the hashes before them. -/
def links : Hash → Nat → List Entry → List (Nat × Hash × Entry)
  | _, _, [] => []
  | before, place, entry :: rest =>
    (place, before, entry) :: links (hash entry) (place + 1) rest

variable {hash fits}

@[simp] theorem tip_nil (first : Hash) : tip hash first [] = first :=
  rfl

@[simp] theorem tip_cons (first : Hash) (entry : Entry) (rest : List Entry) :
    tip hash first (entry :: rest) = tip hash (hash entry) rest :=
  rfl

theorem tip_append (first : Hash) (early late : List Entry) :
    tip hash first (early ++ late) = tip hash (tip hash first early) late := by
  induction early generalizing first with
  | nil => rfl
  | cons entry rest ih => exact ih (hash entry)

theorem chained_append :
    Chained hash fits first place (early ++ late) ↔ Chained hash fits first place early ∧
        Chained hash fits (tip hash first early) (place + early.length) late := by
  induction early generalizing first place with
  | nil => simp [Chained]
  | cons entry rest ih =>
    simp only [List.cons_append, Chained, ih, tip_cons, List.length_cons, and_assoc]
    rw [Nat.add_right_comm, Nat.add_assoc]

theorem links_append (first : Hash) (place : Nat) (early late : List Entry) :
    links hash first place (early ++ late) = links hash first place early ++
        links hash (tip hash first early) (place + early.length) late := by
  induction early generalizing first place with
  | nil => rfl
  | cons entry rest ih =>
    simp only [List.cons_append, links, ih, tip_cons, List.length_cons]
    rw [Nat.add_right_comm, Nat.add_assoc]

theorem chained_iff_links : Chained hash fits first place entries ↔
    ∀ link ∈ links hash first place entries, fits link.1 link.2.1 link.2.2 := by
  induction entries generalizing first place with
  | nil => simp [Chained, links]
  | cons entry rest ih =>
    simp [Chained, links, ih]

/-- An entry is linked to the tip of those before it. -/
theorem mem_links (there : entries[index]? = some entry) :
    (place + index, tip hash first (entries.take index), entry) ∈
      links hash first place entries := by
  induction entries generalizing first place index with
  | nil => cases there
  | cons earliest rest ih =>
    cases index with
    | zero =>
      cases there
      exact .head _
    | succ index =>
      have later : (place + 1 + index, tip hash (hash earliest) (rest.take index), entry) ∈
          links hash (hash earliest) (place + 1) rest := ih there
      rw [Nat.add_right_comm, Nat.add_assoc] at later
      exact .tail _ later

/-- An entry of a chain fits its place, after the tip of those before it. -/
theorem fits_of_chained
    (chained : Chained hash fits first place entries)
    (there : entries[index]? = some entry) :
    fits (place + index) (tip hash first (entries.take index)) entry :=
  chained_iff_links.mp chained _ (mem_links there)

/-- Among the links of two chains, a hash determines an entry and the hash
before it. -/
def Binding (hash : Entry → Hash) (left right : List (Nat × Hash × Entry)) : Prop :=
  ∀ leftLink ∈ left, ∀ rightLink ∈ right, leftLink.1 = rightLink.1 →
    hash leftLink.2.2 = hash rightLink.2.2 → leftLink = rightLink

/-- Two chains over the same places that end in one tip are equal. -/
theorem eq_of_tip_eq (length : entries.length = entries'.length)
    (binding : Binding hash (links hash first place entries) (links hash first' place entries'))
    (tips : tip hash first entries = tip hash first' entries') :
    first = first' ∧ entries = entries' := by
  induction entries generalizing first first' place entries' with
  | nil =>
    obtain rfl := List.eq_nil_of_length_eq_zero length.symm
    exact ⟨tips, rfl⟩
  | cons entry rest ih =>
    cases entries' with
    | nil => cases length
    | cons entry' rest' =>
      -- the rest is equal first, and then the hashes of the two entries
      obtain ⟨hashes, rfl⟩ := ih (Nat.succ.inj length) (fun link listed link' listed' =>
          binding link (.tail _ listed) link' (.tail _ listed')) tips
      have same := binding _ (.head _) _ (.head _) rfl hashes
      cases same
      exact ⟨rfl, rfl⟩

/-- A chain that ends in the tip of a longer one is the end of the longer one. -/
theorem eq_drop_of_tip_eq (length : entries.length = skipped + entries'.length)
    (binding : Binding hash (links hash first 0 entries) (links hash first' skipped entries'))
    (tips : tip hash first entries = tip hash first' entries') :
    entries.drop skipped = entries' := by
  have split := List.take_append_drop skipped entries
  have early : (entries.take skipped).length = skipped := by
    rw [List.length_take]
    omega
  rw [← split, tip_append] at tips
  rw [← split, links_append, early, Nat.zero_add] at binding
  have sameLength : (entries.drop skipped).length = entries'.length := by
    rw [List.length_drop]
    omega
  have late : Binding hash
      (links hash (tip hash first (entries.take skipped)) skipped (entries.drop skipped))
      (links hash first' skipped entries') := fun link listed =>
    binding link (List.mem_append_right _ listed)
  exact (eq_of_tip_eq sameLength late tips).2

end HashChain

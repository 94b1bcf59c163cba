import Cdk.Library.ByteFormat

/-!
# Reading fields back out of a rendered text

A text made by concatenating fields and fixed separators determines a field
when the field cannot contain what comes after it.  `cut_first` reads a field
from the front, `cut_last` from the end; both are used in chains, one field
after the other.  `flatMap_injective` is the same for a text that is rendered
item by item.
-/

namespace Delimited

open ByteFormat

theorem absent [BEq α] [LawfulBEq α] {text : List α} (tested : text.all (· != mark)) :
    ∀ item ∈ text, item ≠ mark := by
  intro item present
  exact bne_iff_ne.mp (List.all_eq_true.mp tested item present)

/-! ## Cutting at a separator -/

section Cut

variable {inside : α → Prop}

/-- A field whose items are all inside, and a separator that is not, are
determined by the text that begins with them. -/
theorem cut_first (leftInside : ∀ item ∈ leftField, inside item)
    (rightInside : ∀ item ∈ rightField, inside item) (leftOutside : ¬inside leftSeparator)
    (rightOutside : ¬inside rightSeparator)
    (equal : leftField ++ leftSeparator :: leftRest = rightField ++ rightSeparator :: rightRest) :
    leftField = rightField ∧ leftSeparator = rightSeparator ∧ leftRest = rightRest := by
  induction leftField generalizing rightField with
  | nil =>
    cases rightField with
    | nil => simpa using equal
    | cons item rightField =>
      obtain ⟨rfl, -⟩ := List.cons.inj equal
      exact absurd (rightInside _ List.mem_cons_self) leftOutside
  | cons item leftField ih =>
    cases rightField with
    | nil =>
      obtain ⟨rfl, -⟩ := List.cons.inj equal
      exact absurd (leftInside _ List.mem_cons_self) rightOutside
    | cons other rightField =>
      obtain ⟨rfl, tails⟩ := List.cons.inj equal
      obtain ⟨rfl, separators⟩ := ih
        (fun _ present => leftInside _ (List.mem_cons_of_mem _ present))
        (fun _ present => rightInside _ (List.mem_cons_of_mem _ present))
        tails
      exact ⟨rfl, separators⟩

theorem cut_field (starts : separator = first :: tail) (outside : ¬inside first)
    (leftInside : ∀ item ∈ leftField, inside item) (rightInside : ∀ item ∈ rightField, inside item)
    (equal : leftField ++ (separator ++ leftRest) = rightField ++ (separator ++ rightRest)) :
    leftField = rightField ∧ leftRest = rightRest := by
  rw [starts] at equal
  obtain ⟨fields, -, rests⟩ := cut_first leftInside rightInside outside outside equal
  exact ⟨fields, List.append_cancel_left rests⟩

/-- A field after the last item outside is determined from the end of the
text. -/
theorem cut_last (leftInside : ∀ item ∈ leftField, inside item)
    (rightInside : ∀ item ∈ rightField, inside item) (leftOutside : ¬inside leftSeparator)
    (rightOutside : ¬inside rightSeparator)
    (equal : leftRest ++ leftSeparator :: leftField = rightRest ++ rightSeparator :: rightField) :
    leftRest = rightRest ∧ leftSeparator = rightSeparator ∧ leftField = rightField := by
  have reversed := congrArg List.reverse equal
  simp only [List.reverse_append, List.reverse_cons, List.append_assoc,
    List.singleton_append] at reversed
  obtain ⟨fields, separators, rests⟩ := cut_first
    (fun item present => leftInside item (List.mem_reverse.mp present))
    (fun item present => rightInside item (List.mem_reverse.mp present))
    leftOutside rightOutside reversed
  exact ⟨List.reverse_injective rests, separators, List.reverse_injective fields⟩

end Cut

/-! ## Rendering item by item -/

/-- If the key of an item can be told from its code and whatever follows it,
the keys of a whole list of items can be told from its code. -/
theorem map_key_of_flatMap {valid : α → Prop} (nonempty : ∀ item, code item ≠ [])
    (readable : ∀ left right, valid left → valid right →
      ∀ leftRest rightRest, code left ++ leftRest = code right ++ rightRest →
        key left = key right ∧ leftRest = rightRest) {left right : List α}
    (leftValid : ∀ item ∈ left, valid item) (rightValid : ∀ item ∈ right, valid item)
    (equal : left.flatMap code = right.flatMap code) : left.map key = right.map key := by
  induction left generalizing right with
  | nil =>
    cases right with
    | nil => rfl
    | cons item right =>
      rw [List.flatMap_nil, List.flatMap_cons] at equal
      exact absurd (List.append_eq_nil_iff.mp equal.symm).1 (nonempty item)
  | cons item left ih =>
    cases right with
    | nil =>
      rw [List.flatMap_nil, List.flatMap_cons] at equal
      exact absurd (List.append_eq_nil_iff.mp equal).1 (nonempty item)
    | cons other right =>
      rw [List.flatMap_cons, List.flatMap_cons] at equal
      obtain ⟨keys, rest⟩ := readable item other (leftValid item List.mem_cons_self)
        (rightValid other List.mem_cons_self) _ _ equal
      rw [List.map_cons, List.map_cons, keys, ih
        (fun _ later => leftValid _ (List.mem_cons_of_mem _ later))
        (fun _ later => rightValid _ (List.mem_cons_of_mem _ later)) rest]

/-- If an item can be told from its code and whatever follows it, a whole list
of items can be told from its code. -/
theorem flatMap_injective {code : α → List β} (nonempty : ∀ item, code item ≠ [])
    (readable : ∀ left right leftRest rightRest, code left ++ leftRest = code right ++ rightRest →
        left = right ∧ leftRest = rightRest) : Function.Injective (List.flatMap code) := by
  intro left right equal
  have valid : ∀ list : List α, ∀ item ∈ list, True := fun _ _ _ => trivial
  have same : left.map id = right.map id :=
    map_key_of_flatMap nonempty (fun _ _ _ _ => readable _ _) (valid left) (valid right) equal
  simpa using same

/-! ## Characters and decimal numbers -/

def codes (text : List Char) : Bytes := text.map fun character => UInt8.ofNat character.toNat

theorem codes_inj (leftSmall : ∀ character ∈ left, character.toNat < 256)
    (rightSmall : ∀ character ∈ right, character.toNat < 256) (equal : codes left = codes right) :
    left = right := by
  have read : ∀ text : List Char, (∀ character ∈ text, character.toNat < 256) →
      (codes text).map (fun byte => Char.ofNat byte.toNat) = text := by
    intro text small
    rw [codes, List.map_map]
    refine (List.map_congr_left ?_).trans (List.map_id _)
    intro character present
    simp only [Function.comp_apply,
      UInt8.toNat_ofNat_of_lt' (small character present), Char.ofNat_toNat, id_eq]
  rw [← read left leftSmall, equal, read right rightSmall]

def decimal (value : Nat) : Bytes := codes (Nat.toDigits 10 value)

/-- The byte is a decimal digit. -/
def IsDigit (byte : UInt8) : Prop := 48 ≤ byte ∧ byte ≤ 57

instance : DecidablePred IsDigit := fun _ => inferInstanceAs (Decidable (_ ∧ _))

theorem toNat_of_mem_toDigits (listed : digit ∈ Nat.toDigits 10 value) :
    48 ≤ digit.toNat ∧ digit.toNat ≤ 57 := by
  have inRange := Nat.isDigit_of_mem_toDigits (by decide) (by decide) listed
  simp only [Char.isDigit, Bool.and_eq_true, decide_eq_true_eq] at inRange
  exact inRange

theorem toDigits_small (value : Nat) : ∀ digit ∈ Nat.toDigits 10 value, digit.toNat < 256 := by
  intro digit listed
  have := toNat_of_mem_toDigits listed
  omega

theorem decimal_isDigit (value : Nat) : ∀ byte ∈ decimal value, IsDigit byte := by
  intro byte present
  obtain ⟨digit, listed, rfl⟩ := List.mem_map.mp present
  rw [IsDigit, UInt8.le_iff_toNat_le, UInt8.le_iff_toNat_le,
    UInt8.toNat_ofNat_of_lt' (toDigits_small value digit listed)]
  exact toNat_of_mem_toDigits listed

theorem decimal_injective : Function.Injective decimal := by
  intro left right equal
  have digits := codes_inj (toDigits_small left) (toDigits_small right) equal
  have values := congrArg (Nat.ofDigitChars 10 · 0) digits
  simpa only [Nat.ofDigitChars_toDigits (by decide : 1 < 10) (by decide)] using values

/-- A number before a fixed separator that does not begin with a digit. -/
theorem cut_decimal (starts : separator = first :: tail) (outside : ¬IsDigit first)
    (equal : decimal left ++ (separator ++ leftRest) = decimal right ++ (separator ++ rightRest)) :
    left = right ∧ leftRest = rightRest := by
  obtain ⟨digits, rests⟩ := cut_field starts outside (decimal_isDigit left)
    (decimal_isDigit right) equal
  exact ⟨decimal_injective digits, rests⟩

end Delimited

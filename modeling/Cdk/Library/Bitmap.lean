import Mathlib.Data.Nat.Count
import Mathlib.Tactic.Ring

/-!
# Bitmaps in words of 64 bits

Bit `index` of a bitmap is bit `index % 64` of word `index / 64`.  `isSet` is the
view of the words that everything else is stated in: setting and clearing a bit
change it at one index, the first word that is not full holds the lowest clear
bit, and the clear bits can be counted word by word.
-/

namespace Bitmap

open Function

/-! ## Bits of a word -/

def bit (word : UInt64) (place : Nat) : Bool := word >>> UInt64.ofNat place &&& 1 == 1

/-- The word with one bit. -/
def mask (place : Nat) : UInt64 := 1 <<< UInt64.ofNat place

variable {place : Nat}

theorem toNat_ofNat_place (inside : place < 64) : (UInt64.ofNat place).toNat = place := by
  rw [UInt64.toNat_ofNat']
  exact Nat.mod_eq_of_lt (inside.trans (by decide))

variable {word : UInt64}

theorem bit_eq_testBit (inside : place < 64) : bit word place = word.toNat.testBit place := by
  have same : (word >>> UInt64.ofNat place &&& 1 = 1) ↔ word.toNat.testBit place := by
    rw [← UInt64.toNat_inj, UInt64.toNat_and, UInt64.toNat_shiftRight,
      toNat_ofNat_place inside, Nat.mod_eq_of_lt inside]
    rw [show (1 : UInt64).toNat = 1 from rfl, Nat.and_one_is_mod, Nat.testBit_eq_decide_div_mod_eq,
      decide_eq_true_eq, Nat.shiftRight_eq_div_pow]
  rw [bit, Bool.eq_iff_iff, beq_iff_eq, same]

theorem toNat_mask (inside : place < 64) : (mask place).toNat = 2 ^ place := by
  rw [mask, UInt64.toNat_shiftLeft, toNat_ofNat_place inside, Nat.mod_eq_of_lt inside,
    show (1 : UInt64).toNat = 1 from rfl, Nat.one_shiftLeft]
  exact Nat.mod_eq_of_lt (Nat.pow_lt_pow_right (by decide) inside)

theorem bit_or_mask (inside : place < 64) (otherInside : other < 64) :
    bit (word ||| mask place) other = (bit word other || decide (place = other)) := by
  rw [bit_eq_testBit otherInside, bit_eq_testBit otherInside, UInt64.toNat_or,
    Nat.testBit_or, toNat_mask inside, Nat.testBit_two_pow]

theorem bit_and_not_mask (inside : place < 64) (otherInside : other < 64) :
    bit (word &&& ~~~mask place) other = (bit word other && !decide (place = other)) := by
  rw [bit_eq_testBit otherInside, bit_eq_testBit otherInside, UInt64.toNat_and,
    Nat.testBit_and, UInt64.toNat_not, toNat_mask inside]
  congr 1
  have fits : 2 ^ place < 2 ^ 64 := Nat.pow_lt_pow_right (by decide) inside
  rw [show UInt64.size - 1 - 2 ^ place = 2 ^ 64 - (2 ^ place + 1) by
      rw [UInt64.size]
      omega,
    Nat.testBit_two_pow_sub_succ fits, Nat.testBit_two_pow, decide_eq_true otherInside,
    Bool.true_and]

theorem eq_of_bits (same : ∀ place < 64, bit left place = bit right place) : left = right := by
  apply UInt64.toNat_inj.mp
  apply Nat.eq_of_testBit_eq
  intro place
  by_cases inside : place < 64
  · rw [← bit_eq_testBit inside, ← bit_eq_testBit inside]
    exact same place inside
  · have wide : 2 ^ 64 ≤ 2 ^ place := Nat.pow_le_pow_right (by decide) (not_lt.mp inside)
    rw [Nat.testBit_lt_two_pow (left.toNat_lt.trans_le wide),
      Nat.testBit_lt_two_pow (right.toNat_lt.trans_le wide)]

/-- A word without clear bits. -/
def full : UInt64 := 0xffffffffffffffff

theorem bit_full (inside : place < 64) : bit full place := by
  rw [bit_eq_testBit inside, show full.toNat = 2 ^ 64 - 1 from rfl, Nat.testBit_two_pow_sub_one,
    decide_eq_true inside]

/-- The number of set bits below the lowest clear one. -/
def trailingOnes (word : UInt64) : Nat := (List.range 64).findIdx fun place => !bit word place

theorem trailingOnes_spec (notFull : word ≠ full) :
    trailingOnes word < 64 ∧ bit word (trailingOnes word) = false ∧
      ∀ place < trailingOnes word, bit word place := by
  have someClear : ∃ place ∈ List.range 64, (!bit word place) := by
    by_contra none
    apply notFull
    apply eq_of_bits
    intro place inside
    rw [bit_full inside]
    by_contra clear
    exact none ⟨place, List.mem_range.mpr inside, by simpa using clear⟩
  have inside : trailingOnes word < 64 := by
    have found := List.findIdx_lt_length_of_exists someClear
    rwa [List.length_range] at found
  refine ⟨inside, ?_, ?_⟩
  · have found := @List.findIdx_getElem _ (fun place => !bit word place) (List.range 64)
      (by rwa [List.length_range])
    simpa [trailingOnes] using found
  · intro place below
    have before := List.not_of_lt_findIdx below
    simpa using before

def countZeros (word : UInt64) : Nat := Nat.count (fun place => bit word place = false) 64

theorem bit_and_low (narrow : width < 64) (inside : place < 64) :
    bit (word &&& (mask width - 1)) place = (bit word place && decide (place < width)) := by
  rw [bit_eq_testBit inside, bit_eq_testBit inside, UInt64.toNat_and, Nat.testBit_and]
  have fits : 2 ^ width < 2 ^ 64 := Nat.pow_lt_pow_right (by decide) narrow
  have positive : 0 < 2 ^ width := Nat.two_pow_pos width
  have low : (mask width - 1).toNat = 2 ^ width - 1 := by
    rw [UInt64.toNat_sub, toNat_mask narrow, show (1 : UInt64).toNat = 1 from rfl]
    omega
  rw [low, Nat.testBit_two_pow_sub_one]

variable {bound : Nat}

theorem count_eq_of_iff [DecidablePred p] [DecidablePred q]
    (same : ∀ index < bound, p index ↔ q index) : Nat.count p bound = Nat.count q bound :=
  le_antisymm (Nat.count_mono_left fun index inside => (same index inside).mp)
    (Nat.count_mono_left fun index inside => (same index inside).mpr)

/-- The zeros of the low `width` bits, counted in the masked word. -/
theorem countZeros_and_low (narrow : width < 64) :
    countZeros (word &&& (mask width - 1)) - (64 - width) =
      Nat.count (fun place => bit word place = false) width := by
  have split : countZeros (word &&& (mask width - 1)) =
      Nat.count (fun place => bit word place = false) width + (64 - width) := by
    rw [countZeros]
    conv_lhs => rw [show 64 = width + (64 - width) by omega]
    rw [Nat.count_add]
    congr 1
    · apply count_eq_of_iff
      intro place inside
      rw [bit_and_low narrow (inside.trans narrow), decide_eq_true inside, Bool.and_true]
    · apply Nat.count_iff_forall.mpr
      intro place inside
      rw [bit_and_low narrow (by omega), decide_eq_false (by omega), Bool.and_false]
  omega

/-! ## Bits of the bitmap -/

variable (words : Nat → UInt64) (index : Nat)

def isSet : Bool := bit (words (index / 64)) (index % 64)

/-- The bitmap with one more bit set. -/
def set : Nat → UInt64 :=
  update words (index / 64) (words (index / 64) ||| mask (index % 64))

def clear : Nat → UInt64 :=
  update words (index / 64) (words (index / 64) &&& ~~~mask (index % 64))

variable {words index} {other : Nat}

@[simp]
theorem isSet_set :
    isSet (set words index) other = (isSet words other || decide (index = other)) := by
  by_cases sameWord : other / 64 = index / 64
  · rw [isSet, isSet, set, sameWord, update_self,
      bit_or_mask (Nat.mod_lt _ (by decide)) (Nat.mod_lt _ (by decide))]
    congr 1
    rw [decide_eq_decide]
    omega
  · rw [isSet, isSet, set, update_of_ne sameWord, decide_eq_false, Bool.or_false]
    rintro rfl
    exact sameWord rfl

@[simp]
theorem isSet_clear :
    isSet (clear words index) other = (isSet words other && !decide (index = other)) := by
  by_cases sameWord : other / 64 = index / 64
  · rw [isSet, isSet, clear, sameWord, update_self,
      bit_and_not_mask (Nat.mod_lt _ (by decide)) (Nat.mod_lt _ (by decide))]
    congr 2
    rw [decide_eq_decide]
    omega
  · rw [isSet, isSet, clear, update_of_ne sameWord, decide_eq_false, Bool.not_false,
      Bool.and_true]
    rintro rfl
    exact sameWord rfl

theorem ext_isSet (same : ∀ index, isSet left index = isSet right index) : left = right := by
  funext word
  apply eq_of_bits
  intro place inside
  have at_place := same (word * 64 + place)
  rwa [isSet, isSet, show (word * 64 + place) / 64 = word by omega,
    show (word * 64 + place) % 64 = place by omega] at at_place

/-! ## Counting clear bits -/

def clearBelow (words : Nat → UInt64) (bound : Nat) : Nat :=
  Nat.count (fun index => isSet words index = false) bound

/-- The clear bits below a bound, counted word by word; of the last word only the bits
below the bound count. -/
def countClear (words : Nat → UInt64) (bound : Nat) : Nat :=
  ((List.range (bound / 64)).map fun word => countZeros (words word)).sum +
    if 0 < bound % 64 then
      countZeros (words (bound / 64) &&& (mask (bound % 64) - 1)) - (64 - bound % 64)
    else 0

theorem count_word {word width : Nat} (inside : width ≤ 64) :
    Nat.count (fun place => isSet words (word * 64 + place) = false) width =
      Nat.count (fun place => bit (words word) place = false) width := by
  apply count_eq_of_iff
  intro place below
  rw [isSet, show (word * 64 + place) / 64 = word by omega,
    show (word * 64 + place) % 64 = place by omega]

theorem clearBelow_full_words (words : Nat → UInt64) (count : Nat) : clearBelow words (count * 64) =
    ((List.range count).map fun word => countZeros (words word)).sum := by
  induction count with
  | zero => rfl
  | succ count step =>
    rw [List.range_succ, List.map_append, List.sum_append, ← step, clearBelow, Nat.succ_mul,
      Nat.count_add, count_word le_rfl]
    rfl

theorem countClear_eq (words : Nat → UInt64) (bound : Nat) :
    countClear words bound = clearBelow words bound := by
  have split : clearBelow words bound = clearBelow words (bound / 64 * 64) +
        Nat.count (fun place => bit (words (bound / 64)) place = false) (bound % 64) := by
    conv_lhs => rw [clearBelow, show bound = bound / 64 * 64 + bound % 64 by omega, Nat.count_add]
    rw [count_word (Nat.mod_lt _ (by decide)).le]
    rfl
  rw [split, clearBelow_full_words, countClear]
  congr 1
  split_ifs with ragged
  · exact countZeros_and_low (Nat.mod_lt _ (by decide))
  · rw [show bound % 64 = 0 by omega]
    rfl

theorem clearBelow_set (inside : index < bound) (wasClear : isSet words index = false) :
    clearBelow (set words index) bound + 1 = clearBelow words bound := by
  induction bound with
  | zero => omega
  | succ bound step =>
    rw [clearBelow, clearBelow, Nat.count_succ, Nat.count_succ]
    rcases Nat.lt_succ_iff_lt_or_eq.mp inside with below | rfl
    · have before := step below
      rw [clearBelow, clearBelow] at before
      simp only [isSet_set, decide_eq_false below.ne, Bool.or_false] at before ⊢
      omega
    · have unchanged : Nat.count (fun other => isSet (set words index) other = false) index =
          Nat.count (fun other => isSet words other = false) index := by
        apply count_eq_of_iff
        intro other below
        rw [isSet_set, decide_eq_false below.ne', Bool.or_false]
      rw [unchanged]
      simp [wasClear]

theorem set_clear (wasSet : isSet words index) : set (clear words index) index = words := by
  apply ext_isSet
  intro other
  by_cases here : index = other
  · subst here
    simp [wasSet]
  · simp [here]

theorem clearBelow_clear (inside : index < bound) (wasSet : isSet words index) :
    clearBelow (clear words index) bound = clearBelow words bound + 1 := by
  have back := @clearBelow_set bound (clear words index) index inside (by simp)
  rw [set_clear wasSet] at back
  exact back.symm

theorem clearBelow_pos_iff :
    0 < clearBelow words bound ↔ ∃ index < bound, isSet words index = false := by
  rw [Nat.pos_iff_ne_zero]
  exact Nat.count_ne_iff_exists

/-! ## Setting several bits -/

theorem isSet_foldl_set (indices : List Nat) (words : Nat → UInt64) :
    isSet (indices.foldl set words) other = (isSet words other || decide (other ∈ indices)) := by
  induction indices generalizing words with
  | nil => simp
  | cons index rest step =>
    rw [List.foldl_cons, step, isSet_set, Bool.or_assoc]
    congr 1
    simp [eq_comm]

theorem clearBelow_foldl_set {indices : List Nat} (distinct : indices.Nodup)
    (below : ∀ index ∈ indices, index < bound)
    (clearBefore : ∀ index ∈ indices, isSet words index = false) :
    clearBelow (indices.foldl set words) bound + indices.length = clearBelow words bound := by
  induction indices generalizing words with
  | nil => rfl
  | cons index rest step =>
    obtain ⟨fresh, distinctRest⟩ := List.nodup_cons.mp distinct
    have one := clearBelow_set (below index List.mem_cons_self)
      (clearBefore index List.mem_cons_self)
    have others := @step (set words index) distinctRest
      (fun other member => below other (List.mem_cons_of_mem _ member)) (by
        intro other member
        have apart : index ≠ other := fun same => fresh (same ▸ member)
        rw [isSet_set, decide_eq_false apart, Bool.or_false]
        exact clearBefore other (List.mem_cons_of_mem _ member))
    rw [List.foldl_cons, List.length_cons]
    omega

/-! ## The lowest clear bit -/

/-- The lowest clear bit of a bitmap of so many words: the words that are full are
skipped. -/
def lowestClear? (words : Nat → UInt64) (wordCount : Nat) : Option Nat :=
  ((List.range wordCount).find? fun word => words word != full).map fun word =>
    word * 64 + trailingOnes (words word)

theorem isSet_of_full (fullWord : words (index / 64) = full) : isSet words index := by
  rw [isSet, fullWord, bit_full (Nat.mod_lt _ (by decide))]

/-- A bit that the search returns is clear, and every bit below it is set. -/
theorem lowestClear?_eq_some (found : lowestClear? words wordCount = some index) :
    index < wordCount * 64 ∧ isSet words index = false ∧
      ∀ lower < index, isSet words lower := by
  obtain ⟨word, first, rfl⟩ := Option.map_eq_some_iff.mp found
  obtain ⟨notFull, inRange, skipped⟩ := List.find?_range_eq_some.mp first
  rw [List.mem_range] at inRange
  obtain ⟨inside, clearHere, setBelow⟩ := trailingOnes_spec (by simpa using notFull)
  have wordOf : (word * 64 + trailingOnes (words word)) / 64 = word := by omega
  refine ⟨by omega, ?_, ?_⟩
  · rw [isSet, wordOf, show (word * 64 + trailingOnes (words word)) % 64 =
      trailingOnes (words word) by omega]
    exact clearHere
  intro lower below
  by_cases sameWord : lower / 64 = word
  · rw [isSet, sameWord]
    exact setBelow _ (by omega)
  · apply isSet_of_full
    have earlier : lower / 64 < word := by omega
    simpa using skipped _ earlier

/-- The search fails only on a bitmap without clear bits. -/
theorem lowestClear?_eq_none (none : lowestClear? words wordCount = none)
    (inside : index < wordCount * 64) : isSet words index := by
  apply isSet_of_full
  have allFull := List.find?_eq_none.mp (Option.map_eq_none_iff.mp none) (index / 64)
    (List.mem_range.mpr (by omega))
  simpa using allFull

/-! ## The lowest run of clear bits -/

/-- So many bits from the start on are clear. -/
def ClearRun (words : Nat → UInt64) (start count : Nat) : Prop :=
  ∀ offset < count, isSet words (start + offset) = false

/-- The lowest run of `count` clear bits from `start` on, whose start is at most `limit`.
A set bit inside a run moves the search behind that bit. -/
def clearRun? (words : Nat → UInt64) (count limit : Nat) : Nat → Nat → Option Nat
  | 0, _ => none
  | fuel + 1, start =>
    if start ≤ limit then
      match (List.range count).find? fun offset => isSet words (start + offset) with
      | some offset => clearRun? words count limit fuel (start + offset + 1)
      | none => some start
    else none

theorem clearRun_of_find?_eq_none
    (none : ((List.range count).find? fun offset => isSet words (start + offset)) = none) :
    ClearRun words start count := by
  intro offset inside
  have notSet := List.find?_eq_none.mp none offset (List.mem_range.mpr inside)
  simpa using notSet

/-- No run starts at or before a set bit that lies within reach of `start`. -/
theorem not_clearRun_of_find?_eq_some
    (first : ((List.range count).find? fun offset => isSet words (start + offset)) = some offset)
    (from_start : start ≤ between) (upto : between ≤ start + offset) :
    ¬ ClearRun words between count := by
  intro run
  have inside := List.mem_range.mp (List.mem_of_find?_eq_some first)
  have setThere := List.find?_some first
  have clearThere := run (start + offset - between) (by omega)
  rw [Nat.add_sub_cancel' upto] at clearThere
  exact Bool.false_ne_true (clearThere.symm.trans setThere)

theorem clearRun?_eq_some (found : clearRun? words count limit fuel start = some result) :
    start ≤ result ∧ result ≤ limit ∧ ClearRun words result count ∧
      ∀ earlier, start ≤ earlier → earlier < result → ¬ ClearRun words earlier count := by
  -- Induction on the fuel; a set bit rules out every start up to it.
  induction fuel generalizing start with
  | zero => simp [clearRun?] at found
  | succ fuel step =>
    rw [clearRun?] at found
    split_ifs at found with within
    split at found
    case h_1 offset first =>
      obtain ⟨later, limited, run, lowest⟩ := step found
      refine ⟨by omega, limited, run, ?_⟩
      intro earlier from_start below
      by_cases behind : earlier ≤ start + offset
      · exact not_clearRun_of_find?_eq_some first from_start behind
      · exact lowest earlier (by omega) below
    case h_2 none =>
      cases found
      refine ⟨le_rfl, within, clearRun_of_find?_eq_none none, ?_⟩
      intro earlier from_start below
      omega

theorem clearRun?_eq_none (enough : limit < start + fuel)
    (failed : clearRun? words count limit fuel start = none) (from_start : start ≤ between)
    (limited : between ≤ limit) : ¬ ClearRun words between count := by
  induction fuel generalizing start with
  | zero => omega
  | succ fuel step =>
    rw [clearRun?, if_pos (by omega)] at failed
    split at failed
    case h_1 offset first =>
      by_cases behind : between ≤ start + offset
      · exact not_clearRun_of_find?_eq_some first from_start behind
      · exact step (by omega) failed (by omega)
    case h_2 => cases failed

end Bitmap

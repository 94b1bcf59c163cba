import Mathlib.Data.List.Basic
import Mathlib.Tactic.Ring

/-!
# Lines of hexadecimal numbers

A text file with one hexadecimal number in each line, as a program writes it
with a fixed width and reads it back by splitting lines, trimming white space
and parsing.  `numbers_flatMap_line` is the round trip for a whole file.
-/

namespace HexText

/-- A string as its characters. -/
abbrev Text := List Char

/-! ## Digits -/

/-- The last `width` lower-case hexadecimal digits of a number. -/
def hexDigits : (width : Nat) → Nat → Text
  | 0, _ => []
  | width + 1, value =>
    hexDigits width (value / 16) ++ [Nat.digitChar (value % 16)]

/-- The value of a hex digit. -/
def digitValue (character : Char) : Option Nat :=
  if '0' ≤ character ∧ character ≤ '9' then some (character.toNat - 48)
  else if 'a' ≤ character ∧ character ≤ 'f' then some (character.toNat - 87)
  else if 'A' ≤ character ∧ character ≤ 'F' then some (character.toNat - 55)
  else none

/-- Append a hex digit. -/
def accumulate (limit : Nat) (value : Option Nat) (character : Char) : Option Nat := do
  let high ← value
  let low ← digitValue character
  if high * 16 + low < limit then some (high * 16 + low) else none

/-- Parse a hexadecimal number below a limit, with an optional plus sign. -/
def parseHex (limit : Nat) (text : Text) : Option Nat :=
  match text with
  | [] | ['+'] => none
  | '+' :: digits | digits => digits.foldl (accumulate limit) (some 0)

theorem digitValue_digitChar : ∀ digit < 16, digitValue (Nat.digitChar digit) = some digit := by
  decide

theorem foldl_accumulate_hexDigits (width value : Nat) (fits : value < 16 ^ width)
    (small : value < limit) :
    (hexDigits width value).foldl (accumulate limit) (some 0) = some value := by
  induction width generalizing value with
  | zero =>
    have zero : value = 0 := by simpa using fits
    simp [hexDigits, zero]
  | succ width ih =>
    have high : value / 16 < 16 ^ width := by
      apply Nat.div_lt_of_lt_mul
      rwa [Nat.pow_succ, Nat.mul_comm] at fits
    have rebuilt : value / 16 * 16 + value % 16 = value := Nat.div_add_mod' value 16
    rw [hexDigits, List.foldl_append, ih _ high ((Nat.div_le_self _ _).trans_lt small)]
    simp [accumulate, digitValue_digitChar _ (Nat.mod_lt _ (by decide)), rebuilt, small]

theorem length_hexDigits (width value : Nat) : (hexDigits width value).length = width := by
  induction width generalizing value with
  | zero => rfl
  | succ width ih => simp [hexDigits, ih]

theorem forall_mem_hexDigits {property : Char → Prop}
    (holds : ∀ digit < 16, property (Nat.digitChar digit)) (width value : Nat) :
    ∀ character ∈ hexDigits width value, property character := by
  induction width generalizing value with
  | zero => simp [hexDigits]
  | succ width ih =>
    refine List.forall_mem_append.mpr ⟨ih _, List.forall_mem_singleton.mpr ?_⟩
    exact holds _ (Nat.mod_lt _ (by decide))

theorem parseHex_hexDigits (positive : 0 < width) (fits : value < 16 ^ width)
    (small : value < limit) : parseHex limit (hexDigits width value) = some value := by
  have noPlus : ∀ character ∈ hexDigits width value, character ≠ '+' :=
    forall_mem_hexDigits (by decide) width value
  have nonempty : hexDigits width value ≠ [] := by
    intro empty
    have := length_hexDigits width value
    rw [empty, List.length_nil] at this
    omega
  rw [← foldl_accumulate_hexDigits width value fits small]
  unfold parseHex
  split
  · rename_i empty
    exact absurd empty nonempty
  · rename_i plus
    exact absurd rfl (noPlus '+' (by simp [plus]))
  · rename_i digits _ plus
    exact absurd rfl (noPlus '+' (by simp [plus]))
  · rfl

/-! ## Lines -/

/-- Remove one carriage return at the end. -/
def stripReturn (line : Text) : Text :=
  if line.getLast? = some '\r' then line.dropLast else line

/-- The lines of a text whose first line has begun with `current`. -/
def splitLines : (current : Text) → Text → List Text
  | current, [] => if current.isEmpty then [] else [current]
  | current, character :: rest =>
    if character = '\n' then stripReturn current :: splitLines [] rest
    else splitLines (current ++ [character]) rest

def lines (text : Text) : List Text := splitLines [] text

theorem splitLines_append (current line rest : Text)
    (oneLine : ∀ character ∈ line, character ≠ '\n') : splitLines current (line ++ '\n' :: rest) =
      stripReturn (current ++ line) :: splitLines [] rest := by
  induction line generalizing current with
  | nil => simp [splitLines]
  | cons character line ih =>
    rw [List.cons_append, splitLines, if_neg (oneLine character List.mem_cons_self),
      ih _ fun other later =>
        oneLine other (List.mem_cons_of_mem _ later),
      List.append_assoc, List.singleton_append]

theorem mem_of_mem_stripReturn (present : character ∈ stripReturn line) : character ∈ line := by
  unfold stripReturn at present
  split at present
  · exact (List.dropLast_sublist line).subset present
  · exact present

theorem newline_notMem_splitLines (begun : '\n' ∉ current)
    (present : line ∈ splitLines current text) : '\n' ∉ line := by
  induction text generalizing current with
  | nil =>
    rw [splitLines] at present
    split at present
    · cases present
    · rwa [List.mem_singleton.mp present]
  | cons character rest ih =>
    rw [splitLines] at present
    split at present
    · rcases List.mem_cons.mp present with rfl | later
      · exact fun inside => begun (mem_of_mem_stripReturn inside)
      · exact ih List.not_mem_nil later
    · rename_i other
      apply ih _ present
      rw [List.mem_append, List.mem_singleton, not_or]
      exact ⟨begun, Ne.symm other⟩

/-- The text of lines, each with a line feed at its end. -/
def unlines (texts : List Text) : Text := texts.flatMap (· ++ ['\n'])

/-- The lines of such a text are the given ones, up to a carriage return at the
end of each. -/
theorem lines_unlines (single : ∀ text ∈ texts, '\n' ∉ text) :
    lines (unlines texts) = texts.map stripReturn := by
  unfold lines unlines
  induction texts with
  | nil => rfl
  | cons text rest ih =>
    have oneLine : ∀ character ∈ text, character ≠ '\n' :=
      fun character present same => single text List.mem_cons_self (same ▸ present)
    rw [List.flatMap_cons, List.append_assoc, List.singleton_append,
      splitLines_append _ _ _ oneLine, List.nil_append, List.map_cons,
      ih fun other later => single other (List.mem_cons_of_mem _ later)]

/-! ## Fields -/

/-- Split at the first separator. -/
def splitOnce (separator : Char) : Text → Option (Text × Text)
  | [] => none
  | character :: rest =>
    if character = separator then some ([], rest)
    else (splitOnce separator rest).map fun parts => (character :: parts.1, parts.2)

theorem splitOnce_append (absent : separator ∉ front) (back : Text) :
    splitOnce separator (front ++ separator :: back) = some (front, back) := by
  induction front with
  | nil => simp [splitOnce]
  | cons character rest ih =>
    rw [List.mem_cons, not_or] at absent
    rw [List.cons_append, splitOnce, if_neg (Ne.symm absent.1), ih absent.2, Option.map_some]

theorem mem_of_splitOnce (split : splitOnce separator text = some (front, back))
    (present : character ∈ back) : character ∈ text := by
  induction text generalizing front with
  | nil => cases split
  | cons first rest ih =>
    rw [splitOnce] at split
    split at split
    · cases split
      exact List.mem_cons_of_mem _ present
    · obtain ⟨⟨early, late⟩, later, same⟩ := Option.map_eq_some_iff.mp split
      cases same
      exact List.mem_cons_of_mem _ (ih later)

/-! ## White space -/

/-- Unicode white space. -/
def isWhitespace (character : Char) : Bool :=
  let code := character.toNat
  (9 ≤ code && code ≤ 13) || code == 0x20 || code == 0x85 || code == 0xA0 ||
    code == 0x1680 || (0x2000 ≤ code && code ≤ 0x200A) || code == 0x2028 ||
    code == 0x2029 || code == 0x202F || code == 0x205F || code == 0x3000

/-- Remove white space at both ends. -/
def trim (text : Text) : Text :=
  ((text.dropWhile isWhitespace).reverse.dropWhile isWhitespace).reverse

theorem dropWhile_of_none {text : Text}
    (dense : ∀ character ∈ text, isWhitespace character = false) :
    text.dropWhile isWhitespace = text := by
  cases text with
  | nil => rfl
  | cons character rest =>
    rw [List.dropWhile_cons_of_neg]
    simp [dense character List.mem_cons_self]

theorem trim_of_none {text : Text} (dense : ∀ character ∈ text, isWhitespace character = false) :
    trim text = text := by
  have reversed : ∀ character ∈ text.reverse, isWhitespace character = false :=
    fun character present => dense character (List.mem_reverse.mp present)
  rw [trim, dropWhile_of_none dense, dropWhile_of_none reversed, List.reverse_reverse]

/-! ## Whole files -/

def numbers (limit : Nat) (text : Text) : List Nat :=
  (lines text).filterMap fun line => parseHex limit (trim line)

def line (width value : Nat) : Text := hexDigits width value ++ ['\n']

theorem numbers_flatMap_line (positive : 0 < width) (fits : limit ≤ 16 ^ width) (values : List Nat)
    (small : ∀ value ∈ values, value < limit) :
    numbers limit (values.flatMap (line width)) = values := by
  unfold numbers lines
  induction values with
  | nil => rfl
  | cons value values ih =>
    have valueSmall := small value List.mem_cons_self
    have oneLine : ∀ character ∈ hexDigits width value, character ≠ '\n' :=
      forall_mem_hexDigits (by decide) width value
    have noReturn : ∀ character ∈ hexDigits width value, character ≠ '\r' :=
      forall_mem_hexDigits (by decide) width value
    have dense : ∀ character ∈ hexDigits width value, isWhitespace character = false :=
      forall_mem_hexDigits (by decide) width value
    have stripped : stripReturn (hexDigits width value) = hexDigits width value := by
      rw [stripReturn, if_neg]
      intro last
      exact noReturn '\r' (List.mem_of_getLast? last) rfl
    rw [List.flatMap_cons, line, List.append_assoc, List.singleton_append,
      splitLines_append _ _ _ oneLine, List.nil_append, stripped,
      List.filterMap_cons, trim_of_none dense,
      parseHex_hexDigits positive (valueSmall.trans_le fits) valueSmall]
    simp only [ih fun other later =>
      small other (List.mem_cons_of_mem _ later)]

end HexText

import Cdk.Library.ByteFormat

/-!
# Strings of bounded capacity

A `Str` has at most `capacity` bytes.  Text is written to a buffer of bounded
capacity piece by piece; a piece that does not fit is not written in part, and
ends the writing.  `writePieces_eq_flatten_iff` says exactly when everything is
written.
-/

namespace BoundedText

open ByteFormat

/-- A string of at most `capacity` bytes. -/
structure Str (capacity : Nat) where
  text : Bytes
  fits : text.length ≤ capacity
  deriving DecidableEq

namespace Str

@[ext] theorem ext {left right : Str capacity} (equal : left.text = right.text) : left = right := by
  cases left
  cases right
  congr

def truncate (capacity : Nat) (text : Bytes) : Str capacity :=
  ⟨text.take capacity, List.length_take_le _ _⟩

def ofBytes? (capacity : Nat) (text : Bytes) : Option (Str capacity) :=
  if fits : text.length ≤ capacity then some ⟨text, fits⟩ else none

theorem text_truncate_of_le {text : Bytes} (fits : text.length ≤ capacity) :
    (truncate capacity text).text = text :=
  List.take_of_length_le fits

end Str

def pushStr (capacity : Nat) (text piece : Bytes) : Bytes :=
  if text.length + piece.length ≤ capacity then text ++ piece else text

/-- Write pieces up to the first that does not fit. -/
def writePieces (capacity : Nat) : Bytes → List Bytes → Bytes
  | text, [] => text
  | text, piece :: rest =>
    if text.length + piece.length ≤ capacity then
      writePieces capacity (text ++ piece) rest
    else text

theorem length_writePieces_le (pieces : List Bytes) (fits : text.length ≤ capacity) :
    (writePieces capacity text pieces).length ≤ capacity := by
  induction pieces generalizing text with
  | nil => exact fits
  | cons piece rest ih =>
    rw [writePieces]
    split
    · rename_i room
      exact ih (by rwa [List.length_append])
    · exact fits

theorem length_writePieces_le_flatten (capacity : Nat) (pieces : List Bytes) :
    ∀ text : Bytes, (writePieces capacity text pieces).length ≤
      text.length + pieces.flatten.length := by
  induction pieces with
  | nil => simp [writePieces]
  | cons piece rest ih =>
    intro text
    rw [writePieces, List.flatten_cons, List.length_append]
    split
    · refine (ih _).trans ?_
      rw [List.length_append]
      omega
    · omega

theorem writePieces_eq_flatten_iff (capacity : Nat) (pieces : List Bytes) :
    writePieces capacity [] pieces = pieces.flatten ↔ pieces.flatten.length ≤ capacity := by
  have general : ∀ text : Bytes, text.length + pieces.flatten.length ≤ capacity →
      writePieces capacity text pieces = text ++ pieces.flatten := by
    induction pieces with
    | nil => simp [writePieces]
    | cons piece rest ih =>
      intro text fits
      rw [List.flatten_cons, List.length_append] at fits
      rw [writePieces, if_pos (by omega), ih, List.flatten_cons, List.append_assoc]
      rw [List.length_append]
      omega
  constructor
  · intro whole
    rw [← whole]
    exact length_writePieces_le pieces (Nat.zero_le capacity)
  · intro fits
    simpa using general [] (by simpa using fits)

end BoundedText

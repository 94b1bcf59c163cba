import Cdk.Boot.Manifest

/-!
# The boot ramdisk

The ramdisk is an `ustar` archive: headers of 512 bytes, each followed by the
data of a file.  The parser yields the regular files in their order and stops at
the end of the archive, at a block of zeros and at the first malformed header.
-/

namespace Cdk.Boot

open ByteFormat Link

/-- The size of a header, and the unit in which data is padded. -/
def block : Nat := 512

/-- Bytes of a file's name at most. -/
def maxName : Nat := 64

/-- A regular file of the archive. -/
structure File where
  name : Text
  data : Bytes
  deriving DecidableEq

/-- Malformed headers, with their offsets. -/
inductive TarError
  | badChecksum (offset : Nat)
  | badSize (offset : Nat)
  | truncated (offset : Nat)
  | badName (offset : Nat)
  | notUstar (offset : Nat)
  deriving DecidableEq

/-! ## Header fields -/

/-- Some bytes of a header. -/
def field (header : Bytes) (first length : Nat) : Bytes := (header.drop first).take length

/-- Read octal digits up to a space or a zero byte; leading ones are skipped. -/
def octalFrom : (value digits : Nat) → Bytes → Option Nat
  | value, digits, [] => if 0 < digits then some value else none
  | value, digits, byte :: rest =>
    if 48 ≤ byte ∧ byte ≤ 55 then
      let next := value * 8 + (byte.toNat - 48)
      if next < 2 ^ 64 then octalFrom next (digits + 1) rest else none
    else if byte = 32 ∨ byte = 0 then
      if digits = 0 then octalFrom value digits rest else some value
    else none

/-- The value of a numeric field. -/
def octal (field : Bytes) : Option Nat := octalFrom 0 0 field

/-- The sum of a header's bytes, with the checksum field read as spaces. -/
def headerSum (header : Bytes) : Nat :=
  (header.zipIdx.map fun (byte, index) =>
    if 148 ≤ index ∧ index < 156 then 32 else byte.toNat).sum

/-- Whether the stored checksum is that of the header. -/
def checksumOk (header : Bytes) : Bool :=
  match octal (field header 148 8) with
  | none => false
  | some stored => headerSum header == stored

/-- Printable and not a space. -/
def isAsciiGraphic (byte : UInt8) : Bool := 33 ≤ byte && byte ≤ 126

/-- The name without a leading `./`. -/
def stripDot : Text → Text
  | '.' :: '/' :: rest => rest
  | name => name

/-- The name of an entry; one that is split over the prefix field is refused. -/
def fileName (header : Bytes) : Option Text :=
  if header[345]? ≠ some 0 then none
  else do
    let text ← fromUtf8 ((field header 0 100).takeWhile (· != 0))
    let name := stripDot text
    if !name.isEmpty && (utf8 name).length ≤ maxName && (utf8 name).all isAsciiGraphic then
      some name
    else none

/-! ## The archive -/

/-- What is at an offset: nothing more, an error, or an entry and the offset of
the next one. -/
inductive Found
  | nothing
  | malformed (error : TarError)
  | skipped (next : Nat)
  | regular (file : File) (next : Nat)
  deriving DecidableEq

/-- The offset at which the iterator goes on. -/
def Found.next? : Found → Option Nat
  | .nothing | .malformed _ => none
  | .skipped next | .regular _ next => some next

/-- Check the header at an offset. -/
def readHeader (archive : Bytes) (offset : Nat) : Found :=
  if archive.length < offset + block then .nothing
  else
    let header := field archive offset block
    if header.all (· == 0) then .nothing
    else if field header 257 5 ≠ ascii "ustar" then .malformed (.notUstar offset)
    else if !checksumOk header then .malformed (.badChecksum offset)
    else
      match octal (field header 124 12) with
      | none => .malformed (.badSize offset)
      | some size =>
        let dataStart := offset + block
        if archive.length < dataStart + size then .malformed (.truncated offset)
        else
          let next := dataStart + (size + block - 1) / block * block
          -- Only regular files: '0' or the legacy zero byte.
          if header[156]? ≠ some 48 ∧ header[156]? ≠ some 0 then .skipped next
          else
            match fileName header with
            | none => .malformed (.badName offset)
            | some name => .regular ⟨name, field archive dataStart size⟩ next

/-- The files from an offset on, over at most so many headers. -/
def filesFrom (archive : Bytes) : (fuel offset : Nat) → List (Except TarError File)
  | 0, _ => []
  | fuel + 1, offset =>
    match readHeader archive offset with
    | .nothing => []
    | .malformed error => [.error error]
    | .skipped next => filesFrom archive fuel next
    | .regular file next => .ok file :: filesFrom archive fuel next

/-- The files of the archive, and the error at which the iterator stopped. -/
def parse (archive : Bytes) : List (Except TarError File) :=
  filesFrom archive (archive.length / block + 1) 0

variable {archive : Bytes}

/-- A header from which the iterator goes on moves the offset by a block at
least. -/
theorem next_of_readHeader (found : (readHeader archive offset).next? = some next) :
    offset + block ≤ next := by
  unfold readHeader at found
  dsimp only at found
  repeat' split at found
  all_goals simp only [Found.next?, reduceCtorEq, Option.some.injEq] at found
  all_goals omega

theorem filesFrom_of_enough (enough : archive.length < offset + block * fuel) (extra : Nat) :
    filesFrom archive (fuel + extra) offset = filesFrom archive fuel offset := by
  induction fuel generalizing offset with
  | zero =>
    cases extra with
    | zero => rfl
    | succ extra =>
      have past : archive.length < offset + block := by omega
      rw [Nat.zero_add, filesFrom, filesFrom, readHeader, if_pos past]
  | succ fuel ih =>
    rw [Nat.add_right_comm, filesFrom, filesFrom]
    cases found : readHeader archive offset with
    | nothing | malformed error => rfl
    | skipped next =>
      have behind := next_of_readHeader (congrArg Found.next? found)
      apply ih
      rw [Nat.mul_succ] at enough
      omega
    | regular file next =>
      have behind := next_of_readHeader (congrArg Found.next? found)
      apply congrArg (Except.ok file :: ·)
      apply ih
      rw [Nat.mul_succ] at enough
      omega

/-- The iteration ends: every header from which it goes on moves the offset by a
block at least, and more headers than the archive has blocks are not read. -/
theorem iteration_ends
    (archive : Bytes)
    (fuel : Nat)
    (enough : archive.length / block + 1 ≤ fuel) :
    (∀ offset next, (readHeader archive offset).next? = some next → offset + block ≤ next) ∧
      filesFrom archive fuel 0 = parse archive := by
  refine ⟨fun _ _ => next_of_readHeader, ?_⟩
  obtain ⟨extra, rfl⟩ := Nat.exists_eq_add_of_le enough
  apply filesFrom_of_enough
  have whole := Nat.lt_mul_div_succ archive.length (show 0 < block by decide)
  rwa [Nat.zero_add]

/-- The regular files, without a final error. -/
def files (archive : Bytes) : List File := (parse archive).filterMap Except.toOption

/-- The first file with the name. -/
def find (archive : Bytes) (name : Text) : Option File :=
  (files archive).find? fun file => file.name == name

end Cdk.Boot

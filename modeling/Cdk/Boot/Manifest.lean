import Cdk.Library.FirstMatch
import Cdk.Link.Attest
import Mathlib.Data.List.Sort

/-!
# The boot manifest

The manifest lists the SHA-256 digest of every file of the ramdisk, sorted by
name, one line for each.  The checker reads the lines, insists on the canonical
text and then ticks the files off one by one; the builder sorts the files and
writes the lines.  A text passes the check exactly if it is the one that the
builder writes.
-/

namespace Cdk.Boot

open ByteFormat Link
open HexText hiding Text line lines

def manifestFile : Text := "boot.manifest".toList

def signatureFile : Text := "boot.manifest.sig".toList

def manifestHeader : Text := "CDK-BOOT-MANIFEST-v1".toList

/-- The FIPS 204 context of the signatures of the release key. -/
def manifestContext : Bytes := ascii "CDK-BOOT-v1"

variable (sha256 : Bytes → Fixed 32)

/-- What the release key signs. -/
def manifestDigest (manifest : Bytes) : Fixed 32 :=
  sha256 (manifestContext ++ [0] ++ manifest)

/-! ## Digests in hexadecimal -/

def unhexPairs : Text → Option Bytes
  | [] => some []
  | [_] => none
  | high :: low :: rest => do
      let value ← parseHex 256 [high, low]
      let bytes ← unhexPairs rest
      pure (UInt8.ofNat value :: bytes)

def unhex32 (text : Text) : Option (Fixed 32) :=
  if (utf8 text).length ≠ 64 then none
  else (unhexPairs text).bind (Fixed.ofBytes? 32)

theorem forall_mem_hex {property : Char → Prop}
    (holds : ∀ digit < 16, property (Nat.digitChar digit)) (bytes : Bytes) :
    ∀ character ∈ hex bytes, property character := by
  intro character present
  obtain ⟨byte, -, inside⟩ := List.mem_flatMap.mp present
  exact forall_mem_hexDigits holds 2 byte.toNat character inside

theorem length_utf8_of_ascii (narrow : ∀ character ∈ text, character.utf8Size = 1) :
    (utf8 text).length = text.length := by
  induction text with
  | nil => rfl
  | cons character rest ih =>
    rw [utf8, List.flatMap_cons, List.length_append, String.length_utf8EncodeChar,
      narrow character List.mem_cons_self, List.length_cons, Nat.add_comm 1]
    congr 1
    exact ih fun other later =>
      narrow other (List.mem_cons_of_mem _ later)

theorem unhexPairs_hex (bytes : Bytes) : unhexPairs (hex bytes) = some bytes := by
  induction bytes with
  | nil => rfl
  | cons byte rest ih =>
    have parsed : parseHex 256 (hexDigits 2 byte.toNat) = some byte.toNat :=
      parseHex_hexDigits (by decide) byte.toNat_lt byte.toNat_lt
    rw [hex, List.flatMap_cons]
    simp only [hexDigits, List.nil_append, List.cons_append] at parsed ⊢
    rw [unhexPairs, parsed]
    change ((unhexPairs (hex rest)).bind fun bytes => _) = _
    rw [ih, Option.bind_some, UInt8.ofNat_toNat]
    rfl

@[simp] theorem unhex32_hex (digest : Fixed 32) : unhex32 (hex digest.bytes) = some digest := by
  have length : (utf8 (hex digest.bytes)).length = 64 := by
    rw [length_utf8_of_ascii (forall_mem_hex (by decide) _), hex, List.length_flatMap]
    simp [length_hexDigits]
  rw [unhex32, if_neg (not_not.mpr length), unhexPairs_hex, Option.bind_some, Fixed.ofBytes?_bytes]

/-! ## Building -/

/-- A name and a digest. -/
abbrev Entry := Text × Fixed 32

/-- Strings are compared by their bytes. -/
def NameLe (left right : Entry) : Prop := utf8 left.1 ≤ utf8 right.1

instance : DecidableRel NameLe := fun left right =>
  inferInstanceAs (Decidable (utf8 left.1 ≤ utf8 right.1))

instance : IsTrans Entry NameLe where
  trans _ _ _ := List.le_trans

instance : Std.Total NameLe where
  total left right := List.le_total (utf8 left.1) (utf8 right.1)

def entryLine (entry : Entry) : Text := hex entry.2.bytes ++ ' ' :: entry.1

def canonical (entries : List Entry) : Text :=
  unlines (manifestHeader :: entries.map entryLine)

def isOwnFile (name : Text) : Bool := name == manifestFile || name == signatureFile

def covered (files : List (Text × Bytes)) : List Entry :=
  (files.filter fun file => !isOwnFile file.1).map fun file => (file.1, sha256 file.2)

def buildManifest (files : List (Text × Bytes)) : Text :=
  canonical ((covered sha256 files).insertionSort NameLe)

/-! ## Checking -/

/-- What is wrong with a ramdisk. -/
inductive ManifestError
  | malformed
  | mismatch
  | missing
  | unlisted
  deriving DecidableEq

def readLine (line : Text) : Option Entry := do
  let (digest, name) ← splitOnce ' ' line
  let digest ← unhex32 digest
  pure (name, digest)

/-- Read lines with increasing names. -/
def readEntries : (previous : Option Text) → List Text → Option (List Entry)
  | _, [] => some []
  | previous, line :: rest => do
      let entry ← readLine line
      if entry.1.isEmpty || previous.any fun name => decide (utf8 entry.1 ≤ utf8 name) then none
      else
        let later ← readEntries (some entry.1) rest
        pure (entry :: later)

/-- An entry and whether a file was found for it. -/
structure Listed where
  entry : Entry
  used : Bool
  deriving DecidableEq

/-- Tick off a file. -/
def checkFile (listed : List Listed) (file : Text × Bytes) : Except ManifestError (List Listed) :=
  if isOwnFile file.1 then .ok listed
  else
    match listed.find? fun item => item.entry.1 == file.1 with
    | none => .error .unlisted
    | some item =>
      if item.used then .error .unlisted
      else if sha256 file.2 ≠ item.entry.2 then .error .mismatch
      else .ok (listed.replaceF fun other =>
        if other.entry.1 == file.1 then some { other with used := true } else none)

/-- Tick off all files. -/
def checkFiles : List Listed → List (Text × Bytes) → Except ManifestError (List Listed)
  | listed, [] => .ok listed
  | listed, file :: rest =>
    match checkFile sha256 listed file with
    | .error error => .error error
    | .ok ticked => checkFiles ticked rest

/-- The entries of a canonical manifest. -/
def readManifest (manifest : Text) : Option (List Entry) :=
  match HexText.lines manifest with
  | [] => none
  | header :: rest =>
    if header ≠ manifestHeader then none
    else (readEntries none rest).filter fun entries => canonical entries == manifest

/-- Check that the files are exactly those of the manifest; the result is their
number. -/
def checkManifest (manifest : Text) (files : List (Text × Bytes)) : Except ManifestError Nat :=
  match readManifest manifest with
  | none => .error .malformed
  | some entries =>
    match checkFiles sha256 (entries.map (⟨·, false⟩)) files with
    | .error error => .error error
    | .ok listed =>
      if listed.any fun item => !item.used then .error .missing
      else .ok listed.length

/-! ## Ticking off -/

section Ticking

variable {sha256 : Bytes → Fixed 32}

def stillOpen (listed : List Listed) : List Entry :=
  (listed.filter fun item => !item.used).map Listed.entry

theorem covered_cons (file : Text × Bytes) (files : List (Text × Bytes)) :
    covered sha256 (file :: files) = covered sha256 [file] ++ covered sha256 files := by
  unfold covered
  rw [← List.map_append, ← List.filter_append, List.singleton_append]

variable {file : Text × Bytes}

theorem covered_other (other : isOwnFile file.1 = false) :
    covered sha256 [file] = [(file.1, sha256 file.2)] := by
  simp [covered, other]

theorem checkFile_ok (done : checkFile sha256 listed file = .ok ticked) :
    (stillOpen listed).Perm (covered sha256 [file] ++ stillOpen ticked) ∧
      ticked.map Listed.entry = listed.map Listed.entry := by
  unfold checkFile at done
  split at done
  · rename_i own
    cases done
    simp [covered, own]
  rename_i other
  split at done
  · cases done
  rename_i item found
  split at done
  · cases done
  rename_i unused
  split at done
  · cases done
  rename_i same
  cases done
  obtain ⟨early, late, split, replaced⟩ :=
    FirstMatch.replaceF_of_find (fun other => { other with used := true }) found
  have name : item.entry.1 = file.1 := by simpa using List.find?_some found
  have entry : (file.1, sha256 file.2) = item.entry := by
    rw [← name, not_not.mp same]
  have stays : (!item.used) := by simpa using unused
  rw [replaced, covered_other (by simpa using other), entry, split]
  refine ⟨?_, by simp⟩
  simp only [stillOpen, List.filter_append, List.filter_cons, stays, if_true, Bool.not_true,
    Bool.false_eq_true, if_false, List.map_append, List.map_cons, List.singleton_append]
  exact List.perm_middle

theorem checkFiles_ok (done : checkFiles sha256 listed files = .ok final) :
    (stillOpen listed).Perm (covered sha256 files ++ stillOpen final) ∧
      final.map Listed.entry = listed.map Listed.entry := by
  induction files generalizing listed with
  | nil =>
    cases done
    exact ⟨.refl _, rfl⟩
  | cons file rest ih =>
    rw [checkFiles] at done
    split at done
    · cases done
    rename_i ticked first
    obtain ⟨taken, kept⟩ := checkFile_ok first
    obtain ⟨later, keptLater⟩ := ih done
    rw [covered_cons, List.append_assoc]
    exact ⟨taken.trans (later.append_left _), keptLater.trans kept⟩

theorem exists_checkFile (distinct : (listed.map fun item => item.entry.1).Nodup)
    (expected : isOwnFile file.1 = false → (file.1, sha256 file.2) ∈ stillOpen listed) :
    ∃ ticked, checkFile sha256 listed file = .ok ticked := by
  cases own : isOwnFile file.1 with
  | true => exact ⟨listed, by simp [checkFile, own]⟩
  | false =>
    obtain ⟨item, kept, entry⟩ := List.mem_map.mp (expected own)
    obtain ⟨present, unused⟩ := List.mem_filter.mp kept
    have unused : item.used = false := by simpa using unused
    have found : listed.find? (fun item => item.entry.1 == file.1) = some item := by
      apply FirstMatch.find_of_unique present (by simp [entry])
      intro other inside named
      apply List.inj_on_of_nodup_map distinct inside present
      rw [entry]
      simpa using named
    rw [checkFile, own, if_neg Bool.false_ne_true, found]
    simp only [unused, entry, Bool.false_eq_true, if_false, ne_eq, not_true_eq_false]
    exact ⟨_, rfl⟩

theorem exists_checkFiles {listed : List Listed} {files : List (Text × Bytes)} {extra : List Entry}
    (distinct : (listed.map fun item => item.entry.1).Nodup)
    (enough : (stillOpen listed).Perm (covered sha256 files ++ extra)) :
    ∃ final, checkFiles sha256 listed files = .ok final := by
  induction files generalizing listed with
  | nil => exact ⟨listed, rfl⟩
  | cons file rest ih =>
    rw [covered_cons, List.append_assoc] at enough
    obtain ⟨ticked, done⟩ : ∃ ticked, checkFile sha256 listed file = .ok ticked := by
      apply exists_checkFile distinct
      intro other
      rw [enough.mem_iff, covered_other other]
      exact List.mem_append_left _ (List.mem_singleton_self _)
    obtain ⟨taken, kept⟩ := checkFile_ok done
    have names : (ticked.map fun item => item.entry.1) = listed.map fun item => item.entry.1 := by
      have firsts := congrArg (List.map Prod.fst) kept
      rwa [List.map_map, List.map_map] at firsts
    rw [checkFiles, done]
    apply ih
    · rwa [names]
    · exact (List.perm_append_left_iff _).mp (taken.symm.trans enough)

end Ticking

/-! ## Reading the lines -/

theorem space_notMem_hex (bytes : Bytes) : ' ' ∉ hex bytes := by
  intro present
  exact @forall_mem_hex (fun character => character ≠ ' ') (by decide) bytes ' ' present rfl

@[simp] theorem readLine_entryLine (entry : Entry) : readLine (entryLine entry) = some entry := by
  rw [readLine, entryLine, splitOnce_append (space_notMem_hex _)]
  simp

variable {entry : Entry}

theorem newline_notMem_of_readLine (read : readLine line = some entry) (single : '\n' ∉ line) :
    '\n' ∉ entry.1 := by
  obtain ⟨⟨front, back⟩, split, rest⟩ := Option.bind_eq_some_iff.mp read
  obtain ⟨digest, -, same⟩ := Option.bind_eq_some_iff.mp rest
  cases same
  exact fun present => single (mem_of_splitOnce split present)

/-- The names follow each other in the order of their bytes. -/
def Increasing (previous : Option Text) (entries : List Entry) : Prop :=
  (previous.toList ++ entries.map Prod.fst).Pairwise fun left right => utf8 left < utf8 right

variable {entries : List Entry}

theorem increasing_cons : Increasing previous (entry :: entries) ↔
    (∀ name ∈ previous, utf8 name < utf8 entry.1) ∧ Increasing (some entry.1) entries := by
  cases previous with
  | none => simp [Increasing]
  | some name =>
    simp only [Increasing, Option.toList_some, List.singleton_append, List.map_cons,
      List.pairwise_cons, List.mem_cons, forall_eq_or_imp, Option.mem_some_iff, forall_eq']
    constructor
    · rintro ⟨⟨first, -⟩, later⟩
      exact ⟨first, later⟩
    · rintro ⟨first, later, rest⟩
      exact ⟨⟨first, fun other inside => List.lt_trans first (later other inside)⟩, later, rest⟩

/-- Lines are accepted exactly if each is read and the names are not empty and
increase. -/
theorem readEntries_eq_some_iff :
    readEntries previous lines = some entries ↔ lines.map readLine = entries.map some ∧
        (∀ entry ∈ entries, entry.1 ≠ []) ∧ Increasing previous entries := by
  induction lines generalizing previous entries with
  | nil =>
    cases entries with
    | nil => cases previous <;> simp [readEntries, Increasing]
    | cons entry rest => simp [readEntries]
  | cons line lines ih =>
    cases read : readLine line with
    | none =>
      cases entries <;> simp [readEntries, read]
    | some entry =>
      have unordered : (entry.1.isEmpty ||
          previous.any fun name => decide (utf8 entry.1 ≤ utf8 name)) = false ↔
          entry.1 ≠ [] ∧ ∀ name ∈ previous, utf8 name < utf8 entry.1 := by
        cases previous <;> simp [List.isEmpty_eq_false_iff]
      simp only [readEntries, read, Option.bind_eq_bind, Option.bind_some, List.map_cons]
      constructor
      · intro accepted
        split at accepted
        · cases accepted
        rename_i fine
        obtain ⟨nonempty, ordered⟩ := unordered.mp (by simpa using fine)
        obtain ⟨later, readLater, same⟩ := Option.bind_eq_some_iff.mp accepted
        cases same
        obtain ⟨lines_eq, nonempties, increasing⟩ := ih.mp readLater
        rw [increasing_cons, List.map_cons, lines_eq, List.forall_mem_cons]
        exact ⟨rfl, ⟨nonempty, nonempties⟩, ordered, increasing⟩
      · rintro ⟨lines_eq, nonempties, increasing⟩
        cases entries with
        | nil => cases lines_eq
        | cons first rest =>
          rw [List.map_cons, List.cons.injEq, Option.some.injEq] at lines_eq
          obtain ⟨rfl, lines_eq⟩ := lines_eq
          rw [List.forall_mem_cons] at nonempties
          rw [increasing_cons] at increasing
          rw [unordered.mpr ⟨nonempties.1, increasing.1⟩, if_neg Bool.false_ne_true,
            ih.mpr ⟨lines_eq, nonempties.2, increasing.2⟩]
          rfl

theorem Increasing.nodup (increasing : Increasing none entries) : (entries.map Prod.fst).Nodup := by
  apply List.Pairwise.imp _ increasing
  rintro left right before rfl
  exact List.lt_irrefl _ before

/-! ## The canonical text -/

theorem getLast?_entryLine (nonempty : entry.1 ≠ []) :
    (entryLine entry).getLast? = entry.1.getLast? := by
  rw [entryLine, List.getLast?_append, List.getLast?_cons]
  cases last : entry.1.getLast? with
  | none => exact absurd (List.getLast?_eq_none_iff.mp last) nonempty
  | some character => rfl

theorem newline_notMem_entryLine (single : '\n' ∉ entry.1) : '\n' ∉ entryLine entry := by
  have digits : '\n' ∉ hex entry.2.bytes := fun present =>
    @forall_mem_hex (fun character => character ≠ '\n') (by decide) _ '\n' present rfl
  rw [entryLine, List.mem_append, List.mem_cons, not_or, not_or]
  exact ⟨digits, by decide, single⟩

theorem lines_canonical (single : ∀ entry ∈ entries, '\n' ∉ entry.1) :
    HexText.lines (canonical entries) =
      manifestHeader :: entries.map fun entry => stripReturn (entryLine entry) := by
  rw [canonical, lines_unlines]
  · rw [List.map_cons, List.map_map]
    rfl
  intro line present
  rcases List.mem_cons.mp present with rfl | later
  · decide
  · obtain ⟨entry, inside, rfl⟩ := List.mem_map.mp later
    exact newline_notMem_entryLine (single entry inside)

theorem stripReturn_entryLine (nonempty : entry.1 ≠ [])
    (read : readLine (stripReturn (entryLine entry)) = some entry) :
    stripReturn (entryLine entry) = entryLine entry := by
  unfold stripReturn at read ⊢
  split at read
  · have shorter : (entryLine entry).dropLast = entryLine (entry.1.dropLast, entry.2) := by
      rw [entryLine, entryLine, List.dropLast_append_cons, List.dropLast_cons_of_ne_nil nonempty]
    rw [shorter, readLine_entryLine] at read
    have same := congrArg (fun found => found.map fun entry : Entry => entry.1.length) read
    simp only [Option.map_some, Option.some.injEq, List.length_dropLast] at same
    have positive := List.length_pos_of_ne_nil nonempty
    omega
  · rename_i noReturn
    exact if_neg noReturn

theorem readManifest_spec (read : readManifest manifest = some entries) :
    HexText.lines manifest = manifestHeader :: entries.map entryLine ∧
      canonical entries = manifest ∧ Increasing none entries := by
  unfold readManifest at read
  split at read
  · cases read
  rename_i header rest lines_eq
  split at read
  · cases read
  rename_i same
  obtain rfl := not_not.mp same
  obtain ⟨accepted, text⟩ := Option.filter_eq_some_iff.mp read
  have text : canonical entries = manifest := by simpa using text
  obtain ⟨reads, nonempty, increasing⟩ := readEntries_eq_some_iff.mp accepted
  have single : ∀ entry ∈ entries, '\n' ∉ entry.1 := by
    intro entry inside
    obtain ⟨line, present, read⟩ : ∃ line ∈ rest, readLine line = some entry := by
      rw [← List.mem_map, reads]
      exact List.mem_map_of_mem inside
    apply newline_notMem_of_readLine read
    apply newline_notMem_splitLines List.not_mem_nil
    exact lines_eq ▸ List.mem_cons_of_mem _ present
  have stripped := lines_canonical single
  rw [text, lines_eq, List.cons.injEq] at stripped
  have whole : ∀ entry ∈ entries, stripReturn (entryLine entry) = entryLine entry := by
    intro entry inside
    apply stripReturn_entryLine (nonempty entry inside)
    rw [stripped.2, List.map_map, List.map_inj_left] at reads
    exact reads entry inside
  rw [List.map_congr_left whole] at stripped
  exact ⟨by rw [lines_eq, stripped.2], text, increasing⟩

theorem readManifest_canonical (names : ∀ entry ∈ entries,
      entry.1 ≠ [] ∧ '\n' ∉ entry.1 ∧ entry.1.getLast? ≠ some '\r')
    (increasing : Increasing none entries) : readManifest (canonical entries) = some entries := by
  have whole : ∀ entry ∈ entries, stripReturn (entryLine entry) = entryLine entry := by
    intro entry inside
    obtain ⟨nonempty, -, noReturn⟩ := names entry inside
    exact if_neg (by rwa [getLast?_entryLine nonempty])
  have accepted : readEntries none (entries.map entryLine) = some entries := by
    apply readEntries_eq_some_iff.mpr
    refine ⟨?_, fun entry inside => (names entry inside).1, increasing⟩
    rw [List.map_map]
    apply List.map_congr_left
    intro entry _
    exact readLine_entryLine entry
  rw [readManifest, lines_canonical fun entry inside => (names entry inside).2.1,
    List.map_congr_left whole]
  simp [accepted]

/-! ## One manifest for each set of files -/

variable {sha256 : Bytes → Fixed 32} {manifest : Text} {files : List (Text × Bytes)}

theorem stillOpen_unused (entries : List Entry) :
    stillOpen (entries.map (⟨·, false⟩)) = entries := by
  induction entries with
  | nil => rfl
  | cons entry rest ih => exact congrArg (entry :: ·) ih

theorem stillOpen_eq_nil_iff :
    stillOpen listed = [] ↔ (listed.any fun item => !item.used) = false := by
  simp [stillOpen]

/-- The check passes exactly if the entries are those of the files, in any
order. -/
theorem checkManifest_eq_ok_iff : checkManifest sha256 manifest files = .ok count ↔
    ∃ entries, readManifest manifest = some entries ∧ entries.Perm (covered sha256 files) ∧
        count = entries.length := by
  unfold checkManifest
  cases read : readManifest manifest with
  | none => simp
  | some entries =>
    simp only [Option.some.injEq, exists_eq_left']
    constructor
    · intro passed
      split at passed
      · cases passed
      rename_i listed done
      split at passed
      · cases passed
      rename_i complete
      cases passed
      obtain ⟨taken, kept⟩ := checkFiles_ok done
      rw [stillOpen_unused, stillOpen_eq_nil_iff.mpr (by simpa using complete),
        List.append_nil] at taken
      have length := congrArg List.length kept
      simp only [List.length_map] at length
      exact ⟨taken, length⟩
    · rintro ⟨taken, rfl⟩
      obtain ⟨-, -, increasing⟩ := readManifest_spec read
      obtain ⟨listed, done⟩ :
          ∃ listed, checkFiles sha256 (entries.map (⟨·, false⟩)) files = .ok listed := by
        apply @exists_checkFiles _ _ _ []
        · rw [List.map_map]
          exact increasing.nodup
        · rwa [stillOpen_unused, List.append_nil]
      obtain ⟨left, kept⟩ := checkFiles_ok done
      rw [stillOpen_unused] at left
      have none : stillOpen listed = [] := by
        have both : (covered sha256 files ++ []).Perm
            (covered sha256 files ++ stillOpen listed) := by
          rw [List.append_nil]
          exact taken.symm.trans left
        exact ((List.perm_append_left_iff _).mp both).nil_eq.symm
      have length := congrArg List.length kept
      simp only [List.length_map] at length
      rw [done]
      simp only [stillOpen_eq_nil_iff.mp none, Bool.false_eq_true, if_false, length]

theorem Increasing.pairwise_nameLe (increasing : Increasing none entries) :
    entries.Pairwise NameLe := by
  apply List.Pairwise.imp _ (List.pairwise_map.mp increasing)
  intro left right before
  exact List.le_of_lt before

theorem eq_insertionSort_of_increasing (increasing : Increasing none entries)
    (same : entries.Perm others) : entries = others.insertionSort NameLe := by
  have sorted := List.perm_insertionSort NameLe others
  apply List.Perm.eq_of_pairwise _ increasing.pairwise_nameLe
    (List.pairwise_insertionSort NameLe others) (same.trans sorted.symm)
  intro left right inLeft inRight before after
  have inRight : right ∈ entries := by rwa [same.mem_iff, ← sorted.mem_iff]
  apply List.inj_on_of_nodup_map increasing.nodup inLeft inRight
  exact utf8_injective (List.le_antisymm before after)

theorem increasing_insertionSort (distinct : (entries.map Prod.fst).Nodup) :
    Increasing none (entries.insertionSort NameLe) := by
  have sorted := List.perm_insertionSort NameLe entries
  have names : ((entries.insertionSort NameLe).map Prod.fst).Nodup :=
    (sorted.map Prod.fst).nodup_iff.mpr distinct
  apply List.pairwise_map.mpr
  apply List.Pairwise.imp_of_mem _
    ((List.pairwise_insertionSort NameLe entries).and (List.pairwise_map.mp names))
  intro left right _ _ both
  by_contra notBefore
  apply both.2
  exact utf8_injective (List.le_antisymm both.1 (List.not_lt.mp notBefore))

/-- For files with names that a line can hold, the check passes exactly if the
names are distinct and the manifest is the text that is built from the files;
it counts them, and their order does not matter. -/
theorem manifest_unique
    (sha256 : Bytes → Fixed 32)
    (manifest : Text)
    (files : List (Text × Bytes))
    (names : ∀ file ∈ files, file.1 ≠ [] ∧ '\n' ∉ file.1 ∧ file.1.getLast? ≠ some '\r') :
    (∀ count, checkManifest sha256 manifest files = .ok count ↔
      ((files.filter fun file => !isOwnFile file.1).map Prod.fst).Nodup ∧
        manifest = buildManifest sha256 files ∧
        count = (files.filter fun file => !isOwnFile file.1).length) ∧
    ∀ others, others.Perm files → (checkManifest sha256 manifest others).toOption =
        (checkManifest sha256 manifest files).toOption := by
  have coveredNames : (covered sha256 files).map Prod.fst =
      (files.filter fun file => !isOwnFile file.1).map Prod.fst := by
    rw [covered, List.map_map]
    rfl
  refine ⟨?_, ?_⟩
  · intro count
    rw [checkManifest_eq_ok_iff, ← coveredNames]
    constructor
    · rintro ⟨entries, read, same, rfl⟩
      obtain ⟨-, text, increasing⟩ := readManifest_spec read
      refine ⟨(same.map Prod.fst).nodup_iff.mp increasing.nodup, ?_, ?_⟩
      · rw [← text, buildManifest, ← eq_insertionSort_of_increasing increasing same]
      · rw [same.length_eq, covered, List.length_map]
    · rintro ⟨distinct, rfl, rfl⟩
      have sorted := List.perm_insertionSort NameLe (covered sha256 files)
      refine ⟨_, readManifest_canonical ?_ (increasing_insertionSort distinct), sorted, ?_⟩
      · intro entry inside
        obtain ⟨file, kept, rfl⟩ := List.mem_map.mp (sorted.mem_iff.mp inside)
        exact names file (List.mem_filter.mp kept).1
      · rw [sorted.length_eq, covered, List.length_map]
  · intro others reordered
    have same : (covered sha256 others).Perm (covered sha256 files) := (reordered.filter _).map _
    ext count
    have passes : ∀ files, (checkManifest sha256 manifest files).toOption = some count ↔
        checkManifest sha256 manifest files = .ok count := by
      intro files
      cases checkManifest sha256 manifest files <;> simp [Except.toOption]
    rw [passes, passes, checkManifest_eq_ok_iff, checkManifest_eq_ok_iff]
    constructor
    · rintro ⟨entries, read, taken, counted⟩
      exact ⟨entries, read, taken.trans same, counted⟩
    · rintro ⟨entries, read, taken, counted⟩
      exact ⟨entries, read, taken.trans same.symm, counted⟩

def sampleFiles : List (Text × Bytes) :=
  [("hello".toList, [1]), (manifestFile, []), ("agent".toList, [2])]

theorem manifest_unique_sample :
    checkManifest sampleCrypto.sha256 (buildManifest sampleCrypto.sha256 sampleFiles)
      sampleFiles = .ok 2 :=
  ((manifest_unique sampleCrypto.sha256 (buildManifest sampleCrypto.sha256 sampleFiles)
    sampleFiles (by decide)).1 2).mpr ⟨by decide, rfl, by decide⟩

end Cdk.Boot

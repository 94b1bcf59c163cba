import Cdk.Boot.Initrd

/-!
# Verified boot

At boot the manifest of the ramdisk is checked against a signature of the
release key, and the files of the ramdisk against the manifest.  Everything that
the kernel looks up later is found by the same parser, so a verified ramdisk has
exactly the files that the release key has signed.
-/

namespace Cdk.Boot

open ByteFormat Link

def ManifestError.describe : ManifestError → String
  | malformed => "manifest malformed"
  | mismatch => "a ramdisk file does not match the manifest"
  | missing => "a file listed in the manifest is missing"
  | unlisted => "the ramdisk holds a file the manifest does not list"

/-- Verify the ramdisk against the release key; the result is the number of
files that the manifest covers. -/
def verify (crypto : Crypto) (key : Identity) (archive : Bytes) : Except String Nat :=
  match find archive manifestFile with
  | none => .error "no boot.manifest in the ramdisk"
  | some manifest =>
    match (find archive signatureFile).bind fun file => Signature.fromSlice file.data with
    | none => .error "no valid boot.manifest.sig in the ramdisk"
    | some signature =>
      if !verifyWith crypto key (manifestDigest crypto.sha256 manifest.data) signature
          manifestContext then
        .error "manifest signature does not verify against the release key"
      else
        match fromUtf8 manifest.data with
        | none => .error "manifest is not UTF-8"
        | some text =>
          (checkManifest crypto.sha256 text
            ((files archive).map fun file => (file.name, file.data))).mapError
              ManifestError.describe

/-- A line of the manifest is that of the file. -/
def Lists (manifest : Text) (name : Text) (digest : Fixed 32) : Prop :=
  entryLine (name, digest) ∈ (HexText.lines manifest).tail

section Verified

variable {crypto : Crypto} {key : Identity} {archive : Bytes} {text : Text}

theorem verify_ok (verified : verify crypto key archive = .ok count) :
    ∃ manifest signature text, find archive manifestFile = some manifest ∧
        verifyWith crypto key (manifestDigest crypto.sha256 manifest.data) signature
          manifestContext ∧ fromUtf8 manifest.data = some text ∧
        checkManifest crypto.sha256 text
          ((files archive).map fun file => (file.name, file.data)) = .ok count := by
  unfold verify at verified
  split at verified
  · cases verified
  rename_i manifest found
  split at verified
  · cases verified
  rename_i signature signed
  split at verified
  · cases verified
  rename_i valid
  split at verified
  · cases verified
  rename_i text decoded
  refine ⟨manifest, signature, text, found, by simpa using valid, decoded, ?_⟩
  cases checked : checkManifest crypto.sha256 text
      ((files archive).map fun file => (file.name, file.data)) with
  | error error =>
    rw [checked] at verified
    cases verified
  | ok number =>
    rw [checked] at verified
    cases verified
    rfl

theorem entryLine_injective : Function.Injective entryLine := by
  intro left right equal
  have reads := congrArg readLine equal
  rw [readLine_entryLine, readLine_entryLine] at reads
  exact Option.some.inj reads

theorem lists_iff_mem (read : readManifest text = some entries) (name : Text) (digest : Fixed 32) :
    Lists text name digest ↔ (name, digest) ∈ entries := by
  rw [Lists, (readManifest_spec read).1, List.tail_cons]
  exact List.mem_map_of_injective entryLine_injective

theorem mem_covered_files_iff {digest : Fixed 32} (listed : isOwnFile name = false) :
    (name, digest) ∈ covered sha256 ((files archive).map fun file => (file.name, file.data)) ↔
      ∃ file ∈ files archive, file.name = name ∧ sha256 file.data = digest := by
  simp only [covered, List.mem_map, List.mem_filter, Prod.exists, Prod.mk.injEq]
  constructor
  · rintro ⟨_, _, ⟨⟨file, present, rfl, rfl⟩, -⟩, named, digested⟩
    exact ⟨file, present, named, digested⟩
  · rintro ⟨file, present, rfl, digested⟩
    exact ⟨_, _, ⟨⟨file, present, rfl, rfl⟩, by simp [listed]⟩, rfl, digested⟩

theorem count_le_one_of_covered (listed : isOwnFile name = false) (distinct : ((covered sha256
      ((files archive).map fun file => (file.name, file.data))).map Prod.fst).Nodup) :
    (files archive).countP (fun file => file.name == name) ≤ 1 := by
  have counted : (files archive).countP (fun file => file.name == name) = ((covered sha256
        ((files archive).map fun file => (file.name, file.data))).map Prod.fst).count name := by
    rw [List.count_eq_countP, covered, List.map_map, List.countP_map, List.countP_filter,
      List.countP_map]
    apply List.countP_congr
    intro file _
    simp only [Function.comp_apply, Bool.and_eq_true, beq_iff_eq, Bool.not_eq_true']
    constructor
    · rintro rfl
      exact ⟨rfl, listed⟩
    · exact And.left
  rw [counted]
  exact List.nodup_iff_count_le_one.mp distinct name

end Verified

/-- In a verified ramdisk there is a manifest with a valid signature of the
release key such that every other file that can be found is listed in it with
its digest, every listed file is found, and no name occurs twice. -/
theorem verified_ramdisk_covered
    (crypto : Crypto)
    (key : Identity)
    (archive : Bytes)
    (count : Nat)
    (verified : verify crypto key archive = .ok count) :
    ∃ manifest signature text, find archive manifestFile = some manifest ∧
        verifyWith crypto key (manifestDigest crypto.sha256 manifest.data) signature
          manifestContext ∧ fromUtf8 manifest.data = some text ∧
        ∀ name, name ≠ manifestFile → name ≠ signatureFile →
          ((find archive name).isSome ↔ ∃ digest, Lists text name digest) ∧
          (files archive).countP (fun file => file.name == name) ≤ 1 ∧
          ∀ file, find archive name = some file →
            ∀ digest, Lists text name digest ↔ digest = crypto.sha256 file.data := by
  obtain ⟨manifest, signature, text, found, valid, decoded, checked⟩ := verify_ok verified
  obtain ⟨entries, read, same, -⟩ := checkManifest_eq_ok_iff.mp checked
  obtain ⟨-, -, increasing⟩ := readManifest_spec read
  refine ⟨manifest, signature, text, found, valid, decoded, ?_⟩
  intro name notManifest notSignature
  have listed : isOwnFile name = false := by
    simp [isOwnFile, notManifest, notSignature]
  have lists : ∀ digest, Lists text name digest ↔
      ∃ file ∈ files archive, file.name = name ∧ crypto.sha256 file.data = digest := by
    intro digest
    rw [lists_iff_mem read, same.mem_iff, mem_covered_files_iff listed]
  have distinct := (same.map Prod.fst).nodup_iff.mp increasing.nodup
  refine ⟨?_, count_le_one_of_covered listed distinct, ?_⟩
  · rw [find, List.find?_isSome]
    constructor
    · rintro ⟨file, present, named⟩
      exact ⟨_, (lists _).mpr ⟨file, present, by simpa using named, rfl⟩⟩
    · rintro ⟨digest, line⟩
      obtain ⟨file, present, named, -⟩ := (lists digest).mp line
      exact ⟨file, present, by simpa using named⟩
  · intro file first digest
    have own : Lists text name (crypto.sha256 file.data) :=
      (lists _).mpr ⟨file, List.mem_of_find?_eq_some first,
        by simpa using List.find?_some first, rfl⟩
    constructor
    · intro line
      have unique := List.inj_on_of_nodup_map increasing.nodup
        ((lists_iff_mem read name digest).mp line) ((lists_iff_mem read name _).mp own) rfl
      exact congrArg Prod.snd unique
    · rintro rfl
      exact own

/-! ## A signed ramdisk -/

def octalDigits : (width : Nat) → Nat → Bytes
  | 0, _ => []
  | width + 1, value => octalDigits width (value / 8) ++ [UInt8.ofNat (48 + value % 8)]

def blankHeader (name : Bytes) (size : Nat) : Bytes :=
  name ++ List.replicate (100 - name.length) 0 ++ ascii "0000644" ++ List.replicate 17 0 ++
    octalDigits 11 size ++ List.replicate 13 0 ++ List.replicate 8 32 ++ ascii "0" ++
    List.replicate 100 0 ++ ascii "ustar" ++ [0] ++ ascii "00" ++ List.replicate 247 0

/-- The archive entry of a regular file. -/
def tarEntry (name data : Bytes) : Bytes :=
  let blank := blankHeader name data.length
  blank.take 148 ++ octalDigits 6 (headerSum blank) ++ [0, 32] ++ blank.drop 156 ++ data ++
    List.replicate ((block - data.length % block) % block) 0

/-- A ramdisk with one program. -/
def sampleArchive : Bytes :=
  tarEntry (ascii "./hello") [1, 2] ++
    tarEntry (ascii "boot.manifest")
      (utf8 (buildManifest sampleCrypto.sha256 [("hello".toList, [1, 2])])) ++
    tarEntry (ascii "boot.manifest.sig") (List.replicate 3373 0) ++ List.replicate 1024 0

/-- The archive has three files and the second header is at the third block; a
hundred headers yield no more than the iterator. -/
theorem iteration_ends_sample :
    (parse sampleArchive).length = 3 ∧
      (readHeader sampleArchive 0).next? = some 1024 ∧
      0 + block ≤ 1024 ∧
      filesFrom sampleArchive 100 0 = parse sampleArchive := by
  obtain ⟨forward, same⟩ := iteration_ends sampleArchive 100 (by decide +kernel)
  have next : (readHeader sampleArchive 0).next? = some 1024 := by decide +kernel
  exact ⟨by decide +kernel, next, forward 0 1024 next, same⟩

/-- The program is found and is the only file that the manifest lists. -/
theorem verified_ramdisk_covered_sample : ∃ manifest signature text,
      find sampleArchive manifestFile = some manifest ∧
        verifyWith sampleCrypto ⟨.replicate 32 0, .replicate 1952 0⟩
          (manifestDigest sampleCrypto.sha256 manifest.data) signature manifestContext ∧
        fromUtf8 manifest.data = some text ∧
        (find sampleArchive "hello".toList).isSome ∧
        ∃ digest, Lists text "hello".toList digest := by
  obtain ⟨manifest, signature, text, found, valid, decoded, covers⟩ :=
    verified_ramdisk_covered sampleCrypto ⟨.replicate 32 0, .replicate 1952 0⟩ sampleArchive 1
      (by decide +kernel)
  have here : (find sampleArchive "hello".toList).isSome := by decide +kernel
  exact ⟨manifest, signature, text, found, valid, decoded, here,
    (covers "hello".toList (by decide) (by decide)).1.mp here⟩

end Cdk.Boot

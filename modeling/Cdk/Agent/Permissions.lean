import Cdk.Agent.Pending
import Cdk.Library.BoundedText
import Cdk.Library.Masks

/-!
# Permission masks and their names

A set of permissions travels in three forms: as the permissions of a
capability, as a mask with one bit for each of them, and as the comma-separated
names that an operator types and reads.
-/

namespace Cdk.Agent

open ByteFormat BoundedText Mask

/-! ## Masks -/

/-- The stable byte of a permission, and the number of its bit in masks. -/
def Permission.tag : Permission → UInt8
  | .read => 1
  | .write => 2
  | .execute => 3
  | .sendMessage => 4
  | .receiveMessage => 5
  | .delete => 6
  | .requiresApproval => 7

def Permission.bit (permission : Permission) : UInt64 := 1 <<< permission.tag.toUInt64

/-- The permissions in the order of their tags. -/
def allPermissions : List Permission :=
  [.read, .write, .execute, .sendMessage, .receiveMessage, .delete, .requiresApproval]

def approvalBit : UInt64 := (1 : UInt64) <<< 7

theorem mem_allPermissions (permission : Permission) : permission ∈ allPermissions := by
  cases permission <;> decide

theorem tag_injective : Function.Injective Permission.tag := by
  intro left right equal
  cases left <;> cases right <;> first | rfl | exact absurd equal (by decide)

theorem has_bit (permission : Permission) (bit : Nat) :
    has permission.bit bit = decide (permission.tag.toNat = bit) := by
  rw [Permission.bit, has_one_shiftLeft, UInt8.toNat_toUInt64]
  cases permission <;> decide

theorem has_approvalBit (bit : Nat) : has approvalBit bit = decide (7 = bit) :=
  has_bit .requiresApproval bit

theorem and_bit_ne_zero_iff (mask : UInt64) (permission : Permission) :
    mask &&& permission.bit ≠ 0 ↔ has mask permission.tag.toNat :=
  and_ne_zero_iff (has_bit permission)

theorem and_approvalBit_ne_zero_iff (mask : UInt64) : mask &&& approvalBit ≠ 0 ↔ has mask 7 :=
  and_bit_ne_zero_iff mask .requiresApproval

theorem and_approvalBit_eq_zero_iff (mask : UInt64) :
    mask &&& approvalBit = 0 ↔ has mask 7 = false := by
  rw [← Bool.not_eq_true, ← and_approvalBit_ne_zero_iff, not_not]

def maskOf (permissions : List Permission) : UInt64 :=
  permissions.foldl (fun mask permission => mask ||| permission.bit) 0

def Capability.permissionMask (capability : Capability) : UInt64 := maskOf capability.permissions

theorem has_maskOf (permissions : List Permission) (bit : Nat) :
    has (maskOf permissions) bit ↔ ∃ permission ∈ permissions, permission.tag.toNat = bit := by
  rw [maskOf, has_foldl_or]
  simp only [has_zero, Bool.false_eq_true, false_or, has_bit, decide_eq_true_eq]

/-- The bit of a permission is set exactly if the permission is there. -/
@[simp] theorem has_maskOf_tag (permissions : List Permission) (permission : Permission) :
    has (maskOf permissions) permission.tag.toNat ↔ permission ∈ permissions := by
  rw [has_maskOf]
  constructor
  · rintro ⟨other, present, same⟩
    rwa [← tag_injective (UInt8.toNat_inj.mp same)]
  · intro present
    exact ⟨permission, present, rfl⟩

theorem maskOf_eq_maskOf_iff (left right : List Permission) : maskOf left = maskOf right ↔
    ∀ permission, permission ∈ left ↔ permission ∈ right := by
  constructor
  · intro equal permission
    rw [← has_maskOf_tag, equal, has_maskOf_tag]
  intro same
  apply ext
  intro bit
  rw [Bool.eq_iff_iff, has_maskOf, has_maskOf]
  simp only [same]

/-! ## Names -/

def Permission.name : Permission → Bytes
  | .read => ascii "read"
  | .write => ascii "write"
  | .execute => ascii "exec"
  | .sendMessage => ascii "send"
  | .receiveMessage => ascii "recv"
  | .delete => ascii "delete"
  | .requiresApproval => ascii "approval"

variable (held : Permission → Bool)

/-- The names, up to 48 bytes. -/
def namesOf : Bytes := allPermissions.foldl
    (fun text permission =>
      if held permission then
        pushStr 48 (if text.isEmpty then text else pushStr 48 text (ascii ",")) permission.name
      else text) []

def permissionNames (mask : UInt64) : Bytes :=
  namesOf fun permission => mask &&& permission.bit != 0

def permissionNamed (word : Bytes) : Option Permission :=
  allPermissions.find? fun permission => permission.name == word

/-- Read permission words; `all` ends the list. -/
def parseWords : List Permission → List Bytes → Option (List Permission)
  | read, [] => some read
  | read, word :: rest =>
    if word.isEmpty then parseWords read rest
    else if word = ascii "all" then
      some (allPermissions.filter (· != .requiresApproval))
    else match permissionNamed word with
      | none => none
      | some permission =>
        if read.contains permission then parseWords read rest
        else parseWords (read ++ [permission]) rest

/-- Parse `send,recv,...` or `all` into permissions. -/
def parsePermissions (spec : Bytes) : Option (List Permission) :=
  (parseWords [] (spec.splitOn 44)).bind fun permissions =>
    if permissions.isEmpty then none else some permissions

def permissionsIn (mask : UInt64) : List Permission :=
  allPermissions.filter fun permission => mask &&& permission.bit != 0

/-- A set of permissions as seven truth values. -/
def tabulated (read write execute send receive delete approval : Bool) : Permission → Bool
  | .read => read
  | .write => write
  | .execute => execute
  | .sendMessage => send
  | .receiveMessage => receive
  | .delete => delete
  | .requiresApproval => approval

/-- Seven truth values decide a set of permissions. -/
theorem forall_held {property : (Permission → Bool) → Prop}
    (holds : ∀ read write execute send receive delete approval,
      property (tabulated read write execute send receive delete approval))
    (held : Permission → Bool) : property held := by
  have equal : held = tabulated (held .read) (held .write) (held .execute)
      (held .sendMessage) (held .receiveMessage) (held .delete)
      (held .requiresApproval) := by
    funext permission
    cases permission <;> rfl
  rw [equal]
  exact holds _ _ _ _ _ _ _

/-- What is read back from names: the permissions that were named, unless there
are none. -/
theorem parsePermissions_namesOf : parsePermissions (namesOf held) =
    if allPermissions.any held then some (allPermissions.filter held) else none := by
  revert held
  exact forall_held (by decide +kernel)

theorem length_namesOf : (namesOf held).length ≤ 48 := by
  revert held
  exact forall_held (by decide +kernel)

theorem space_not_mem_namesOf : ∀ byte ∈ namesOf held, byte ≠ 32 := by
  revert held
  exact forall_held (by decide +kernel)

theorem mem_permissionsIn (mask : UInt64) (permission : Permission) :
    permission ∈ permissionsIn mask ↔ has mask permission.tag.toNat := by
  rw [permissionsIn, List.mem_filter, ← and_bit_ne_zero_iff]
  simp [mem_allPermissions]

theorem parsePermissions_permissionNames (nonempty : permissionsIn mask ≠ []) :
    parsePermissions (permissionNames mask) = some (permissionsIn mask) := by
  rw [permissionNames, parsePermissions_namesOf, if_pos]
  · rfl
  · obtain ⟨permission, present⟩ := List.exists_mem_of_ne_nil _ nonempty
    rw [permissionsIn, List.mem_filter] at present
    exact List.any_eq_true.mpr ⟨permission, present⟩

/-- A mask without other bits than the permissions' is the mask of the
permissions in it. -/
theorem maskOf_permissionsIn (known : ∀ bit, has mask bit → 1 ≤ bit ∧ bit ≤ 7) :
    maskOf (permissionsIn mask) = mask := by
  apply ext
  intro bit
  rw [Bool.eq_iff_iff, has_maskOf]
  constructor
  · rintro ⟨permission, present, rfl⟩
    exact (mem_permissionsIn mask permission).mp present
  intro set
  obtain ⟨permission, rfl⟩ : ∃ permission : Permission, permission.tag.toNat = bit := by
    obtain ⟨low, high⟩ := known bit set
    have : ∀ bit ≤ 7, 1 ≤ bit → ∃ permission ∈ allPermissions, permission.tag.toNat = bit := by
      decide
    obtain ⟨permission, -, same⟩ := this bit high low
    exact ⟨permission, same⟩
  exact ⟨permission, (mem_permissionsIn mask permission).mpr set, rfl⟩

theorem known_maskOf (set : has (maskOf permissions) bit) : 1 ≤ bit ∧ bit ≤ 7 := by
  obtain ⟨permission, -, rfl⟩ := (has_maskOf permissions bit).mp set
  cases permission <;> decide

theorem permissionsIn_ne_nil (known : ∀ bit, has mask bit → 1 ≤ bit ∧ bit ≤ 7)
    (nonzero : mask ≠ 0) : permissionsIn mask ≠ [] := by
  intro empty
  have rebuilt := maskOf_permissionsIn known
  rw [empty] at rebuilt
  exact nonzero rebuilt.symm

theorem permissionNames_inj (leftKnown : ∀ bit, has left bit → 1 ≤ bit ∧ bit ≤ 7)
    (rightKnown : ∀ bit, has right bit → 1 ≤ bit ∧ bit ≤ 7) (leftSome : left ≠ 0)
    (rightSome : right ≠ 0) (equal : permissionNames left = permissionNames right) :
    left = right := by
  have parsed := congrArg parsePermissions equal
  rw [parsePermissions_permissionNames (permissionsIn_ne_nil leftKnown leftSome),
    parsePermissions_permissionNames (permissionsIn_ne_nil rightKnown rightSome),
    Option.some.injEq] at parsed
  rw [← maskOf_permissionsIn leftKnown, parsed, maskOf_permissionsIn rightKnown]

/-! ## What lists of names say -/

/-- The permissions that a word stands for; `all` are the six rights. -/
def meant (word : Bytes) : List Permission :=
  if word = ascii "all" then allPermissions.filter (· != .requiresApproval)
  else (permissionNamed word).toList

def wordsOf (spec : Bytes) : List Bytes := (spec.splitOn 44).filter (!·.isEmpty)

/-- The answer is right for the words: it is a set exactly if there are words and each is
known, and the set is the union of what they stand for. -/
def Says (words : List Bytes) : Option (Permission → Prop) → Prop
  | none => words = [] ∨ ∃ word ∈ words, meant word = []
  | some set => words ≠ [] ∧ (∀ word ∈ words, meant word ≠ []) ∧
      ∀ permission, set permission ↔ ∃ word ∈ words, permission ∈ meant word

/-- The mask of a `trust` line of the policy with these names. -/
def trustMask (spec : Bytes) : Option UInt64 := (parsePermissions spec).map maskOf

/-- Where the word `all` occurs, a word before it is unknown, or all words are known and
none is `approval`. -/
def AllAlone (words : List Bytes) : Prop :=
  ascii "all" ∈ words → (∃ word ∈ words.takeWhile (· != ascii "all"), meant word = []) ∨
    (∀ word ∈ words, meant word ≠ []) ∧ ascii "approval" ∉ words

theorem parseWords_filter (read : List Permission) (words : List Bytes) :
    parseWords read (words.filter (!·.isEmpty)) = parseWords read words := by
  fun_induction parseWords read words <;> simp_all [parseWords]

/-- Words without `all`: the answer is the union. -/
theorem parseWords_plain (read : List Permission) (words : List Bytes)
    (plain : ∀ word ∈ words, word ≠ [] ∧ word ≠ ascii "all") :
    match parseWords read words with
    | none => ∃ word ∈ words, meant word = []
    | some set => (∀ word ∈ words, meant word ≠ []) ∧
        ∀ permission, permission ∈ set ↔
          permission ∈ read ∨ ∃ word ∈ words, permission ∈ meant word := by
  fun_induction parseWords read words with
  | case1 => simp
  | case2 | case3 => simp_all
  | case4 => simp_all [meant]
  | case5 read word rest _ _ permission named known ih
  | case6 read word rest _ _ permission named known ih =>
    specialize ih (fun word present => plain word (List.mem_cons_of_mem _ present))
    have single : meant word = [permission] := by simp_all [meant]
    split at ih <;> grind

/-- At the first `all` the words before it are forgotten and those after it not read. -/
theorem parseWords_all (read : List Permission) (front back : List Bytes)
    (plain : ∀ word ∈ front, word ≠ [] ∧ word ≠ ascii "all") :
    parseWords read (front ++ ascii "all" :: back) =
      (parseWords read front).map fun _ => meant (ascii "all") := by
  have named : ascii "all" ≠ [] := by decide
  fun_induction parseWords read front <;> simp_all [parseWords, meant]

theorem mem_meant_all (permission : Permission) :
    permission ∈ meant (ascii "all") ↔ permission ≠ .requiresApproval := by
  cases permission <;> decide

theorem requiresApproval_mem_meant (word : Bytes) :
    .requiresApproval ∈ meant word ↔ word = ascii "approval" := by
  constructor
  · intro stands
    rw [meant] at stands
    split at stands
    · exact absurd stands (by decide)
    · have named := List.find?_some (Option.mem_toList.mp stands)
      exact (beq_iff_eq.mp named).symm
  · rintro rfl
    decide

theorem permission_list_means_words_iff
    (spec : Bytes) :
    (Says (wordsOf spec) ((parsePermissions spec).map fun set permission => permission ∈ set) ↔
      AllAlone (wordsOf spec)) ∧
    (Says (wordsOf spec) ((trustMask spec).map fun mask permission =>
        has mask permission.tag.toNat = true) ↔ AllAlone (wordsOf spec)) := by
  have same : (trustMask spec).map (fun mask permission => has mask permission.tag.toNat = true) =
      (parsePermissions spec).map fun set permission => permission ∈ set := by
    simp only [trustMask, Option.map_map, Function.comp_def, has_maskOf_tag]
  rw [same, and_self, parsePermissions, ← parseWords_filter, ← wordsOf]
  have filled : ∀ word ∈ wordsOf spec, word ≠ [] := by simp [wordsOf]
  generalize wordsOf spec = words at filled
  by_cases present : ascii "all" ∈ words
  · -- The words before the first `all` decide between refusal and the six rights.
    obtain ⟨front, back, rfl, plain⟩ := List.eq_append_cons_of_mem present
    have unmixed : ∀ word ∈ front, word ≠ [] ∧ word ≠ ascii "all" := fun word member =>
      ⟨filled word (List.mem_append_left _ member), fun equal => plain (equal ▸ member)⟩
    have taken : (front ++ ascii "all" :: back).takeWhile (· != ascii "all") = front := by
      rw [List.takeWhile_append_of_pos (by simpa using fun word member => (unmixed word member).2)]
      simp
    have read := parseWords_plain [] front unmixed
    simp only [AllAlone, present, true_implies, taken, parseWords_all _ _ _ unmixed]
    cases answer : parseWords [] front with
    | none =>
      simp only [answer] at read
      obtain ⟨word, member, unknown⟩ := read
      exact iff_of_true (.inr ⟨word, List.mem_append_left _ member, unknown⟩)
        (.inl ⟨word, member, unknown⟩)
    | some set =>
      simp only [answer] at read
      have noneBefore : ¬∃ word ∈ front, meant word = [] :=
        fun ⟨word, member, unknown⟩ => read.1 word member unknown
      change Says _ (some fun permission => permission ∈ meant (ascii "all")) ↔ _
      simp only [Says, noneBefore, false_or, ne_eq, List.append_eq_nil_iff, reduceCtorEq, and_false,
        not_false_eq_true, true_and, mem_meant_all]
      refine and_congr_right fun known => ⟨fun union named => ?_, fun unnamed permission => ?_⟩
      · exact (union .requiresApproval).mpr ⟨_, named, (requiresApproval_mem_meant _).mpr rfl⟩ rfl
      constructor
      · intro right
        exact ⟨_, present, (mem_meant_all permission).mpr right⟩
      · rintro ⟨word, member, stands⟩ rfl
        exact unnamed ((requiresApproval_mem_meant word).mp stands ▸ member)
  · have read := parseWords_plain [] words fun word member =>
      ⟨filled word member, fun equal => present (equal ▸ member)⟩
    simp only [AllAlone, present, false_implies, iff_true]
    cases answer : parseWords [] words with
    | none => simp_all [Says]
    | some set =>
      simp only [answer, List.not_mem_nil, false_or] at read
      obtain ⟨known, union⟩ := read
      cases set with
      | nil =>
        refine .inl (List.eq_nil_iff_forall_not_mem.mpr fun word member => ?_)
        obtain ⟨permission, stands⟩ := List.exists_mem_of_ne_nil _ (known word member)
        exact List.not_mem_nil ((union permission).mpr ⟨word, member, stands⟩)
      | cons head tail =>
        obtain ⟨word, member, -⟩ := (union head).mp List.mem_cons_self
        exact ⟨List.ne_nil_of_mem member, known, union⟩

theorem approval_lost_before_all :
    trustMask (ascii "approval,all") = some 126 ∧
    ¬Says (wordsOf (ascii "approval,all"))
      ((parsePermissions (ascii "approval,all")).map fun set permission => permission ∈ set) := by
  refine ⟨by decide +kernel, ?_⟩
  have parsed : parsePermissions (ascii "approval,all") = some (meant (ascii "all")) := by
    decide +kernel
  have first : ascii "approval" ∈ wordsOf (ascii "approval,all") := by decide +kernel
  rw [parsed]
  rintro ⟨-, -, union⟩
  exact absurd ((union .requiresApproval).mpr ⟨_, first, by decide⟩) (by decide)

end Cdk.Agent

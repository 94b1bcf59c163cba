import Cdk.Policy.Review

/-!
# What the reviewed text shows

A line is complete exactly if the object has at most twelve labels and the line at most 256
bytes.  A text of complete lines determines what each process gains on which object, and whether
it is gated, except that a line with `observe only` says nothing about the gate.
-/

namespace Cdk.Policy

open ByteFormat BoundedText Delimited Link Agent Tools Mask

/-! ## Complete lines -/

def everyLabel (policy : Policy) (object kind : Bytes) (flags : UInt8) : List Bytes :=
  (automaticLabels kind flags ++ policy.operatorLabels object kind).foldl
    (fun labels label =>
      if labels.contains label then labels else labels ++ [label])
    []

variable (surroundings : Surroundings)

def Change.everyLabel (change : Change) : List Bytes :=
  surroundings.policy.everyLabel change.object.text change.kind.text change.flags

def wholeLine (change : Change) : Bytes :=
  (pieces surroundings (ascii "gains") (change.everyLabel surroundings)
    change).flatten

theorem labelsOf_eq_take (policy : Policy) (object kind : Bytes) (flags : UInt8) :
    policy.labelsOf object kind flags = (policy.everyLabel object kind flags).take 12 := by
  unfold labelsOf everyLabel
  generalize automaticLabels kind flags ++ policy.operatorLabels object kind = candidates
  induction candidates using List.reverseRecOn with
  | nil => rfl
  | append_singleton early label ih =>
    rw [List.foldl_append, List.foldl_append, ih, List.foldl_cons, List.foldl_cons, List.foldl_nil,
      List.foldl_nil]
    generalize early.foldl _ [] = labels
    by_cases known : label ∈ labels.take 12
    · have listed : label ∈ labels := List.mem_of_mem_take known
      rw [addLabel, if_pos (List.contains_iff_mem.mpr known),
        if_pos (List.contains_iff_mem.mpr listed)]
    rw [addLabel, if_neg (by simpa using known)]
    by_cases short : labels.length < 12
    · rw [List.take_of_length_le short.le] at known ⊢
      rw [if_pos short, if_neg (by simpa using known), List.take_of_length_le (by simp; omega)]
    have full : (labels.take 12).length = 12 := by
      rw [List.length_take]
      omega
    rw [if_neg (by omega)]
    split
    · rfl
    · rw [List.take_append_of_le_length (by omega)]

theorem length_intersperse_comma (labels : List Bytes) :
    labels ≠ [] → (labels.intersperse (ascii ",")).flatten.length + 1 =
      (labels.map List.length).sum + labels.length := by
  induction labels with
  | nil => intro nonempty; exact absurd rfl nonempty
  | cons first rest ih =>
    intro _
    cases rest with
    | nil => simp
    | cons second rest =>
      have shorter := ih (List.cons_ne_nil _ _)
      have comma : (ascii ",").length = 1 := rfl
      rw [List.intersperse_cons_cons]
      simp only [List.flatten_cons, List.length_append, List.map_cons,
        List.sum_cons, List.length_cons, comma] at shorter ⊢
      omega

variable {labels : List Bytes}

theorem length_labelPieces (nonempty : labels ≠ []) : (labelPieces labels).flatten.length =
    (labels.map List.length).sum + labels.length + 2 := by
  have inner := length_intersperse_comma labels nonempty
  have bracket : (ascii " [").length = 2 ∧ (ascii "]").length = 1 := ⟨rfl, rfl⟩
  rw [labelPieces, if_neg (by simpa using nonempty)]
  simp only [List.flatten_cons, List.flatten_append, List.flatten_nil,
    List.length_append, bracket.1, bracket.2, List.append_nil]
  omega

/-- Fewer labels make a shorter line. -/
theorem length_labelPieces_take_lt (many : 12 < labels.length) :
    (labelPieces (labels.take 12)).flatten.length < (labelPieces labels).flatten.length := by
  have some : labels ≠ [] := by
    rintro rfl
    simp at many
  have twelve : (labels.take 12).length = 12 := by
    rw [List.length_take]
    omega
  have someTaken : labels.take 12 ≠ [] := by
    intro empty
    rw [empty] at twelve
    cases twelve
  have split := congrArg (fun list => (list.map List.length).sum) (List.take_append_drop 12 labels)
  simp only [List.map_append, List.sum_append] at split
  rw [length_labelPieces someTaken, length_labelPieces some]
  omega

/-- A line is complete exactly if the object has at most twelve labels and
everything fits into 256 bytes. -/
theorem renderChange_eq_wholeLine_iff (change : Change) :
    renderChange surroundings change = wholeLine surroundings change ↔
      (change.everyLabel surroundings).length ≤ 12 ∧
        (wholeLine surroundings change).length ≤ 256 := by
  have shown : change.labels surroundings = (change.everyLabel surroundings).take 12 :=
    labelsOf_eq_take _ _ _ _
  by_cases few : (change.everyLabel surroundings).length ≤ 12
  · rw [List.take_of_length_le few] at shown
    rw [renderChange, shown, wholeLine, writePieces_eq_flatten_iff]
    simp [few]
  refine iff_of_false ?_ (fun both => few both.1)
  intro equal
  have lengths := congrArg List.length equal
  have written := length_writePieces_le_flatten 256
    (pieces surroundings (ascii "gains") (change.labels surroundings) change) []
  have shorter := length_labelPieces_take_lt (Nat.lt_of_not_le few)
  rw [← shown] at shorter
  simp only [renderChange, wholeLine, pieces, List.flatten_append,
    List.length_append, List.length_nil] at lengths written
  omega

/-! ## Reach diffs -/

/-- A grant as the kernel builds it: the id of an object has no spaces, a kind
no line breaks, and the mask is one of permissions. -/
structure Grant.Built (grant : Grant) : Prop where
  object : ∀ byte ∈ grant.object.text, byte ≠ 32
  kind : ∀ byte ∈ grant.kind.text, byte ≠ 10
  mask : ∀ bit, Mask.has grant.mask bit → 1 ≤ bit ∧ bit ≤ 7

variable {change : Change}

theorem exists_of_mem_diff (present : change ∈ diff before after) :
    ∃ grant ∈ after, changeOf before after grant = some change := by
  revert present
  refine List.foldlRecOn after _ (motive := fun changes => change ∈ changes →
    ∃ grant ∈ after, changeOf before after grant = some change) nofun ?_
  intro changes known grant listed inside
  split at inside
  · exact known inside
  · rcases List.mem_append.mp inside with old | new
    · exact known old
    · exact ⟨grant, listed, Option.mem_toList.mp new⟩

theorem has_union (grants : List Grant) (pid : UInt32) (object : Str 16) (bit : Nat) :
    Mask.has (union grants pid object) bit ↔
      ∃ grant ∈ grants, grant.isFor pid object ∧ Mask.has grant.mask bit := by
  rw [union, has_foldl_or]
  simp only [has_zero, Bool.false_eq_true, false_or, List.mem_filter, and_assoc]

theorem ungated_iff (grants : List Grant) (pid : UInt32) (object : Str 16) :
    ungated grants pid object ↔ ∃ grant ∈ grants, grant.isFor pid object ∧
        grant.actsFreely := by
  simp only [ungated, List.any_eq_true, Bool.and_eq_true]

theorem changeOf_eq_some (made : changeOf before after grant = some change) :
    change.pid = grant.pid ∧ change.object = grant.object ∧ change.kind = grant.kind ∧
      change.gated = !ungated after grant.pid grant.object ∧ change.added ≠ 0 ∧
      ∀ bit, Mask.has change.added bit → Mask.has (union after grant.pid grant.object) bit := by
  simp only [changeOf] at made
  split at made
  · rename_i gains
    cases made
    refine ⟨rfl, rfl, rfl, rfl, ?_, ?_⟩
    · dsimp only
      by_cases new : gained before after grant.pid grant.object ≠ 0
      · rwa [if_pos new]
      rw [if_neg new]
      obtain ⟨free, -⟩ := gains.resolve_left new
      obtain ⟨other, present, isFor, acts⟩ := (ungated_iff _ _ _).mp free
      simp only [Grant.actsFreely, Bool.and_eq_true, bne_iff_ne, ne_zero_iff, has_and] at acts
      obtain ⟨⟨bit, held, effect⟩, -⟩ := acts
      refine (ne_zero_iff _).mpr ⟨bit, ?_⟩
      rw [has_and, Bool.and_eq_true]
      exact ⟨(has_union _ _ _ _).mpr ⟨other, present, isFor, held⟩, effect⟩
    · intro bit set
      dsimp only at set
      split at set
      · simp only [gained, has_and_not, Bool.and_eq_true] at set
        exact set.1.1
      · rw [has_and, Bool.and_eq_true] at set
        exact set.1
  · cases made

/-- What is shown to have been gained. -/
structure Reach where
  pid : UInt32
  object : Str 16
  added : UInt64
  gated : Bool
  deriving DecidableEq

def Change.reach (change : Change) : Reach :=
  ⟨change.pid, change.object, change.added, change.gated⟩

/-- The change makes an effect free that was gated, and its line says `observe
only`. -/
def Change.hidesGate (before : List Grant) (change : Change) : Bool :=
  change.added &&& effectMask == 0 && !change.gated && !ungated before change.pid change.object

/-- What reading a line back rests on. -/
structure Change.Readable (before : List Grant) (change : Change) : Prop where
  object : ∀ byte ∈ change.object.text, byte ≠ 32
  kind : ∀ byte ∈ change.kind.text, byte ≠ 10
  added : change.added ≠ 0
  known : ∀ bit, Mask.has change.added bit → 1 ≤ bit ∧ bit ≤ 7
  /-- Where the line does not show the gate, it is as before. -/
  gate : change.added &&& effectMask = 0 →
    change.gated = !ungated before change.pid change.object

theorem ungated_append (proposed : List Grant) (free : ungated before pid object) :
    ungated (before ++ proposed) pid object := by
  rw [ungated, List.any_append, Bool.or_eq_true]
  exact .inl free

theorem readable_of_mem_diff (built : ∀ grant ∈ before ++ proposed, grant.Built)
    (present : change ∈ diff before (before ++ proposed))
    (shown : change.hidesGate before = false) :
    change.Readable before := by
  obtain ⟨grant, listed, made⟩ := exists_of_mem_diff present
  obtain ⟨pid, object, kind, gated, added, known⟩ := changeOf_eq_some made
  constructor
  · rw [object]
    exact (built grant listed).object
  · rw [kind]
    exact (built grant listed).kind
  · exact added
  · intro bit set
    obtain ⟨other, inside, -, held⟩ := (has_union _ _ _ _).mp (known bit set)
    exact (built other inside).mask bit held
  intro observes
  rw [← pid, ← object] at gated
  simp only [Change.hidesGate, observes, beq_self_eq_true, Bool.true_and,
    Bool.and_eq_false_iff, Bool.not_eq_false'] at shown
  cases free : ungated before change.pid change.object with
  | true => rw [gated, ungated_append proposed free]
  | false =>
    rw [free] at shown
    simpa using shown

/-! ## Reading a line -/

def lineEnd (change : Change) : Bytes :=
  change.kind.text ++ (ascii ")" ++
    ((labelPieces (change.everyLabel surroundings)).flatten ++
      (tailPieces surroundings change).flatten))

theorem wholeLine_eq (change : Change) :
    wholeLine surroundings change =
      ascii "+ " ++ (ascii "pid " ++ (decimal change.pid.toNat ++ (ascii " '" ++
        (procName surroundings change.pid ++ (ascii "' " ++ (ascii "gains" ++
          (ascii " " ++ (permissionNames change.added ++ (ascii " on " ++
            (change.object.text ++ (ascii " (" ++ lineEnd surroundings change))))))))))) := by
  simp only [wholeLine, pieces, headPieces, lineEnd, if_true, List.flatten_append,
    List.flatten_cons, List.flatten_nil, List.append_assoc, List.append_nil]

theorem newline_not_mem_peerLabels (oneLine : ∀ byte ∈ kind, byte ≠ 10) :
    ∀ label ∈ peerLabels kind, ∀ byte ∈ label, byte ≠ 10 := by
  unfold peerLabels
  split
  · exact nofun
  rename_i rest found
  obtain ⟨start, rfl, -⟩ := List.dropPrefix?_eq_some_iff.mp found
  have node : ∀ byte ∈ ascii "peer:" ++ rest.takeWhile (· != 47), byte ≠ 10 := by
    rw [List.forall_mem_append]
    refine ⟨absent rfl, ?_⟩
    intro byte present
    exact oneLine byte (List.mem_append_right _ (List.takeWhile_subset _ present))
  dsimp only
  split
  · intro label listed
    simp only [List.mem_cons, List.not_mem_nil, or_false] at listed
    rcases listed with rfl | rfl
    · exact absent rfl
    · exact node
  · intro label listed
    rw [List.mem_singleton.mp listed]
    exact absent rfl

theorem newline_not_mem_automaticLabels (oneLine : ∀ byte ∈ kind, byte ≠ 10) (flags : UInt8) :
    ∀ label ∈ automaticLabels kind flags, ∀ byte ∈ label, byte ≠ 10 := by
  have constant : ∀ (condition : Prop) [Decidable condition] (label : Bytes),
      (∀ byte ∈ label, byte ≠ 10) →
      ∀ other ∈ (if condition then [label] else []), ∀ byte ∈ other, byte ≠ 10 := by
    intro condition _ label plain other listed
    split at listed
    · rw [List.mem_singleton.mp listed]
      exact plain
    · exact absurd listed List.not_mem_nil
  simp only [automaticLabels, List.forall_mem_append]
  exact ⟨⟨⟨⟨constant _ _ (absent rfl), constant _ _ (absent rfl)⟩,
    constant _ _ (absent rfl)⟩, constant _ _ (absent rfl)⟩,
    newline_not_mem_peerLabels oneLine⟩

theorem newline_not_mem_label (label : Label) : ∀ byte ∈ label.text, byte ≠ 10 := by
  have valid := label.accepted
  simp only [validLabel, validName, Bool.and_eq_true, List.all_eq_true] at valid
  rintro byte present rfl
  exact absurd (valid.2 10 present) (by decide)

theorem everyLabel_subset (policy : Policy) (object kind : Bytes) (flags : UInt8) :
    policy.everyLabel object kind flags ⊆
      automaticLabels kind flags ++ policy.operatorLabels object kind := by
  intro label inside
  rcases (FirstMatch.mem_foldl_append_new id _ [] label).mp inside with
    none | ⟨found, listed, rfl⟩
  · exact absurd none List.not_mem_nil
  · exact listed

theorem newline_not_mem_everyLabel (oneLine : ∀ byte ∈ change.kind.text, byte ≠ 10) :
    ∀ label ∈ change.everyLabel surroundings, ∀ byte ∈ label, byte ≠ 10 := by
  intro label listed
  rcases List.mem_append.mp (everyLabel_subset _ _ _ _ listed) with auto | given
  · exact newline_not_mem_automaticLabels oneLine _ label auto
  · obtain ⟨entry, -, rfl⟩ := List.mem_map.mp given
    exact newline_not_mem_label entry.2

theorem mem_intersperse (present : piece ∈ labels.intersperse separator) :
    piece = separator ∨ piece ∈ labels := by
  induction labels with
  | nil => exact absurd present List.not_mem_nil
  | cons first rest ih =>
    cases rest with
    | nil => exact .inr present
    | cons second rest =>
      rw [List.intersperse_cons_cons, List.mem_cons, List.mem_cons] at present
      rcases present with rfl | rfl | later
      · exact .inr List.mem_cons_self
      · exact .inl rfl
      · exact (ih later).imp id (List.mem_cons_of_mem _)

theorem newline_not_mem_labelPieces (plain : ∀ label ∈ labels, ∀ byte ∈ label, byte ≠ 10) :
    ∀ piece ∈ labelPieces labels, ∀ byte ∈ piece, byte ≠ 10 := by
  intro piece listed
  unfold labelPieces at listed
  split at listed
  · exact absurd listed List.not_mem_nil
  rw [List.mem_cons, List.mem_append, List.mem_singleton] at listed
  rcases listed with rfl | between | rfl
  · exact absent rfl
  · rcases mem_intersperse between with rfl | label
    · exact absent rfl
    · exact plain piece label
  · exact absent rfl

theorem newline_not_mem_gateStatus (change : Change) : ∀ byte ∈ gateStatus change, byte ≠ 10 := by
  unfold gateStatus
  split
  · exact absent rfl
  · split
    · exact absent rfl
    · exact absent rfl

theorem newline_not_mem_endpoint (endpoint : Endpoint) : ∀ byte ∈ endpoint.text, byte ≠ 10 := by
  have valid := endpoint.accepted
  simp only [validEndpoint, Bool.and_eq_true, List.all_eq_true] at valid
  rintro byte present rfl
  exact absurd (valid.2 10 present) (by decide)

theorem newline_not_mem_tailPieces (change : Change) :
    ∀ piece ∈ tailPieces surroundings change, ∀ byte ∈ piece, byte ≠ 10 := by
  unfold tailPieces
  rw [List.forall_mem_append]
  constructor
  · cases pinnedEndpoint surroundings.manifest change.kind.text with
    | none =>
      exact nofun
    | some endpoint =>
      intro piece listed
      simp only [Option.elim_some, List.mem_cons, List.not_mem_nil, or_false] at listed
      rcases listed with rfl | rfl
      · exact absent rfl
      · exact newline_not_mem_endpoint endpoint
  · intro piece listed
    rw [List.mem_singleton.mp listed]
    exact newline_not_mem_gateStatus change

theorem newline_not_mem_lineEnd (oneLine : ∀ byte ∈ change.kind.text, byte ≠ 10) :
    ∀ byte ∈ lineEnd surroundings change, byte ≠ 10 := by
  have flatten : ∀ pieces : List Bytes, (∀ piece ∈ pieces, ∀ byte ∈ piece, byte ≠ 10) →
      ∀ byte ∈ pieces.flatten, byte ≠ 10 := by
    intro pieces plain byte present
    obtain ⟨piece, listed, inside⟩ := List.mem_flatten.mp present
    exact plain piece listed byte inside
  simp only [lineEnd, List.forall_mem_append]
  exact ⟨oneLine, absent rfl, flatten _ (newline_not_mem_labelPieces
      (newline_not_mem_everyLabel surroundings oneLine)),
    flatten _ (newline_not_mem_tailPieces surroundings change)⟩

variable {surroundings}

theorem gated_of_lineEnd (leftActs : left.added &&& effectMask ≠ 0)
    (rightActs : right.added &&& effectMask ≠ 0)
    (equal : lineEnd surroundings left = lineEnd surroundings right) :
    left.gated = right.gated := by
  -- The two texts differ in the byte before their last word.
  have ending : ∀ change : Change, change.added &&& effectMask ≠ 0 →
      ∃ start, lineEnd surroundings change =
        start ++ ((if change.gated then ascii "-" else ascii " ") ++ ascii "gated") := by
    intro change acts
    refine ⟨change.kind.text ++ (ascii ")" ++
      ((labelPieces (change.everyLabel surroundings)).flatten ++
        (((pinnedEndpoint surroundings.manifest change.kind.text).elim []
          fun endpoint => [ascii " via ", endpoint.text]).flatten ++
        (if change.gated then ascii ", human" else ascii ", NOT")))), ?_⟩
    simp only [lineEnd, tailPieces, gateStatus, if_neg acts, List.flatten_append,
      List.flatten_cons, List.flatten_nil, List.append_nil, List.append_assoc]
    cases change.gated <;> rfl
  obtain ⟨leftStart, leftEnd⟩ := ending left leftActs
  obtain ⟨rightStart, rightEnd⟩ := ending right rightActs
  rw [leftEnd, rightEnd] at equal
  cases leftGate : left.gated <;> cases rightGate : right.gated
  · rfl
  · rw [leftGate, rightGate] at equal
    exact absurd (List.append_inj' equal rfl).2 (by decide)
  · rw [leftGate, rightGate] at equal
    exact absurd (List.append_inj' equal rfl).2 (by decide)
  · rfl

theorem wholeLine_readable (surroundings : Surroundings) (leftReadable : left.Readable before)
    (rightReadable : right.Readable before)
    (equal : (wholeLine surroundings left ++ ascii "\n") ++ leftRest =
      (wholeLine surroundings right ++ ascii "\n") ++ rightRest) :
    left.reach = right.reach ∧ leftRest = rightRest := by
  simp only [wholeLine_eq, List.append_assoc] at equal
  replace equal := List.append_cancel_left (List.append_cancel_left equal)
  obtain ⟨pids, equal⟩ := cut_decimal rfl (by decide) equal
  have samePid : left.pid = right.pid := UInt32.toNat_inj.mp pids
  rw [samePid] at equal
  replace equal := List.append_cancel_left (List.append_cancel_left
    (List.append_cancel_left (List.append_cancel_left equal)))
  obtain ⟨names, equal⟩ := cut_field rfl (by decide)
    (space_not_mem_namesOf _) (space_not_mem_namesOf _) equal
  have sameAdded := permissionNames_inj leftReadable.known rightReadable.known
    leftReadable.added rightReadable.added names
  obtain ⟨objects, equal⟩ := cut_field rfl (by decide) leftReadable.object
    rightReadable.object equal
  have sameObject : left.object = right.object := Str.ext objects
  obtain ⟨ends, rests⟩ := cut_field rfl (by decide)
    (newline_not_mem_lineEnd surroundings leftReadable.kind)
    (newline_not_mem_lineEnd surroundings rightReadable.kind) equal
  have sameGate : left.gated = right.gated := by
    by_cases observes : left.added &&& effectMask = 0
    · rw [leftReadable.gate observes, rightReadable.gate (sameAdded ▸ observes),
        samePid, sameObject]
    · exact gated_of_lineEnd observes (sameAdded ▸ observes) ends
  exact ⟨by simp only [Change.reach, samePid, sameObject, sameAdded, sameGate], rests⟩

/-! ## Reviewed texts -/

/-- Every change of the batch is shown in full. -/
structure Legible (surroundings : Surroundings) (before proposed : List Grant) : Prop where
  /-- At most twelve labels. -/
  labels : ∀ change ∈ diff before (before ++ proposed), (change.everyLabel surroundings).length ≤ 12
  /-- At most 256 bytes. -/
  short : ∀ change ∈ diff before (before ++ proposed), (wholeLine surroundings change).length ≤ 256
  /-- No line says `observe only` about an effect that becomes free. -/
  gates : ∀ change ∈ diff before (before ++ proposed),
    change.hidesGate before = false

theorem Legible.reviewText_eq (legible : Legible surroundings before proposed) :
    reviewText surroundings before proposed =
      (diff before (before ++ proposed)).flatMap fun change =>
        wholeLine surroundings change ++ ascii "\n" := by
  unfold reviewText
  apply List.flatMap_congr
  intro change present
  rw [(renderChange_eq_wholeLine_iff surroundings change).mpr
    ⟨legible.labels change present, legible.short change present⟩]

/-- Batches that are shown in full and have the same text have the same
reach. -/
theorem reach_eq_of_reviewText_eq (leftBuilt : ∀ grant ∈ before ++ left, grant.Built)
    (rightBuilt : ∀ grant ∈ before ++ right, grant.Built)
    (leftLegible : Legible surroundings before left)
    (rightLegible : Legible surroundings before right)
    (equal : reviewText surroundings before left = reviewText surroundings before right) :
    (diff before (before ++ left)).map Change.reach =
      (diff before (before ++ right)).map Change.reach := by
  rw [leftLegible.reviewText_eq, rightLegible.reviewText_eq] at equal
  refine map_key_of_flatMap ?_ ?_ (fun change present => readable_of_mem_diff leftBuilt present
      (leftLegible.gates change present))
    (fun change present => readable_of_mem_diff rightBuilt present
      (rightLegible.gates change present)) equal
  · intro change empty
    exact absurd (List.append_eq_nil_iff.mp empty).2 (by decide)
  · intro first second firstReadable secondReadable firstRest secondRest
    exact wholeLine_readable surroundings firstReadable secondReadable

/-- The reviewed text shows the whole change where it is legible.  A line is
complete exactly if the object has at most twelve labels and the line at most
256 bytes; and two batches that are shown in full, but differ in a process, an
object, the permissions gained or the gate, have different texts, and different
digests unless the hash collides on the two texts. -/
theorem reviewed_text_shows_change
    (surroundings : Surroundings)
    (before proposed : List Grant) :
    (∀ change ∈ diff before (before ++ proposed),
      (renderChange surroundings change = wholeLine surroundings change ↔
        (change.everyLabel surroundings).length ≤ 12 ∧
          (wholeLine surroundings change).length ≤ 256)) ∧
    ∀ other, (∀ grant ∈ before ++ proposed, grant.Built) →
      (∀ grant ∈ before ++ other, grant.Built) → Legible surroundings before proposed →
      Legible surroundings before other → (diff before (before ++ proposed)).map Change.reach ≠
        (diff before (before ++ other)).map Change.reach →
      reviewText surroundings before proposed ≠ reviewText surroundings before other ∧
        ∀ crypto : Crypto, (digest crypto (reviewText surroundings before proposed) =
              digest crypto (reviewText surroundings before other) →
            reviewText surroundings before proposed = reviewText surroundings before other) →
          digest crypto (reviewText surroundings before proposed) ≠
            digest crypto (reviewText surroundings before other) := by
  constructor
  · intro change _
    exact renderChange_eq_wholeLine_iff surroundings change
  intro other built otherBuilt legible otherLegible differ
  have texts : reviewText surroundings before proposed ≠ reviewText surroundings before other := by
    intro equal
    exact differ (reach_eq_of_reviewText_eq built otherBuilt legible otherLegible equal)
  exact ⟨texts, fun crypto collisionFree digests => texts (collisionFree digests)⟩

def longLabel (letter : Fin 26) : Label :=
  ⟨List.replicate 24 (97 + UInt8.ofNat letter), by revert letter; decide⟩

def crowdedPolicy : Policy where
  rules := .empty
  labels := ⟨([0, 1, 2, 3, 4, 5, 6, 7, 8].map longLabel).map fun label =>
    (firstId, label), by decide⟩
  trusts := .empty

/-- Nothing is pinned, and the processes have no names. -/
def plainSurroundings (policy : Policy) : Surroundings := ⟨policy, false, .empty, fun _ => none⟩

def emptyPolicy : Policy := ⟨.empty, .empty, .empty⟩

/-- Two gaps of the reviewed text.  With many long labels the line ends before
it says whether the handle is gated; and where a process gains `read` along
with a free `exec` in place of a gated one, the line says `observe only`, as it
does for `read` alone. -/
theorem reviewed_text_hides_gate : (∃ change ∈ diff [] [objectGrant 1 8],
      renderChange (plainSurroundings crowdedPolicy) change ≠
        wholeLine (plainSurroundings crowdedPolicy) change) ∧
    (diff [] [objectGrant 1 8]).map Change.reach ≠ (diff [] [objectGrant 1 136]).map Change.reach ∧
    reviewText (plainSurroundings crowdedPolicy) [] [objectGrant 1 8] =
      reviewText (plainSurroundings crowdedPolicy) [] [objectGrant 1 136] ∧
    (diff [objectGrant 1 136] [objectGrant 1 136, objectGrant 1 2]).map Change.reach ≠
      (diff [objectGrant 1 136]
        [objectGrant 1 136, objectGrant 1 2, objectGrant 1 8]).map Change.reach ∧
    reviewText (plainSurroundings emptyPolicy) [objectGrant 1 136] [objectGrant 1 2] =
      reviewText (plainSurroundings emptyPolicy) [objectGrant 1 136]
        [objectGrant 1 2, objectGrant 1 8] := by
  decide +kernel

theorem built_objectGrant (permissions : List Permission) :
    (objectGrant 1 (maskOf permissions)).Built where
  object := absent rfl
  kind := absent rfl
  mask _ := known_maskOf

/-- A gated and a free `exec` on an object without labels are told apart. -/
theorem reviewed_text_shows_exec : reviewText (plainSurroundings emptyPolicy) [] [objectGrant 1 8] ≠
    reviewText (plainSurroundings emptyPolicy) [] [objectGrant 1 136] := by
  have free : ∀ grant ∈ [objectGrant 1 8], grant.Built := by
    intro grant listed
    rw [List.mem_singleton.mp listed]
    exact built_objectGrant [.execute]
  have gated : ∀ grant ∈ [objectGrant 1 136], grant.Built := by
    intro grant listed
    rw [List.mem_singleton.mp listed]
    exact built_objectGrant [.execute, .requiresApproval]
  refine ((reviewed_text_shows_change (plainSurroundings emptyPolicy) []
    [objectGrant 1 8]).2 [objectGrant 1 136] free gated ?_ ?_ (by decide +kernel)).1
  · exact ⟨by decide +kernel, by decide +kernel, by decide +kernel⟩
  · exact ⟨by decide +kernel, by decide +kernel, by decide +kernel⟩

end Cdk.Policy

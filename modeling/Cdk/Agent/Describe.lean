import Cdk.Agent.Pending
import Cdk.Library.Delimited
import Cdk.Library.HexText

/-!
# What operators are shown

`describe_request` renders a pending action as four lines, which the statement that operators
sign covers.  The payload is escaped, the program's name is not, so the text is read from both
ends: the request and the pid from the front, the payload and the action from the last two lines,
which an agent cannot break.
-/

namespace Cdk.Agent

open ByteFormat Delimited Link Approvals Fixed
open HexText hiding Text

/-! ## Rendering -/

def isPlain (byte : UInt8) : Bool := 0x20 ≤ byte && byte ≤ 0x7e && byte != 34 && byte != 92

/-- Two lower-case hexadecimal digits. -/
def hexByte (byte : UInt8) : Bytes := codes (hexDigits 2 byte.toNat)

/-- One byte of `write_sanitized`. -/
def sanitized (byte : UInt8) : Bytes :=
  if isPlain byte then [byte] else ascii "\\x" ++ hexByte byte

/-- Show bytes so that they can neither end a line nor a quotation. -/
def writeSanitized (bytes : Bytes) : Bytes := bytes.flatMap sanitized

/-- The name of a process: any text of at most 24 bytes. -/
structure ProcName where
  text : Text
  fits : (utf8 text).length ≤ 24
  deriving DecidableEq

/-- What a pending request is about to do, without where its result goes. -/
inductive Deed where
  | send
  | model (name : Bytes)
  | tool (name : Bytes)
  deriving DecidableEq

/-- The deed of an action; the gateway's models are tools whose name begins
with `model:`. -/
def Action.deed : Action → Deed
  | .send => .send
  | .tool name _ _ _ =>
    match name.dropPrefix? (ascii "model:") with
    | some model => .model model
    | none => .tool name

/-- The end of a line about a tool or a model. -/
def viaGateway (object : Bytes) (handle : UInt64) : Bytes :=
  object ++ (ascii ", handle h" ++ (decimal handle.toNat ++ ascii ") via the gateway"))

/-- The line that shows the action. -/
def actionLine (request : Pending) : Bytes :=
  match request.action.deed with
  | .send =>
    ascii "  action : send " ++ (decimal request.payload.length ++
      (ascii " bytes to " ++ (request.capability.objectId ++
        (ascii " (handle h" ++ (decimal request.handle.toNat ++ ascii ")")))))
  | .model model =>
    ascii "  action : prompt model '" ++ (model ++ (ascii "' (" ++
      viaGateway request.capability.objectId request.handle))
  | .tool tool =>
    ascii "  action : call tool '" ++ (tool ++ (ascii "' (" ++
      viaGateway request.capability.objectId request.handle))

def dataLine (payload : Bytes) : Bytes :=
  ascii "  data   : \"" ++ (writeSanitized payload ++ ascii "\"")

/-- The first two lines, without the end of the second. -/
def agentLines (nameOf : UInt32 → Option ProcName) (request : Pending) : Bytes :=
  ascii "=== HUMAN APPROVAL REQUIRED (request #" ++ (decimal request.id.toNat ++
    (ascii ") ===\n  agent  : pid " ++ (decimal request.pid.toNat ++
      (ascii " '" ++
        (((nameOf request.pid).elim (ascii "?") fun name => utf8 name.text) ++ ascii "'")))))

/-- What a request asks for, as shown to the console and to operators. -/
def describeRequest (nameOf : UInt32 → Option ProcName) (request : Pending) : Bytes :=
  agentLines nameOf request ++ ascii "\n" ++ actionLine request ++ ascii "\n" ++
    dataLine request.payload ++ ascii "\n"

/-- Tool names: 1 to 48 of `a-z A-Z 0-9 . _ - / :`. -/
def validToolName : Bytes → Bool :=
  validName 48 fun byte =>
    isAsciiAlphanumeric byte || (ascii "._-/:").contains byte

/-- A request as the kernel queues it: the tool has a name that the gateway's
listing admits, and the object has an id without spaces or line breaks. -/
structure Admitted (request : Pending) : Prop where
  object : ∀ byte ∈ request.capability.objectId, byte ≠ 32 ∧ byte ≠ 10
  tool : ∀ name outPtr outLen pml4,
    request.action = .tool name outPtr outLen pml4 → validToolName name

/-- What the text is to tell its reader. -/
structure Shown where
  id : UInt32
  pid : UInt32
  deed : Deed
  object : Bytes
  handle : UInt64
  payload : Bytes
  deriving DecidableEq

def Pending.shown (request : Pending) : Shown where
  id := request.id
  pid := request.pid
  deed := request.action.deed
  object := request.capability.objectId
  handle := request.handle
  payload := request.payload

/-! ## Escapes -/

theorem sanitized_ne_nil (byte : UInt8) : sanitized byte ≠ [] := by
  unfold sanitized
  split
  · exact List.cons_ne_nil _ _
  · exact List.cons_ne_nil _ _

theorem length_hexByte (byte : UInt8) : (hexByte byte).length = 2 := by
  rw [hexByte, codes, List.length_map, length_hexDigits]

theorem hexByte_injective : Function.Injective hexByte := by
  intro left right equal
  have small : ∀ byte : UInt8, ∀ digit ∈ hexDigits 2 byte.toNat, digit.toNat < 256 :=
    fun byte => forall_mem_hexDigits (by decide) 2 byte.toNat
  have digits := codes_inj (small left) (small right) equal
  have parsed : ∀ byte : UInt8, parseHex 256 (hexDigits 2 byte.toNat) = some byte.toNat := by
    intro byte
    exact parseHex_hexDigits (by decide) byte.toNat_lt byte.toNat_lt
  have values := parsed left
  rw [digits, parsed right, Option.some.injEq] at values
  exact UInt8.toNat_inj.mp values.symm

/-- The first byte of an escape is not shown as it is. -/
theorem isPlain_backslash : isPlain 92 = false := by decide

theorem sanitized_readable (left right : UInt8) (leftRest rightRest : Bytes)
    (equal : sanitized left ++ leftRest = sanitized right ++ rightRest) :
    left = right ∧ leftRest = rightRest := by
  have escape : ∀ byte, isPlain byte = false → ∃ rest, sanitized byte = 92 :: rest := by
    intro byte special
    exact ⟨120 :: hexByte byte, if_neg (by simp [special])⟩
  have distinct : ∀ plain special : UInt8, isPlain plain →
      isPlain special = false → ∀ plainRest specialRest,
      sanitized plain ++ plainRest ≠ sanitized special ++ specialRest := by
    intro plain special plainly specially plainRest specialRest same
    obtain ⟨rest, shown⟩ := escape special specially
    rw [shown, sanitized, if_pos plainly] at same
    obtain ⟨rfl, -⟩ := List.cons.inj same
    simp [isPlain_backslash] at plainly
  cases leftPlain : isPlain left <;> cases rightPlain : isPlain right
  · simp only [sanitized, leftPlain, rightPlain, Bool.false_eq_true, if_false,
      List.append_assoc] at equal
    obtain ⟨digits, rests⟩ := List.append_inj (List.append_cancel_left equal)
      (by rw [length_hexByte, length_hexByte])
    exact ⟨hexByte_injective digits, rests⟩
  · exact absurd equal.symm (distinct right left rightPlain leftPlain _ _)
  · exact absurd equal (distinct left right leftPlain rightPlain _ _)
  · simp only [sanitized, leftPlain, rightPlain, if_true] at equal
    simpa using equal

/-! ## Lines -/

theorem newline_not_mem_decimal (value : Nat) : ∀ byte ∈ decimal value, byte ≠ 10 := by
  intro byte present newline
  have digit := decimal_isDigit value byte present
  rw [newline] at digit
  exact absurd digit (by decide)

theorem newline_not_mem_hexByte (byte : UInt8) : ∀ digit ∈ hexByte byte, digit ≠ 10 := by
  have digits : ∀ digit ∈ hexDigits 2 byte.toNat, UInt8.ofNat digit.toNat ≠ 10 :=
    forall_mem_hexDigits (by decide) 2 byte.toNat
  intro code present
  obtain ⟨digit, listed, rfl⟩ := List.mem_map.mp present
  exact digits digit listed

theorem newline_not_mem_sanitized (byte : UInt8) : ∀ shown ∈ sanitized byte, shown ≠ 10 := by
  unfold sanitized
  split
  · rename_i plain
    intro shown present newline
    rw [← List.mem_singleton.mp present, newline] at plain
    exact absurd plain (by decide)
  · rw [List.forall_mem_append]
    exact ⟨absent rfl, newline_not_mem_hexByte byte⟩

theorem newline_not_mem_dataLine (payload : Bytes) : ∀ byte ∈ dataLine payload, byte ≠ 10 := by
  simp only [dataLine, List.forall_mem_append]
  refine ⟨absent rfl, ?_, absent rfl⟩
  intro byte present
  obtain ⟨source, -, shown⟩ := List.mem_flatMap.mp present
  exact newline_not_mem_sanitized source byte shown

theorem dataLine_injective : Function.Injective dataLine := by
  intro left right equal
  exact flatMap_injective sanitized_ne_nil sanitized_readable
    (List.append_cancel_right (List.append_cancel_left equal))

theorem not_mem_of_validToolName (valid : validToolName name) :
    ∀ byte ∈ name, byte ≠ 39 ∧ byte ≠ 10 := by
  simp only [validToolName, validName, Bool.and_eq_true, List.all_eq_true] at valid
  intro byte present
  have accepted := valid.2 byte present
  constructor
  · rintro rfl
    exact absurd accepted (by decide)
  · rintro rfl
    exact absurd accepted (by decide)

theorem Action.mem_of_deed {action : Action}
    (named : action.deed = .model name ∨ action.deed = .tool name) :
    ∃ whole outPtr outLen pml4, action = .tool whole outPtr outLen pml4 ∧
      ∀ byte ∈ name, byte ∈ whole := by
  cases action with
  | send => simp [Action.deed] at named
  | tool whole outPtr outLen pml4 =>
    refine ⟨whole, outPtr, outLen, pml4, rfl, ?_⟩
    simp only [Action.deed] at named
    split at named
    · rename_i model found
      obtain ⟨start, rfl, -⟩ := List.dropPrefix?_eq_some_iff.mp found
      simp only [Deed.model.injEq, reduceCtorEq, or_false] at named
      subst named
      exact fun byte present => List.mem_append_right start present
    · simp only [Deed.tool.injEq, reduceCtorEq, false_or] at named
      subst named
      exact fun byte present => present

theorem Admitted.deed_name {request : Pending} (admitted : Admitted request)
    (named : request.action.deed = .model name ∨ request.action.deed = .tool name) :
    ∀ byte ∈ name, byte ≠ 39 ∧ byte ≠ 10 := by
  obtain ⟨whole, outPtr, outLen, pml4, action, inside⟩ := Action.mem_of_deed named
  intro byte present
  exact not_mem_of_validToolName (admitted.tool _ _ _ _ action) byte (inside byte present)

theorem Admitted.newline_not_mem_actionLine (admitted : Admitted request) :
    ∀ byte ∈ actionLine request, byte ≠ 10 := by
  have object : ∀ byte ∈ request.capability.objectId, byte ≠ 10 :=
    fun byte present => (admitted.object byte present).2
  have via : ∀ byte ∈ viaGateway request.capability.objectId request.handle, byte ≠ 10 := by
    simp only [viaGateway, List.forall_mem_append]
    exact ⟨object, absent rfl, newline_not_mem_decimal _, absent rfl⟩
  unfold actionLine
  split
  · simp only [List.forall_mem_append]
    exact ⟨absent rfl, newline_not_mem_decimal _, absent rfl, object, absent rfl,
      newline_not_mem_decimal _, absent rfl⟩
  · rename_i model deed
    simp only [List.forall_mem_append]
    exact ⟨absent rfl, fun byte present =>
      (admitted.deed_name (.inl deed) byte present).2, absent rfl, via⟩
  · rename_i tool deed
    simp only [List.forall_mem_append]
    exact ⟨absent rfl, fun byte present =>
      (admitted.deed_name (.inr deed) byte present).2, absent rfl, via⟩

theorem viaGateway_inj (leftWord : ∀ byte ∈ left, byte ≠ 32 ∧ byte ≠ 10)
    (rightWord : ∀ byte ∈ right, byte ≠ 32 ∧ byte ≠ 10)
    (equal : viaGateway left leftHandle = viaGateway right rightHandle) :
    left = right ∧ leftHandle = rightHandle := by
  -- The comma belongs to the word that ends at the first space.
  have comma : ∀ object handle, viaGateway object handle =
      (object ++ ascii ",") ++ (ascii " handle h" ++
        (decimal handle.toNat ++ (ascii ") via the gateway" ++ []))) := by
    intro object handle
    rw [List.append_assoc, List.append_nil]
    rfl
  rw [comma, comma] at equal
  have word : ∀ object : Bytes, (∀ byte ∈ object, byte ≠ 32 ∧ byte ≠ 10) →
      ∀ byte ∈ object ++ ascii ",", byte ≠ 32 := by
    intro object words
    rw [List.forall_mem_append]
    exact ⟨fun byte present => (words byte present).1, absent rfl⟩
  obtain ⟨objects, handles⟩ := cut_field rfl (by decide) (word left leftWord)
    (word right rightWord) equal
  obtain ⟨handles, -⟩ := cut_decimal rfl (by decide) handles
  exact ⟨List.append_cancel_right objects, UInt64.toNat_inj.mp handles⟩

theorem quoted_inj {left right leftRest rightRest : Bytes}
    (leftPlain : ∀ byte ∈ left, byte ≠ 39 ∧ byte ≠ 10)
    (rightPlain : ∀ byte ∈ right, byte ≠ 39 ∧ byte ≠ 10)
    (equal : left ++ (ascii "' (" ++ leftRest) =
      right ++ (ascii "' (" ++ rightRest)) :
    left = right ∧ leftRest = rightRest := by
  have leftInside : ∀ byte ∈ left, byte ≠ 39 :=
    fun byte present => (leftPlain byte present).1
  have rightInside : ∀ byte ∈ right, byte ≠ 39 :=
    fun byte present => (rightPlain byte present).1
  exact cut_field rfl (by decide) leftInside rightInside equal

theorem sendLine_inj {leftHandle rightHandle : UInt64}
    (leftWord : ∀ byte ∈ left, byte ≠ 32 ∧ byte ≠ 10)
    (rightWord : ∀ byte ∈ right, byte ≠ 32 ∧ byte ≠ 10)
    (equal : decimal leftLength ++ (ascii " bytes to " ++ (left ++
        (ascii " (handle h" ++ (decimal leftHandle.toNat ++ ascii ")")))) =
      decimal rightLength ++ (ascii " bytes to " ++ (right ++
        (ascii " (handle h" ++ (decimal rightHandle.toNat ++ ascii ")"))))) :
    left = right ∧ leftHandle = rightHandle := by
  have leftInside : ∀ byte ∈ left, byte ≠ 32 :=
    fun byte present => (leftWord byte present).1
  have rightInside : ∀ byte ∈ right, byte ≠ 32 :=
    fun byte present => (rightWord byte present).1
  obtain ⟨-, equal⟩ := cut_decimal rfl (by decide) equal
  obtain ⟨objects, equal⟩ := cut_field rfl (by decide) leftInside rightInside equal
  exact ⟨objects, UInt64.toNat_inj.mp (decimal_injective (List.append_cancel_right equal))⟩

/-- The letter that tells the three kinds of action apart. -/
def Deed.letter : Deed → UInt8
  | .send => 115
  | .model _ => 112
  | .tool _ => 99

theorem actionLine_letter (request : Pending) :
    (actionLine request)[11]? = some request.action.deed.letter := by
  unfold actionLine
  cases request.action.deed with
  | send | model name | tool name => rfl

variable {left right : Pending}

/-- The line about the action determines the deed, the object and the
handle. -/
theorem actionLine_inj (leftAdmitted : Admitted left)
    (rightAdmitted : Admitted right) (equal : actionLine left = actionLine right) :
    left.action.deed = right.action.deed ∧ left.capability.objectId = right.capability.objectId ∧
      left.handle = right.handle := by
  have letters := actionLine_letter left
  rw [equal, actionLine_letter right, Option.some.injEq] at letters
  cases leftDeed : left.action.deed with
  | send =>
    cases rightDeed : right.action.deed with
    | send =>
      simp only [actionLine, leftDeed, rightDeed] at equal
      exact ⟨rfl, sendLine_inj leftAdmitted.object rightAdmitted.object
        (List.append_cancel_left equal)⟩
    | model _ | tool _ => simp [leftDeed, rightDeed, Deed.letter] at letters
  | model leftName =>
    cases rightDeed : right.action.deed with
    | send | tool _ => simp [leftDeed, rightDeed, Deed.letter] at letters
    | model rightName =>
      simp only [actionLine, leftDeed, rightDeed] at equal
      obtain ⟨rfl, rest⟩ := quoted_inj (leftAdmitted.deed_name (.inl leftDeed))
        (rightAdmitted.deed_name (.inl rightDeed)) (List.append_cancel_left equal)
      exact ⟨rfl, viaGateway_inj leftAdmitted.object rightAdmitted.object rest⟩
  | tool leftName =>
    cases rightDeed : right.action.deed with
    | send | model _ => simp [leftDeed, rightDeed, Deed.letter] at letters
    | tool rightName =>
      simp only [actionLine, leftDeed, rightDeed] at equal
      obtain ⟨rfl, rest⟩ := quoted_inj (leftAdmitted.deed_name (.inr leftDeed))
        (rightAdmitted.deed_name (.inr rightDeed)) (List.append_cancel_left equal)
      exact ⟨rfl, viaGateway_inj leftAdmitted.object rightAdmitted.object rest⟩

/-- The first lines determine the number of the request and the pid, whatever
the names of the processes are. -/
theorem agentLines_inj (equal : agentLines leftNames left = agentLines rightNames right) :
    left.id = right.id ∧ left.pid = right.pid := by
  obtain ⟨ids, equal⟩ := cut_decimal rfl (by decide) (List.append_cancel_left equal)
  obtain ⟨pids, -⟩ := cut_decimal rfl (by decide) equal
  exact ⟨UInt32.toNat_inj.mp ids, UInt32.toNat_inj.mp pids⟩

/-- The text determines everything it is to show. -/
theorem describeRequest_inj (leftAdmitted : Admitted left) (rightAdmitted : Admitted right)
    (equal : describeRequest leftNames left = describeRequest rightNames right) :
    left.shown = right.shown := by
  -- The payload and the action are the last two lines.
  have lines : ∀ names request, describeRequest names request =
      ((agentLines names request ++ 10 :: actionLine request) ++
        10 :: dataLine request.payload) ++ [10] := by
    intro names request
    simp only [describeRequest, show ascii "\n" = [10] from rfl,
      List.append_assoc, List.nil_append, List.cons_append]
  rw [lines, lines] at equal
  obtain ⟨equal, -, payloads⟩ := cut_last (newline_not_mem_dataLine _)
    (newline_not_mem_dataLine _) (by decide) (by decide) (List.append_cancel_right equal)
  obtain ⟨equal, -, actions⟩ := cut_last leftAdmitted.newline_not_mem_actionLine
    rightAdmitted.newline_not_mem_actionLine (by decide) (by decide) equal
  obtain ⟨ids, pids⟩ := agentLines_inj equal
  obtain ⟨deeds, objects, handles⟩ := actionLine_inj leftAdmitted rightAdmitted actions
  simp only [Pending.shown, ids, pids, deeds, objects, handles, dataLine_injective payloads]

/-! ## What a signature is for -/

/-- A signature is valid for one digest only. -/
def SignaturesBind (crypto : Crypto) : Prop := ∀ key context left right signature,
    verifyWith crypto key left signature context →
    verifyWith crypto key right signature context → left = right

/-- A pending request that is put before the operators in some boot, in a text
that can be shown in full. -/
structure Submission (Boot : Type) where
  boot : Boot
  /-- The names of the processes at that time. -/
  nameOf : UInt32 → Option ProcName
  pending : Pending
  admitted : Admitted pending
  number : Nat
  quorum : UInt8
  ttl : UInt16
  text : Text
  described : utf8 text = describeRequest nameOf pending
  whole : (utf8 text).length ≤ Approval.maxText

namespace Submission

variable {Boot : Type}

/-- What the request is opened with. -/
def demand (submission : Submission Boot) : Demand :=
  ⟨Approval.kindAction, submission.quorum, submission.ttl,
    submission.pending.payload, submission.text⟩

variable (settings : Boot → Setting) (submission : Submission Boot) (now : UInt64)

def request : Approval.Request :=
  submission.demand.request (settings submission.boot) submission.number

/-- The entry that decisions are checked against. -/
def entry : Open :=
  submission.demand.entry (settings submission.boot) submission.number now

theorem statement_entry (approve : Bool) :
    (submission.entry settings now).statement approve = (settings submission.boot).crypto.sha256
        (Approval.statementInput (submission.request settings) approve) := by
  cases approve <;> rfl

variable {settings}

theorem eq_of_statementInput (distinctIssuers : ∀ left right,
      (settings left).issuer = (settings right).issuer → left = right)
    {left right : Submission Boot}
    (equal : Approval.statementInput (left.request settings) leftApprove =
      Approval.statementInput (right.request settings) rightApprove) :
    left.boot = right.boot ∧ left.request settings = right.request settings ∧
      left.pending.shown = right.pending.shown ∧ leftApprove = rightApprove := by
  obtain ⟨requests, decisions⟩ := Approval.statementInput_inj equal
  have issuers := congrArg Approval.Request.issuer requests
  have texts : left.text = right.text := congrArg Approval.Request.text requests
  refine ⟨distinctIssuers _ _ issuers, requests, ?_, decisions⟩
  apply describeRequest_inj left.admitted right.admitted
  rw [← left.described, texts, right.described]

end Submission

/-- What operators sign determines what runs.  Equal texts show the same
request; equal hash inputs are of the same request and the same decision; and a
signature that is accepted for a submission is not valid for any other, in this
boot or another one, nor for the opposite decision. -/
theorem signed_text_determines_action :
    (∀ leftNames rightNames left right, Admitted left → Admitted right →
      describeRequest leftNames left = describeRequest rightNames right →
      left.id = right.id ∧ left.pid = right.pid ∧ left.action.deed = right.action.deed ∧
        left.capability.objectId = right.capability.objectId ∧
        left.handle = right.handle ∧ left.payload = right.payload) ∧
    (∀ (left right : Approval.Request) leftApprove rightApprove,
      (utf8 left.text).length ≤ Approval.maxText → (utf8 right.text).length ≤ Approval.maxText →
      Approval.statementInput left leftApprove = Approval.statementInput right rightApprove →
      left = right ∧ leftApprove = rightApprove) ∧
    (∀ (Boot : Type) (settings : Boot → Setting) (crypto : Crypto)
      (submitted : Set (Submission Boot)), (∀ boot, (settings boot).crypto = crypto) →
      (∀ left right, (settings left).issuer = (settings right).issuer → left = right) →
      Set.InjOn crypto.sha256 {input | ∃ submission ∈ submitted, ∃ approve,
          input = Approval.statementInput (submission.request settings) approve} →
      SignaturesBind crypto → ∀ left ∈ submitted, ∀ right ∈ submitted,
      ∀ operator leftNow rightNow leftDecision rightDecision,
        leftDecision.signature = rightDecision.signature →
        verifies (settings left.boot) operator (left.entry settings leftNow) leftDecision →
        verifies (settings right.boot) operator (right.entry settings rightNow)
          rightDecision → left.boot = right.boot ∧
          left.request settings = right.request settings ∧
          left.pending.shown = right.pending.shown ∧
          leftDecision.approve = rightDecision.approve) := by
  refine ⟨?_, ?_, ?_⟩
  · intro leftNames rightNames left right leftAdmitted rightAdmitted equal
    have shown := describeRequest_inj leftAdmitted rightAdmitted equal
    simpa only [Pending.shown, Shown.mk.injEq] using shown
  · intro left right leftApprove rightApprove _ _ equal
    exact Approval.statementInput_inj equal
  intro Boot settings crypto submitted sameCrypto distinctIssuers collisionFree
    bind left leftSubmitted right rightSubmitted operator leftNow rightNow
    leftDecision rightDecision sameSignature leftAccepted rightAccepted
  simp only [verifies, sameSignature, Submission.statement_entry, sameCrypto]
    at leftAccepted rightAccepted
  cases parsed : Signature.fromSlice rightDecision.signature with
  | none => simp only [parsed, Bool.false_eq_true] at leftAccepted
  | some signature =>
    simp only [parsed] at leftAccepted rightAccepted
    have digests := bind _ _ _ _ _ leftAccepted rightAccepted
    have inputs := collisionFree ⟨left, leftSubmitted, _, rfl⟩
      ⟨right, rightSubmitted, _, rfl⟩ digests
    exact Submission.eq_of_statementInput distinctIssuers inputs

def bindingCrypto : Crypto where
  sha256 := checksum 32
  edVerify _ digest signature := signature.bytes.take 32 == digest.bytes
  mlVerify _ _ _ _ := true

theorem signaturesBind_bindingCrypto : SignaturesBind bindingCrypto := by
  intro key context left right signature leftValid rightValid
  simp only [verifyWith, bindingCrypto, Bool.and_true, beq_iff_eq] at leftValid rightValid
  exact ext (leftValid.symm.trans rightValid)

/-- A boot without pinned operators; the signatures are checked directly. -/
def submissionSettings : Unit → Setting :=
  fun _ => ⟨bindingCrypto, loadOperators bindingCrypto [], replicate 16 7⟩

/-- An agent named like the end of its own line asks to call a tool. -/
def submittedPending : Pending where
  id := 3
  pid := 12
  handle := 0
  capability := ⟨ascii "obj-5", [.execute, .requiresApproval]⟩
  payload := [34, 10, 97]
  action := .tool (ascii "model:qwen") 0 0 0
  signed := none
  unsendable := false

def sampleSubmission : Submission Unit where
  boot := ()
  nameOf _ := some ⟨"x'\n  data".toList, by decide⟩
  pending := submittedPending
  admitted :=
    { object := by
        intro byte present
        exact ⟨absent rfl byte present, absent rfl byte present⟩
      tool := by
        rintro name outPtr outLen pml4 ⟨⟩
        decide }
  number := 1
  quorum := 2
  ttl := 60
  text := ("=== HUMAN APPROVAL REQUIRED (request #3) ===\n" ++
    "  agent  : pid 12 'x'\n  data'\n" ++
    "  action : prompt model 'qwen' (obj-5, handle h0) via the gateway\n" ++
    "  data   : \"\\x22\\x0aa\"\n").toList
  described := by decide +kernel
  whole := by decide +kernel

def submissionApproval : Approval.Decision where
  id := 1
  operator := replicate 16 1
  approve := true
  signature := (Approval.statement bindingCrypto (sampleSubmission.request submissionSettings)
      true).bytes ++ List.replicate 3341 0

/-- The approval is accepted for the sample, and is not valid as a denial. -/
theorem signed_text_determines_sample :
    verifies (submissionSettings ()) ⟨[], replicate 32 0, replicate 1952 0⟩
        (sampleSubmission.entry submissionSettings 0) submissionApproval ∧
      verifies (submissionSettings ()) ⟨[], replicate 32 0, replicate 1952 0⟩
        (sampleSubmission.entry submissionSettings 0)
        { submissionApproval with approve := false } ≠ true := by
  refine ⟨by decide +kernel, fun denied => ?_⟩
  have collisionFree : Set.InjOn bindingCrypto.sha256
      {input | ∃ submission ∈ ({sampleSubmission} : Set (Submission Unit)),
        ∃ approve, input = Approval.statementInput
          (submission.request submissionSettings) approve} := by
    rintro _ ⟨_, rfl, leftApprove, rfl⟩ _ ⟨_, rfl, rightApprove, rfl⟩ equal
    revert leftApprove rightApprove
    decide +kernel
  have decisions := (signed_text_determines_action.2.2 Unit submissionSettings
    bindingCrypto {sampleSubmission} (fun _ => rfl) (fun _ _ _ => rfl)
    collisionFree signaturesBind_bindingCrypto sampleSubmission rfl
    sampleSubmission rfl _ 0 0 submissionApproval
    { submissionApproval with approve := false } rfl (by decide +kernel) denied).2.2.2
  exact absurd decisions (by decide)

end Cdk.Agent

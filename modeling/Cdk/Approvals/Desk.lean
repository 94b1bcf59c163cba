import Cdk.Library.FirstMatch
import Cdk.Library.Run
import Cdk.Link.Approval

/-!
# The table of open approval requests

In signed mode an action or a policy change waits for operators' signatures.  The kernel keeps
the open requests in a table, assembles decisions, counts the votes whose signature verifies
under a pinned key, and denies by a separate sweep what has not been answered in time.
`Becomes` lists everything a call can do to a request (`mem_step`).
-/

namespace Cdk.Approvals

open ByteFormat Link Link.Approval FirstMatch

/-! ## Pinned operators -/

/-- A pinned operator key. -/
structure Operator where
  name : Bytes
  key : Identity
  deriving DecidableEq

/-- The fingerprint that names an operator in decisions. -/
def Operator.id (crypto : Crypto) (operator : Operator) : Fixed 16 := operator.key.id crypto

/-- The pinned operators, no two with the same fingerprint. -/
structure Operators (crypto : Crypto) where
  /-- In the order of the ramdisk. -/
  list : List Operator
  /-- A second key with a known fingerprint is not pinned. -/
  distinct : (list.map (Operator.id crypto)).Nodup

namespace Operators

variable {crypto : Crypto}

def find (operators : Operators crypto) (id : Fixed 16) : Option Operator :=
  operators.list.find? fun operator => operator.id crypto == id

/-- Pin an operator whose id is new. -/
def pin (operators : Operators crypto) (operator : Operator) : Operators crypto :=
  if known : operator.id crypto ∈ operators.list.map (Operator.id crypto) then
    operators
  else
    { list := operators.list ++ [operator]
      distinct := by
        rw [List.map_append, List.map_singleton]
        exact operators.distinct.append (List.nodup_singleton _)
          (List.disjoint_singleton.mpr known) }

end Operators

/-- The name in `operator-<name>.pub`, if it has at most 24 bytes. -/
def operatorName (file : Bytes) : Option Bytes :=
  ((file.dropPrefix? (ascii "operator-")).bind fun rest =>
    rest.dropSuffix? (ascii ".pub")).bind fun name =>
      if name.length ≤ 24 then some name else none

/-- Parse a public key file. -/
def identityFromBytes (data : Bytes) : Option Identity :=
  (do let identity ← Identity.reader; Reader.finish; pure identity : Reader Identity).parse data

/-- The operators of the ramdisk. -/
def loadOperators (crypto : Crypto) (files : List (Bytes × Bytes)) : Operators crypto := files.foldl
    (fun operators file =>
      match identityFromBytes file.2, operatorName file.1 with
      | some key, some name => operators.pin ⟨name, key⟩
      | _, _ => operators)
    ⟨[], List.nodup_nil⟩

/-- What does not change during a boot. -/
structure Setting where
  crypto : Crypto
  operators : Operators crypto
  /-- The id of this boot's kernel issuer. -/
  issuer : Fixed 16

/-! ## The table -/

/-- The decision on a request. -/
inductive Outcome where
  | approved
  | denied
  | timedOut
  deriving DecidableEq, Repr

def outcomeCode : Option Outcome → UInt8
  | some .approved => 1
  | some .denied => 2
  | _ => 3

/-- An entry of the table.  Requests are numbered without bound here; the
kernel's 32-bit id is the number cut to its width. -/
structure Open where
  number : Nat
  kind : UInt8
  quorum : UInt8
  ttl : UInt16
  /-- The time stamp counter at which time is up. -/
  deadline : UInt64
  yes : Fixed 32
  no : Fixed 32
  /-- Operators who approved. -/
  approvals : List (Fixed 16)
  outcome : Option Outcome
  deriving DecidableEq

namespace Open

def id (request : Open) : UInt32 := UInt32.ofNat request.number

def statement (request : Open) (approve : Bool) : Fixed 32 :=
  if approve then request.yes else request.no

/-- Count a vote that has passed all checks. -/
def vote (request : Open) (decision : Decision) : Open :=
  if decision.approve then
    let approvals := request.approvals ++ [decision.operator]
    { request with
      approvals
      outcome :=
        if request.quorum.toNat ≤ approvals.length then some .approved
        else request.outcome }
  else { request with outcome := some .denied }

end Open

/-- Why a decision is ignored. -/
inductive Reject where
  | unknownOperator
  | badSignature
  | duplicate
  | unknownRequest
  deriving DecidableEq, Repr

/-- What is written to the audit log. -/
inductive Event where
  | rejected (id : UInt32) (operator : Fixed 16) (reason : Reject)
  | signed (id : UInt32) (name : Bytes) (approve : Bool) (digest : Bytes)
  | timeout (id : UInt32) (ttl : UInt16)
  deriving DecidableEq

/-- The state of the approvals. -/
structure Desk where
  opened : List Open
  assembler : Assembler
  /-- The number of the next request. -/
  next : Nat
  audit : List Event
  deriving DecidableEq

def Desk.boot : Desk := ⟨[], .initial, 1, []⟩

/-! ## Opening a request -/

/-- What the surroundings contribute to the opening of a request. -/
structure Surroundings where
  secure : Bool
  /-- The gateway took the request. -/
  sent : Bool
  now : UInt64
  deriving DecidableEq

/-- What a request is opened with. -/
structure Demand where
  kind : UInt8
  quorum : UInt8
  ttl : UInt16
  payload : Bytes
  text : Text
  deriving DecidableEq

section

variable (setting : Setting)

/-- The request that is sent. -/
def Demand.request (demand : Demand) (number : Nat) : Request where
  id := UInt32.ofNat number
  issuer := setting.issuer
  kind := demand.kind
  quorum := max demand.quorum 1
  ttl := demand.ttl
  payloadDigest := setting.crypto.sha256 demand.payload
  text := demand.text

/-- Ticks of the time stamp counter in a second, as the kernel counts them. -/
def ticksPerSecond : UInt64 := 2000000000

/-- The entry that is opened. -/
def Demand.entry (demand : Demand) (number : Nat) (now : UInt64) : Open where
  number
  kind := demand.kind
  quorum := (demand.request setting number).quorum
  ttl := demand.ttl
  deadline := now + demand.ttl.toUInt64 * ticksPerSecond
  yes := Approval.statement setting.crypto (demand.request setting number) true
  no := Approval.statement setting.crypto (demand.request setting number) false
  approvals := []
  outcome := none

/-- A text that operators can be shown in full. -/
def wholeText (text : Text) : Option Text :=
  if (utf8 text).length ≤ maxText then some text else none

/-- Send a request and open its entry. -/
def Desk.openRequest (surroundings : Surroundings) (demand : Demand)
    (desk : Desk) : Desk × Except String UInt32 :=
  if !surroundings.secure then
    (desk, .error "no secure link to the gateway (signed approvals travel through it)")
  else if (utf8 demand.text).length > maxText then
    (desk, .error "too much to review in one signed request; split it")
  else
    let number := desk.next
    let counted := { desk with next := desk.next + 1 }
    match encodeRequest (demand.request setting number) with
    | none => (counted, .error "request too large")
    | some _ =>
      if !surroundings.sent then
        (counted, .error "could not send the request to the gateway")
      else
        ({ counted with
            opened :=
              desk.opened ++ [demand.entry setting number surroundings.now] },
          .ok (UInt32.ofNat number))

/-! ## Votes -/

/-- The signature verifies under the operator's key for this request and
decision. -/
def verifies (operator : Operator) (request : Open) (decision : Decision) : Bool :=
  match Signature.fromSlice decision.signature with
  | none => false
  | some signature =>
    verifyWith setting.crypto operator.key (request.statement decision.approve)
      signature Approval.context

/-- The entry a decision is checked against: an undecided one with its id. -/
def awaits (decision : Decision) (request : Open) : Bool :=
  request.id == decision.id && request.outcome.isNone

namespace Desk

variable (desk : Desk)

def reject (decision : Decision) (reason : Reject) : Desk :=
  { desk with
    audit := desk.audit ++ [.rejected decision.id decision.operator reason] }

/-- Count a valid decision. -/
def onDecision (decision : Decision) : Desk :=
  match setting.operators.find decision.operator with
  | none => desk.reject decision .unknownOperator
  | some operator =>
    match desk.opened.find? (awaits decision) with
    | none => desk.reject decision .unknownRequest
    | some request =>
      if !verifies setting operator request decision then
        desk.reject decision .badSignature
      else if request.approvals.contains decision.operator then
        desk.reject decision .duplicate
      else
        { desk with
          opened := desk.opened.replaceF fun other =>
            if awaits decision other then some (other.vote decision) else none
          audit := desk.audit ++
            [.signed decision.id operator.name decision.approve
              ((setting.crypto.sha256 decision.signature).bytes.take 8)] }

def completed (message : Bytes) : Option Decision :=
  match decode message with
  | some (.decisionPart part) => (desk.assembler.push part).2
  | _ => none

/-- The parts that are under way once a message has been taken in. -/
def assembled (message : Bytes) : Assembler :=
  match decode message with
  | some (.decisionPart part) => (desk.assembler.push part).1
  | _ => desk.assembler

/-- Handle an approval message from the gateway. -/
def onMessage (message : Bytes) : Desk :=
  let taken := { desk with assembler := desk.assembled message }
  match desk.completed message with
  | none => taken
  | some decision => taken.onDecision setting decision

/-! ## Time, outcomes and closing -/

end Desk

/-- The deadline has passed, in the counter's wrapping arithmetic. -/
def expired (now deadline : UInt64) : Bool := now - deadline < 0xFFFFFFFFFFFFFFFF / 2

def Open.overdue (now : UInt64) (request : Open) : Bool :=
  request.outcome.isNone && expired now request.deadline

namespace Desk

/-- Time out what is overdue. -/
def checkTimeouts (now : UInt64) (desk : Desk) : Desk :=
  { desk with
    opened := desk.opened.map fun request =>
      if request.overdue now then { request with outcome := some .timedOut }
      else request
    audit := desk.audit ++ (desk.opened.filter (Open.overdue now)).map
      fun request => .timeout request.id request.ttl }

def outcome (desk : Desk) (id : UInt32) : Option Outcome :=
  (desk.opened.find? fun request => request.id == id).bind Open.outcome

/-- Forget a request; the second component is the notice to the gateway. -/
def close (desk : Desk) (id : UInt32) : Desk × Option Bytes :=
  ({ desk with opened := desk.opened.eraseP fun request => request.id == id },
    (desk.opened.find? fun request => request.id == id).map fun request =>
      encodeResolved id (outcomeCode request.outcome))

/-- Receive what has arrived on the link, then deny what is overdue.  The
messages that are not approval messages concern the tools. -/
def pump (messages : List Bytes) (now : UInt64) (desk : Desk) : Desk :=
  ((messages.filter isApproval).foldl (onMessage setting) desk).checkTimeouts now

end Desk

/-! ## Runs -/

/-- A call, with what its surroundings contribute.  The clock at which a
message is received is not read by the kernel. -/
inductive Call where
  | openRequest (surroundings : Surroundings) (demand : Demand)
  | onMessage (now : UInt64) (message : Bytes)
  | checkTimeouts (now : UInt64)
  | outcome (id : UInt32)
  | close (id : UInt32)
  deriving DecidableEq

/-- One call. -/
def step (desk : Desk) : Call → Desk
  | .openRequest surroundings demand =>
    (desk.openRequest setting surroundings demand).1
  | .onMessage _ message => desk.onMessage setting message
  | .checkTimeouts now => desk.checkTimeouts now
  | .outcome _ => desk
  | .close id => (desk.close id).1

/-- A decision by a pinned operator whose signature verifies for the request it
names. -/
structure ValidFor (decision : Decision) (request : Open) : Prop where
  addressed : request.id = decision.id
  signed : ∃ operator, setting.operators.find decision.operator = some operator ∧
      verifies setting operator request decision

/-- A valid vote on an undecided request, by an operator not yet counted. -/
structure Counts (decision : Decision)
    (request : Open) : Prop extends ValidFor setting decision request where
  undecided : request.outcome = none
  fresh : decision.operator ∉ request.approvals

end

theorem awaits_iff (decision : Decision) (request : Open) : awaits decision request ↔
      request.id = decision.id ∧ request.outcome = none := by
  simp [awaits]

namespace Desk

variable {setting : Setting} (desk : Desk)

@[simp] theorem next_onDecision (decision : Decision) :
    (desk.onDecision setting decision).next = desk.next := by
  simp only [onDecision]
  repeat' split
  all_goals rfl

@[simp] theorem next_onMessage (message : Bytes) :
    (desk.onMessage setting message).next = desk.next := by
  simp only [onMessage]
  split
  · rfl
  · exact next_onDecision _ _

/-- A decision changes nothing, or it counts for the first entry it can be
checked against. -/
theorem opened_onDecision (decision : Decision) :
    (desk.onDecision setting decision).opened = desk.opened ∨ ∃ early request late,
        desk.opened = early ++ request :: late ∧ Counts setting decision request ∧
            (desk.onDecision setting decision).opened = early ++ request.vote decision :: late := by
  simp only [onDecision]
  split
  · exact .inl rfl
  rename_i operator pinned
  split
  · exact .inl rfl
  rename_i request found
  split
  · exact .inl rfl
  rename_i verified
  split
  · exact .inl rfl
  rename_i counted
  right
  obtain ⟨early, late, opened, replaced⟩ :=
    replaceF_of_find (fun other => other.vote decision) found
  have awaited := (awaits_iff decision request).mp (List.find?_some found)
  refine ⟨early, request, late, opened, ?_, replaced⟩
  exact
    { addressed := awaited.1
      signed := ⟨operator, pinned, by simpa using verified⟩
      undecided := awaited.2
      fresh := by simpa using counted }

/-- A message changes nothing in the table, or it completes a decision that
counts. -/
theorem opened_onMessage (message : Bytes) :
    (desk.onMessage setting message).opened = desk.opened ∨ ∃ decision early request late,
        desk.completed message = some decision ∧ desk.opened = early ++ request :: late ∧
            Counts setting decision request ∧ (desk.onMessage setting message).opened =
                early ++ request.vote decision :: late := by
  simp only [onMessage]
  split
  · exact .inl rfl
  rename_i decision completes
  rcases @opened_onDecision setting
    { desk with assembler := desk.assembled message } decision with
    unchanged | ⟨early, request, late, opened, counts, voted⟩
  · exact .inl unchanged
  · exact .inr ⟨decision, early, request, late, completes, opened, counts, voted⟩

/-- Opening a request fails and leaves the table alone, or appends an entry
with the next number. -/
theorem openRequest_cases (surroundings : Surroundings) (demand : Demand) (desk : Desk) :
    (∃ error later, desk.openRequest setting surroundings demand = (later, .error error) ∧
          later.opened = desk.opened ∧ desk.next ≤ later.next) ∨
      ∃ later, desk.openRequest setting surroundings demand =
            (later, .ok (UInt32.ofNat desk.next)) ∧
          later.opened = desk.opened ++ [demand.entry setting desk.next surroundings.now] ∧
          later.next = desk.next + 1 := by
  simp only [openRequest]
  repeat' split
  · exact .inl ⟨_, _, rfl, rfl, le_rfl⟩
  · exact .inl ⟨_, _, rfl, rfl, le_rfl⟩
  · exact .inl ⟨_, _, rfl, rfl, Nat.le_succ _⟩
  · exact .inl ⟨_, _, rfl, rfl, Nat.le_succ _⟩
  · exact .inr ⟨_, rfl, rfl, rfl⟩

end Desk

/-- What a call can make of an entry that stays in the table. -/
inductive Becomes (setting : Setting) (desk : Desk) : Call → Open → Open → Prop where
  | same {call : Call} {request : Open} : Becomes setting desk call request request
  | voted {now : UInt64} {message : Bytes} {decision : Decision} {request : Open} :
      desk.completed message = some decision → Counts setting decision request →
      Becomes setting desk (.onMessage now message) request (request.vote decision)
  | timedOut {now : UInt64} {request : Open} : request.overdue now →
      Becomes setting desk (.checkTimeouts now) request { request with outcome := some .timedOut }

/-- The table after a call, entry by entry. -/
theorem step_cases (setting : Setting) (desk : Desk) (call : Call) : (∃ kept,
        kept.Sublist desk.opened ∧ List.Forall₂ (Becomes setting desk call) kept
            (step setting desk call).opened ∧
          desk.next ≤ (step setting desk call).next) ∨
      ∃ surroundings demand, call = .openRequest surroundings demand ∧
          (step setting desk call).opened =
            desk.opened ++ [demand.entry setting desk.next surroundings.now] ∧
          (step setting desk call).next = desk.next + 1 := by
  have unchanged (entries : List Open) : List.Forall₂ (Becomes setting desk call) entries entries :=
    List.forall₂_same.mpr fun _ _ => .same
  cases call with
  | openRequest surroundings demand =>
    rcases @Desk.openRequest_cases setting surroundings demand desk with
      ⟨_, later, result, same, next⟩ | ⟨later, result, appended, next⟩
    · refine .inl ⟨desk.opened, List.Sublist.refl _, ?_, ?_⟩
      · simp only [step, result, same]
        exact unchanged _
      · simpa only [step, result] using next
    · refine .inr ⟨surroundings, demand, rfl, ?_, ?_⟩
      · simpa only [step, result] using appended
      · simpa only [step, result] using next
  | onMessage now message =>
    refine .inl ⟨desk.opened, List.Sublist.refl _, ?_, (Desk.next_onMessage desk message).ge⟩
    rcases @Desk.opened_onMessage setting desk message with
      same | ⟨decision, early, request, late, completes, opened, counts, voted⟩
    · simp only [step, same]
      exact unchanged _
    · simp only [step, voted, opened]
      exact List.rel_append (unchanged early) (.cons (.voted completes counts) (unchanged late))
  | checkTimeouts now =>
    refine .inl ⟨desk.opened, List.Sublist.refl _, ?_, le_rfl⟩
    simp only [step, Desk.checkTimeouts, List.forall₂_map_right_iff]
    refine List.forall₂_same.mpr fun request _ => ?_
    split
    · exact .timedOut ‹_›
    · exact .same
  | outcome id => exact .inl ⟨desk.opened, List.Sublist.refl _, unchanged _, le_rfl⟩
  | close id =>
    exact .inl ⟨_, List.eraseP_sublist, unchanged _, le_rfl⟩

namespace Becomes

variable {setting : Setting} {desk : Desk} {call : Call} {old new : Open}

variable (becomes : Becomes setting desk call old new)
include becomes

/-- Only the votes and the outcome of an entry ever change. -/
theorem keeps : { new with approvals := old.approvals, outcome := old.outcome } = old := by
  cases becomes with
  | same => rfl
  | voted _ _ =>
    simp only [Open.vote]
    split <;> rfl
  | timedOut _ => rfl

theorem number_eq : new.number = old.number := by
  have kept := congrArg Open.number becomes.keeps
  exact kept

theorem id_eq : new.id = old.id := by
  rw [Open.id, becomes.number_eq, Open.id]

theorem undecided (undecided : new.outcome = none) : old.outcome = none := by
  cases becomes with
  | same => exact undecided
  | voted _ counts => exact counts.undecided
  | timedOut _ => cases undecided

/-- A decided request does not change any more. -/
theorem eq_of_decided (decided : old.outcome = some outcome) : new = old := by
  cases becomes with
  | same => rfl
  | voted _ counts => cases decided.symm.trans counts.undecided
  | timedOut overdue => simp [Open.overdue, decided] at overdue

end Becomes

/-- Where an entry of the table comes from. -/
theorem mem_step (present : new ∈ (step setting desk call).opened) :
    (∃ old ∈ desk.opened, Becomes setting desk call old new) ∨ ∃ surroundings demand,
        call = .openRequest surroundings demand ∧
          new = demand.entry setting desk.next surroundings.now := by
  rcases step_cases setting desk call with
    ⟨kept, sublist, related, _⟩ | ⟨surroundings, demand, called, opened, _⟩
  · obtain ⟨old, found, becomes⟩ := exists_of_mem related present
    exact .inl ⟨old, sublist.subset found, becomes⟩
  · rw [opened] at present
    rcases List.mem_append.mp present with earlier | fresh
    · exact .inl ⟨new, earlier, .same⟩
    · exact .inr ⟨surroundings, demand, called, List.mem_singleton.mp fresh⟩

theorem numbers_step (setting : Setting) (desk : Desk)
    (opensNot : ∀ surroundings demand, call ≠ .openRequest surroundings demand)
    (closesNot : ∀ id, call ≠ .close id) :
    (step setting desk call).opened.map Open.number = desk.opened.map Open.number := by
  cases call with
  | openRequest surroundings demand => exact absurd rfl (opensNot _ _)
  | onMessage now message =>
    rcases @Desk.opened_onMessage setting desk message with
      same | ⟨decision, early, request, late, completes, opened, counts, voted⟩
    · simp only [step, same]
    · have kept : (request.vote decision).number = request.number :=
        (@Becomes.voted _ _ now _ _ _ completes counts).number_eq
      simp only [step, voted, opened, List.map_append, List.map_cons, kept]
  | checkTimeouts now =>
    simp only [step, Desk.checkTimeouts, List.map_map]
    refine List.map_congr_left fun request _ => ?_
    simp only [Function.comp_apply]
    split <;> rfl
  | outcome id => rfl
  | close id => exact absurd rfl (closesNot id)

theorem next_le_step (setting : Setting) (desk : Desk) (call : Call) :
    desk.next ≤ (step setting desk call).next := by
  rcases step_cases setting desk call with
    ⟨_, _, _, next⟩ | ⟨_, _, _, _, next⟩
  · exact next
  · exact next.symm ▸ Nat.le_succ _

/-- The entries are in the order of their numbers, and the next number is
free. -/
structure Numbered (desk : Desk) : Prop where
  increasing : (desk.opened.map Open.number).Pairwise (· < ·)
  below : ∀ request ∈ desk.opened, request.number < desk.next

namespace Numbered

theorem boot : Numbered .boot :=
  ⟨List.Pairwise.nil, nofun⟩

theorem shrink (numbered : Numbered desk)
    (numbers : (later.opened.map Open.number).Sublist (desk.opened.map Open.number))
    (next : desk.next ≤ later.next) :
    Numbered later := by
  refine ⟨numbered.increasing.sublist numbers, ?_⟩
  intro entry present
  obtain ⟨old, found, same⟩ := List.mem_map.mp (numbers.subset (List.mem_map_of_mem present))
  rw [← same]
  exact (numbered.below old found).trans_le next

theorem extend (numbered : Numbered desk) (number : entry.number = desk.next)
    (appended : later.opened = desk.opened ++ [entry]) (next : later.next = desk.next + 1) :
    Numbered later := by
  constructor
  · rw [appended, List.map_append, List.pairwise_append]
    refine ⟨numbered.increasing, List.pairwise_singleton _ _, ?_⟩
    intro earlier known last isLast
    obtain ⟨other, present, rfl⟩ := List.mem_map.mp known
    rw [List.map_singleton, List.mem_singleton] at isLast
    rw [isLast, number]
    exact numbered.below other present
  · intro other present
    rw [appended] at present
    rw [next]
    rcases List.mem_append.mp present with earlier | last
    · exact (numbered.below other earlier).trans (Nat.lt_succ_self _)
    · rw [List.mem_singleton.mp last, number]
      exact Nat.lt_succ_self _

theorem step (setting : Setting) {desk : Desk} (numbered : Numbered desk) (call : Call) :
    Numbered (Approvals.step setting desk call) := by
  rcases step_cases setting desk call with
    ⟨kept, sublist, related, next⟩ | ⟨surroundings, demand, _, opened, next⟩
  · have numbers : (Approvals.step setting desk call).opened.map Open.number =
        kept.map Open.number :=
      map_eq_of_related (fun _ _ becomes => becomes.number_eq) related
    exact numbered.shrink (numbers ▸ sublist.map _) next
  · exact numbered.extend rfl opened next

theorem after (setting : Setting) (calls : List Call) :
    Numbered (Run.after (Approvals.step setting) .boot calls) :=
  Run.always calls boot fun _ call numbered => numbered.step setting call

theorem eq_of_number (numbered : Numbered desk) (leftPresent : left ∈ desk.opened)
    (rightPresent : right ∈ desk.opened) (same : left.number = right.number) :
    left = right :=
  List.inj_on_of_nodup_map
    (numbered.increasing.imp fun smaller => Nat.ne_of_lt smaller)
    leftPresent rightPresent same

end Numbered

end Cdk.Approvals

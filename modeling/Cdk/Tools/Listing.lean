import Cdk.Policy.Review

/-!
# The review of the gateway's listing

Each entry of a listing either agrees with what is pinned for its kind, and is
confirmed for the current session, or it is pending.  Pending entries are
pinned only after a review.  Nothing is taken away from an entry whose change
is not approved: a kind is blocked only because its last confirmation was in
another session.
-/

namespace Cdk.Tools

open ByteFormat BoundedText Link Agent Policy Run FirstMatch

/-! ## Confirming and pinning -/

namespace Manifest

/-- Replace an entry. -/
def put (manifest : Manifest) (new : Pinned) : Manifest where
  items := manifest.items.replaceF fun old =>
    if old.kind.text == new.kind.text then some new else none
  fits := by rw [List.length_replaceF]; exact manifest.fits

/-- The entry is pinned as it is listed. -/
def unchanged (manifest : Manifest) (entry : Listed) : Bool :=
  (Manifest.pinned manifest entry.kind.text).any fun pinned =>
    pinned.flags == entry.flags && pinned.endpoint == entry.endpoint

/-- Confirm an entry, or keep it for review. -/
def confirmEntry (epoch : UInt32) (state : Manifest × List Listed)
    (entry : Listed) : Manifest × List Listed :=
  match Manifest.pinned state.1 entry.kind.text with
  | some pinned =>
    if pinned.flags = entry.flags ∧ pinned.endpoint = entry.endpoint then
      (put state.1 { pinned with epoch }, state.2)
    else (state.1, state.2 ++ [entry])
  | none => (state.1, state.2 ++ [entry])

def confirmListing (epoch : UInt32) (manifest : Manifest) (listed : List Listed) :
    Manifest × List Listed :=
  listed.foldl (confirmEntry epoch) (manifest, [])

/-- Pin a reviewed entry. -/
def pin (epoch : UInt32) (manifest : Manifest) (entry : Listed) : Manifest :=
  match Manifest.pinned manifest entry.kind.text with
  | some pinned =>
    put manifest { pinned with flags := entry.flags, endpoint := entry.endpoint, epoch }
  | none =>
    (manifest.push? ⟨entry.kind, entry.flags, entry.endpoint, epoch⟩).getD manifest

end Manifest

/-! ## The review -/

/-- A handle without what the manifest says about its object. -/
structure Holding where
  pid : UInt32
  object : Str 16
  kind : Str 32
  mask : UInt64
  deriving DecidableEq

/-- A handle as the policy sees it with some flags. -/
def Holding.seen (holding : Holding) (flags : UInt8) : Grant :=
  ⟨holding.pid, holding.object, holding.kind, flags, holding.mask⟩

/-- All handles as the policy sees them with a manifest. -/
def grantsUnder (manifest : Manifest) (holdings : List Holding) : List Grant :=
  holdings.map fun holding =>
    holding.seen (pinnedFlags manifest holding.kind.text)

/-- A grant with the listed flags. -/
def relisted (pending : List Listed) (grant : Grant) : Grant :=
  match pending.find? fun entry => entry.kind == grant.kind with
  | some entry => { grant with flags := entry.flags }
  | none => grant

def flagNames (flags : UInt8) : Bytes :=
  let shown := flags &&& (flagCredential ||| flagRemote)
  if shown = 0 then ascii "-"
  else if shown = flagCredential then ascii "credential"
  else if shown = flagRemote then ascii "remote"
  else ascii "credential,remote"

/-- The line of a pending entry up to its labels. -/
def listingHead (old : Option Pinned) (entry : Listed) : List Bytes :=
  match old with
  | none =>
    [ascii "+ new ", entry.kind.text, ascii " via ", entry.endpoint.text, ascii " ["]
  | some pinned =>
    [ascii "~ CHANGED ", entry.kind.text, ascii ": endpoint ",
      pinned.endpoint.text, ascii " -> ", entry.endpoint.text, ascii ", flags ",
      flagNames pinned.flags, ascii " -> ", flagNames entry.flags, ascii " ["]

/-- The line of a pending entry.  Each label is written by itself, so that a
label may follow one that did not fit. -/
def listingLine (policy : Policy) (manifest : Manifest) (entry : Listed) : Bytes :=
  let head := writePieces 256 [] (listingHead (Manifest.pinned manifest entry.kind.text) entry)
  let labels := policy.labelsOf [] entry.kind.text entry.flags
  let labelled := labels.zipIdx.foldl
    (fun line label =>
      writePieces 256 line [if label.2 > 0 then ascii "," else [], label.1])
    head
  pushStr 256 labelled (ascii "]")

def listingText (policy : Policy) (manifest : Manifest) (pending : List Listed) : Bytes :=
  pending.flatMap fun entry => listingLine policy manifest entry ++ ascii "\n"

/-- The decision on a listing. -/
inductive ListingVerdict where
  | unchanged
  | broken
  | violation
  | declined
  | applied
  deriving DecidableEq

/-- What a review of a listing reads besides the manifest. -/
structure ListingReview where
  policy : Policy
  broken : Bool
  holdings : List Holding
  listed : BoundedVec Listed 16
  asking : Policy.Asking

/-- Check and ask for a listing. -/
def listingVerdict (review : ListingReview) (manifest : Manifest)
    (pending : List Listed) : ListingVerdict :=
  let before := grantsUnder manifest review.holdings
  let after := before.map (relisted pending)
  let old := review.policy.violations before
  let fresh := (review.policy.violations after).filter fun violation =>
    !old.contains violation
  if pending.isEmpty then .unchanged
  else if review.broken then .broken
  else if !fresh.isEmpty then .violation
  else if !confirm (listingText review.policy manifest pending) review.asking then
    .declined
  else .applied

/-- Review a listing. -/
def reviewListing (epoch : UInt32) (manifest : Manifest) (review : ListingReview) :
    Manifest × ListingVerdict :=
  let confirmed := Manifest.confirmListing epoch manifest review.listed.items
  let verdict := listingVerdict review confirmed.1 confirmed.2
  match verdict with
  | .applied => (confirmed.2.foldl (Manifest.pin epoch) confirmed.1, verdict)
  | _ => (confirmed.1, verdict)

/-! ## What confirming and pinning do -/

namespace Manifest

def terms (manifest : Manifest) (kind : Bytes) : Option (UInt8 × Endpoint) :=
  (Manifest.pinned manifest kind).map fun pinned => (pinned.flags, pinned.endpoint)

theorem unchanged_iff (manifest : Manifest) (entry : Listed) : unchanged manifest entry ↔
    terms manifest entry.kind.text = some (entry.flags, entry.endpoint) := by
  unfold unchanged terms
  cases Manifest.pinned manifest entry.kind.text with
  | none | some pinned => simp

variable {manifest : Manifest} {kind : Bytes}

theorem kind_of_pinned {pinned : Pinned} (found : Manifest.pinned manifest kind = some pinned) :
    pinned.kind.text = kind := by
  simpa using List.find?_some found

theorem pinned_put_self (new : Pinned) (found : Manifest.pinned manifest new.kind.text = some old) :
    Manifest.pinned (put manifest new) new.kind.text = some new :=
  find_replaceF_self found (beq_self_eq_true _)

theorem pinned_put_other (manifest : Manifest) (new : Pinned) (other : new.kind.text ≠ kind) :
    Manifest.pinned (put manifest new) kind = Manifest.pinned manifest kind := by
  refine find_replaceF_other ?_ (beq_false_of_ne other)
  intro pinned same
  rw [beq_iff_eq] at same
  rw [same]
  exact beq_false_of_ne other

/-- An entry that is put in place for the current session makes its kind
callable, and no other. -/
theorem verified_put {old : Pinned} (new : Pinned)
    (found : Manifest.pinned manifest new.kind.text = some old) (kind : Bytes) :
    verified (put manifest new) new.epoch kind = (verified manifest new.epoch kind ||
        (new.kind.text == kind && new.epoch != 0)) := by
  obtain ⟨early, late, before, after⟩ := replaceF_of_find (fun _ => new) found
  have sameKind := kind_of_pinned found
  unfold verified
  rw [before]
  change (List.replaceF _ _).any _ = _
  rw [after]
  simp only [List.any_append, List.any_cons, sameKind, beq_self_eq_true, Bool.and_true]
  cases new.kind.text == kind <;> cases new.epoch != 0 <;> simp

variable (epoch : UInt32)

theorem confirmEntry_cases (manifest : Manifest) (pending : List Listed) (entry : Listed) :
    (unchanged manifest entry ∧
        ∃ pinned, Manifest.pinned manifest entry.kind.text = some pinned ∧
          confirmEntry epoch (manifest, pending) entry =
            (put manifest { pinned with epoch }, pending)) ∨
      unchanged manifest entry = false ∧ confirmEntry epoch (manifest, pending) entry =
          (manifest, pending ++ [entry]) := by
  unfold unchanged confirmEntry
  cases found : Manifest.pinned manifest entry.kind.text with
  | none => exact .inr ⟨rfl, rfl⟩
  | some pinned =>
    by_cases same : pinned.flags = entry.flags ∧ pinned.endpoint = entry.endpoint
    · refine .inl ⟨by simp [same], pinned, rfl, ?_⟩
      simp only [if_pos same]
    · refine .inr ⟨by simpa using same, ?_⟩
      simp only [if_neg same]

/-- Confirming changes only when an entry was last confirmed. -/
theorem terms_put_epoch {pinned : Pinned}
    (found : Manifest.pinned manifest kind = some pinned) (epoch : UInt32) :
    terms (put manifest { pinned with epoch }) = terms manifest := by
  have sameKind := kind_of_pinned found
  subst sameKind
  funext other
  unfold terms
  by_cases same : pinned.kind.text = other
  · subst same
    have confirmed := pinned_put_self { pinned with epoch } found
    rw [found, confirmed]
    rfl
  · rw [pinned_put_other manifest { pinned with epoch } same]

variable (manifest : Manifest)

/-- What confirming a listing does: the pinned terms stay, the entries that
differ from them are pending, and the kinds of the others are callable. -/
theorem confirmListing_spec (listed : List Listed) :
    terms (confirmListing epoch manifest listed).1 = terms manifest ∧
      (confirmListing epoch manifest listed).2 =
        listed.filter (fun entry => !unchanged manifest entry) ∧
      ∀ kind, verified (confirmListing epoch manifest listed).1 epoch kind =
        (verified manifest epoch kind || (listed.any fun entry =>
          entry.kind.text == kind && unchanged manifest entry) && epoch != 0) := by
  induction listed using List.reverseRecOn with
  | nil => simp [confirmListing]
  | append_singleton early entry ih =>
    rw [show confirmListing epoch manifest (early ++ [entry]) = confirmEntry epoch
      (confirmListing epoch manifest early) entry from List.foldl_append ..]
    generalize confirmListing epoch manifest early = state at ih ⊢
    obtain ⟨current, pending⟩ := state
    obtain ⟨same, rfl, callable⟩ := ih
    have agrees : unchanged current entry = unchanged manifest entry := by
      rw [Bool.eq_iff_iff, unchanged_iff, unchanged_iff]
      exact iff_of_eq (congrArg (· = _) (congrFun same _))
    rcases confirmEntry_cases epoch current _ entry with
      ⟨isSame, pinned, found, confirmed⟩ | ⟨differs, kept⟩
    · rw [agrees] at isSame
      have kindOf := kind_of_pinned found
      rw [confirmed]
      refine ⟨(terms_put_epoch found epoch).trans same, by simp [isSame], fun kind => ?_⟩
      have put := verified_put { pinned with epoch } (kindOf ▸ found) kind
      simp only [put, callable, kindOf, List.any_append, List.any_cons, List.any_nil, isSame]
      cases verified manifest epoch kind <;> cases entry.kind.text == kind <;> simp
    · rw [agrees] at differs
      rw [kept]
      exact ⟨same, by simp [differs], fun kind => by simp [callable, differs]⟩

theorem verified_pin_other {entry : Listed} (other : entry.kind.text ≠ kind) :
    verified (pin epoch manifest entry) epoch kind = verified manifest epoch kind := by
  unfold pin
  cases found : Manifest.pinned manifest entry.kind.text with
  | some pinned =>
    have kindOf := kind_of_pinned found
    have put := verified_put { pinned with flags := entry.flags, endpoint := entry.endpoint, epoch }
      (kindOf ▸ found) kind
    simp only [put, kindOf, beq_false_of_ne other, Bool.false_and, Bool.or_false]
  | none =>
    cases pushed : manifest.push? ⟨entry.kind, entry.flags, entry.endpoint, epoch⟩ with
    | none => rfl
    | some longer =>
      have items := (BoundedVec.push?_eq_some_iff.mp pushed).2
      simp only [Option.getD_some, verified, items, List.any_append, List.any_cons,
        beq_false_of_ne other, Bool.false_and, List.any_nil, Bool.or_false]

theorem verified_pins_other {pending : List Listed}
    (others : ∀ entry ∈ pending, entry.kind.text ≠ kind) :
    verified (pending.foldl (pin epoch) manifest) epoch kind = verified manifest epoch kind := by
  induction pending generalizing manifest with
  | nil => rfl
  | cons entry rest ih =>
    rw [List.forall_mem_cons] at others
    rw [List.foldl_cons, ih _ others.2, verified_pin_other epoch manifest others.1]

end Manifest

open Manifest

/-! ## Sessions and reviews -/

/-- The manifest, and the number of the current session. -/
structure ToolDesk where
  manifest : Manifest
  epoch : UInt32
  deriving DecidableEq

def ToolDesk.boot : ToolDesk := ⟨.empty, 0⟩

/-- What happens to the manifest. -/
inductive ToolMove where
  | connect
  | review (review : ListingReview)

namespace ToolDesk

variable (desk : ToolDesk)

/-- One step. -/
def step : ToolMove → ToolDesk
  | .connect => { desk with epoch := desk.epoch + 1 }
  | .review review =>
    { desk with manifest := (reviewListing desk.epoch desk.manifest review).1 }

/-- Calls to a kind are let through. -/
def callable (kind : Bytes) : Bool := verified desk.manifest desk.epoch kind

def verdict (review : ListingReview) : ListingVerdict :=
  (reviewListing desk.epoch desk.manifest review).2

/-- The review has an entry for the kind that is not listed as pinned, and is
not approved. -/
def Refuses (review : ListingReview) (kind : Bytes) : Prop :=
  desk.verdict review ≠ .applied ∧ ∃ entry ∈ review.listed.items, entry.kind.text = kind ∧
      unchanged desk.manifest entry = false

/-- The review has an entry for the kind that is listed as pinned, or that it
approves. -/
def Restores (kind : Bytes) (desk : ToolDesk) : ToolMove → Prop
  | .connect => False
  | .review review =>
    ∃ entry ∈ review.listed.items, entry.kind.text = kind ∧
      (unchanged desk.manifest entry ∨ desk.verdict review = .applied)

instance (review : ListingReview) (kind : Bytes) : Decidable (desk.Refuses review kind) :=
  inferInstanceAs (Decidable (_ ∧ _))

instance (kind : Bytes) (desk : ToolDesk) (move : ToolMove) :
    Decidable (Restores kind desk move) := by
  cases move <;> unfold Restores <;> infer_instance

theorem callable_review (review : ListingReview) (kind : Bytes)
    (unapproved : ∀ entry ∈ review.listed.items, entry.kind.text = kind →
      desk.verdict review ≠ .applied) : (desk.step (.review review)).callable kind =
      (desk.callable kind || (review.listed.items.any fun entry =>
        entry.kind.text == kind && unchanged desk.manifest entry) && desk.epoch != 0) := by
  obtain ⟨-, pending, confirmed⟩ := confirmListing_spec desk.epoch desk.manifest review.listed.items
  rw [callable, callable, ← confirmed]
  simp only [step, verdict, reviewListing] at unapproved ⊢
  split
  · rename_i approved
    refine verified_pins_other _ _ ?_
    intro entry listed same
    rw [pending] at listed
    refine unapproved entry (List.mem_of_mem_filter listed) same ?_
    simp only [approved]
  · rfl

variable {desk} {kind : Bytes}

/-- After a review that refuses a kind, calls to it are blocked exactly if they
were blocked before and no other entry of the kind is listed as pinned. -/
theorem callable_refused_iff (session : desk.epoch ≠ 0) (refused : desk.Refuses review kind) :
    (desk.step (.review review)).callable kind = false ↔
      desk.callable kind = false ∧ ∀ entry ∈ review.listed.items,
        entry.kind.text = kind → unchanged desk.manifest entry = false := by
  rw [callable_review desk review kind fun _ _ _ => refused.1]
  simp only [Bool.or_eq_false_iff, Bool.and_eq_false_iff, List.any_eq_false,
    bne_eq_false_iff_eq, session, or_false, Bool.and_eq_true, beq_iff_eq, not_and,
    Bool.not_eq_true]

/-- A session has a number of its own, and what is refused was not confirmed in
the same session. -/
def Distinct (desk : ToolDesk) : ToolMove → Prop
  | .connect => ∀ pinned ∈ desk.manifest.items, pinned.epoch ≠ desk.epoch + 1
  | .review review =>
    ∀ entry ∈ review.listed.items, desk.verdict review ≠ .applied →
      unchanged desk.manifest entry = false →
      desk.callable entry.kind.text = false ∧
        ∀ other ∈ review.listed.items, other.kind.text = entry.kind.text →
          unchanged desk.manifest other = false

instance (desk : ToolDesk) (move : ToolMove) : Decidable (desk.Distinct move) := by
  cases move <;> unfold Distinct <;> infer_instance

theorem blocked_after_refusal (distinct : desk.Distinct (.review review))
    (refused : desk.Refuses review kind) : (desk.step (.review review)).callable kind = false := by
  obtain ⟨unapproved, entry, listed, rfl, differs⟩ := refused
  obtain ⟨blocked, others⟩ := distinct entry listed unapproved differs
  rw [callable_review desk review _ fun _ _ _ => unapproved, blocked, Bool.false_or,
    Bool.and_eq_false_iff, List.any_eq_false]
  refine .inl ?_
  intro other otherListed
  rw [Bool.and_eq_true, beq_iff_eq, not_and, Bool.not_eq_true]
  exact others other otherListed

theorem blocked_step (distinct : desk.Distinct move) (notRestored : ¬Restores kind desk move)
    (blocked : desk.callable kind = false) : (desk.step move).callable kind = false := by
  cases move with
  | connect =>
    simp only [callable, step, verified, List.any_eq_false, Bool.and_eq_true, beq_iff_eq]
    rintro pinned present ⟨⟨-, number⟩, -⟩
    exact distinct pinned present number
  | review review =>
    simp only [Restores, not_exists, not_and, not_or] at notRestored
    rw [callable_review desk review kind fun entry listed same =>
      (notRestored entry listed same).2]
    rw [blocked, Bool.false_or, Bool.and_eq_false_iff, List.any_eq_false]
    refine .inl ?_
    intro entry listed
    rw [Bool.and_eq_true, beq_iff_eq, not_and]
    exact fun same => (notRestored entry listed same).1

theorem blocked_run (distinct : Run.Along step Distinct desk moves)
    (notRestored : Run.Along step (fun desk move => ¬Restores kind desk move) desk moves)
    (blocked : desk.callable kind = false) : (after step desk moves).callable kind = false := by
  induction moves generalizing desk with
  | nil => exact blocked
  | cons move rest ih =>
    exact ih distinct.2 notRestored.2 (blocked_step distinct.1 notRestored.1 blocked)

end ToolDesk

open ToolDesk

/-- A call that fails only because its tool is not reviewed fails with
`EPOLICY`. -/
theorem sysToolCall_unreviewed (unreviewed : lookup.reviewed = false)
    (otherwise : ∃ passed, checkTool { lookup with reviewed := true } = .ok passed)
    (setting : Approvals.Setting) (handle : UInt64) (asking : Agent.Asking) (answer : Answer)
    (agents : Agents) : sysToolCall setting handle lookup asking answer agents =
      (agents, .value (err EPOLICY)) := by
  have refused : checkTool lookup = .error EPOLICY := by
    obtain ⟨passed, passes⟩ := otherwise
    simp only [checkTool, bind, Except.bind] at passes ⊢
    -- Every other check lets the call through.
    repeat' split at passes
    all_goals try contradiction
    rename_i _ _ _ small readable writable _ _ _ verified _ _ _ execute secure _ _ _ _
    simp only [if_neg small, if_neg readable, if_neg writable, if_neg verified,
      if_neg execute, if_neg secure, unreviewed, Bool.not_false, if_true]
  simp only [sysToolCall, refused]

/-- Unreviewed listings stay blocked.  After a review that refuses a kind, calls
to it are blocked exactly if they were blocked before and the same listing has
no entry for the kind as it is pinned.  In a run in which that is so at every
refusal, and in which every session has a number that is not in the manifest
yet, a refused kind stays blocked until a review restores it, and calls to its
tools return `EPOLICY`. -/
theorem unreviewed_listings_stay_blocked
    (kind : Bytes)
    (review : ListingReview) :
    (∀ desk : ToolDesk, desk.epoch ≠ 0 → desk.Refuses review kind →
      ((desk.step (.review review)).callable kind = false ↔
        desk.callable kind = false ∧ ∀ entry ∈ review.listed.items, entry.kind.text = kind →
            unchanged desk.manifest entry = false)) ∧
    ∀ (first : ToolDesk) (early late : List ToolMove),
      Run.Along step ToolDesk.Distinct first (early ++ .review review :: late) →
      (after step first early).Refuses review kind →
      Run.Along step (fun desk move => ¬ToolDesk.Restores kind desk move)
        (after step first (early ++ [.review review])) late →
      (after step first (early ++ .review review :: late)).callable kind = false ∧
        ∀ lookup : ToolLookup, lookup.reviewed = (after step first
            (early ++ .review review :: late)).callable kind →
          (∃ passed, checkTool { lookup with reviewed := true } = .ok passed) →
          ∀ setting handle asking answer agents,
            sysToolCall setting handle lookup asking answer agents =
              (agents, .value (err EPOLICY)) := by
  constructor
  · intro desk session refused
    exact callable_refused_iff session refused
  intro first early late distinct refused notRestored
  rw [along_append] at distinct
  have blocked : (after step first (early ++ .review review :: late)).callable kind = false := by
    rw [after_append, after_cons]
    rw [after_append, after_cons, after_nil] at notRestored
    exact blocked_run distinct.2.2 notRestored (blocked_after_refusal distinct.2.1 refused)
  refine ⟨blocked, ?_⟩
  intro lookup reviewed otherwise setting handle asking answer agents
  exact sysToolCall_unreviewed (reviewed.trans blocked) otherwise setting handle
    asking answer agents

def listedTool (flags : UInt8) : Listed :=
  ⟨⟨ascii "tool:search", by decide⟩, flags, ⟨ascii "10.0.0.2:80", by decide⟩⟩

/-- A listing of one tool with the given flags, while no process has a
handle. -/
def toolReview (flags : List UInt8) (short : flags.length ≤ 16) (answer : Bool) :
    ListingReview where
  policy := ⟨.empty, .empty, .empty⟩
  broken := false
  holdings := []
  listed := ⟨flags.map listedTool, by rwa [List.length_map]⟩
  asking := .console answer

def approvedOnce : List ToolMove := [.connect, .review (toolReview [0] (by decide) true)]

/-- Two refused changes that do not block: the tool gains a credential in the
session in which it was approved; and in a later session, in which the listing
has it both as it was and with a credential. -/
theorem refused_listing_stays_callable : (after step .boot approvedOnce).Refuses
        (toolReview [1] (by decide) false) (ascii "tool:search") ∧
    (after step .boot (approvedOnce ++
      [.review (toolReview [1] (by decide) false)])).callable (ascii "tool:search") ∧
    (after step .boot (approvedOnce ++ [.connect])).Refuses
        (toolReview [0, 1] (by decide) false) (ascii "tool:search") ∧
    (after step .boot (approvedOnce ++ [.connect,
      .review (toolReview [0, 1] (by decide) false)])).callable (ascii "tool:search") := by
  decide +kernel

/-- The same change in the next session does block, until the end of that
session and in the one after it. -/
theorem unreviewed_listing_blocked_in_next_session :
    (after step .boot (approvedOnce ++ [.connect] ++
      .review (toolReview [1] (by decide) false) :: [.connect])).callable
        (ascii "tool:search") = false :=
  ((unreviewed_listings_stay_blocked (ascii "tool:search")
    (toolReview [1] (by decide) false)).2 .boot (approvedOnce ++ [.connect])
    [.connect] (by decide +kernel) (by decide +kernel) (by decide +kernel)).1

end Cdk.Tools

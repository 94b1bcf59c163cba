import Cdk.Agent.Describe
import Cdk.Policy.Rules
import Cdk.Tools.Manifest

/-!
# The review of grants

Before a batch of grants is applied, the operator is shown what each process
gains, one line for each process and object, and the text of these lines is
what operators sign.  A line is written into a buffer of 256 bytes and stops
where the next piece does not fit.
-/

namespace Cdk.Policy

open ByteFormat BoundedText Delimited Link Agent Tools

/-! ## Reach diffs -/

/-- What a process gains on an object. -/
structure Change where
  pid : UInt32
  object : Str 16
  kind : Str 32
  flags : UInt8
  /-- Permissions that were not held on the object before. -/
  added : UInt64
  /-- The process has no handle that acts on the object freely. -/
  gated : Bool
  deriving DecidableEq

def Grant.isFor (pid : UInt32) (object : Str 16) (grant : Grant) : Bool :=
  grant.pid == pid && grant.object == object

def union (grants : List Grant) (pid : UInt32) (object : Str 16) : UInt64 :=
  (grants.filter (Grant.isFor pid object)).foldl (fun mask grant => mask ||| grant.mask) 0

def ungated (grants : List Grant) (pid : UInt32) (object : Str 16) : Bool :=
  grants.any fun grant => grant.isFor pid object && grant.actsFreely

def gained (before after : List Grant) (pid : UInt32) (object : Str 16) : UInt64 :=
  union after pid object &&& ~~~union before pid object &&& ~~~approvalBit

/-- What a grant changes. -/
def changeOf (before after : List Grant) (grant : Grant) : Option Change :=
  let added := gained before after grant.pid grant.object
  let ungatedNow := ungated after grant.pid grant.object
  if added ≠ 0 ∨ ungatedNow ∧ !ungated before grant.pid grant.object then
    some
      { pid := grant.pid
        object := grant.object
        kind := grant.kind
        flags := grant.flags
        added :=
          if added ≠ 0 then added
          else union after grant.pid grant.object &&& effectMask
        gated := !ungatedNow }
  else none

/-- What is granted afterwards beyond what was granted before, for each process
and object. -/
def diff (before after : List Grant) : List Change := after.foldl
    (fun changes grant =>
      if changes.any fun change =>
          change.pid == grant.pid && change.object == grant.object then changes
      else changes ++ (changeOf before after grant).toList) []

/-! ## Rendering -/

/-- What a review reads besides the grants. -/
structure Surroundings where
  policy : Policy
  /-- The boot policy is malformed. -/
  broken : Bool
  manifest : Manifest
  nameOf : UInt32 → Option ProcName

variable (surroundings : Surroundings)

def procName (pid : UInt32) : Bytes :=
  (surroundings.nameOf pid).elim [] fun name => (utf8 name.text).take 16

def labelPieces (labels : List Bytes) : List Bytes :=
  if labels.isEmpty then []
  else ascii " [" :: (labels.intersperse (ascii ",") ++ [ascii "]"])

/-- What a line says at its end. -/
def gateStatus (change : Change) : Bytes :=
  if change.added &&& effectMask = 0 then ascii ", observe only"
  else if change.gated then ascii ", human-gated"
  else ascii ", NOT gated"

def headPieces (verb : Bytes) (change : Change) : List Bytes :=
  [if verb = ascii "gains" then ascii "+ " else [], ascii "pid ",
    decimal change.pid.toNat, ascii " '", procName surroundings change.pid,
    ascii "' ", verb, ascii " ", permissionNames change.added, ascii " on ",
    change.object.text, ascii " (", change.kind.text, ascii ")"]

def tailPieces (change : Change) : List Bytes :=
  ((pinnedEndpoint surroundings.manifest change.kind.text).elim [] fun endpoint =>
    [ascii " via ", endpoint.text]) ++ [gateStatus change]

def pieces (verb : Bytes) (labels : List Bytes) (change : Change) : List Bytes :=
  headPieces surroundings verb change ++ labelPieces labels ++ tailPieces surroundings change

def Change.labels (change : Change) : List Bytes :=
  surroundings.policy.labelsOf change.object.text change.kind.text change.flags

def renderChange (change : Change) : Bytes := writePieces 256 []
    (pieces surroundings (ascii "gains") (change.labels surroundings) change)

def reviewText (before proposed : List Grant) : Bytes :=
  (diff before (before ++ proposed)).flatMap fun change =>
    renderChange surroundings change ++ ascii "\n"

/-- The number with the given big-endian bytes. -/
def beValue (bytes : Bytes) : Nat := bytes.foldl (fun value byte => value * 256 + byte.toNat) 0

def digest (crypto : Crypto) (text : Bytes) : UInt64 :=
  UInt64.ofNat (beValue ((crypto.sha256 text).bytes.take 8))

/-! ## The decision -/

/-- How the operator is asked. -/
inductive Asking where
  /-- Operator keys are pinned; the answer is the outcome of the signed
  request. -/
  | signed (approved : Bool)
  | off
  /-- The answer at the console. -/
  | console (answer : Bool)
  deriving DecidableEq

/-- Ask the operator.  A text that is too long for one signed request is not
approved. -/
def confirm (text : Bytes) : Asking → Bool
  | .signed approved => if text.length ≤ Approval.maxText then approved else false
  | .off => true
  | .console answer => answer

/-- The decision on a change, as it is recorded. -/
inductive Verdict where
  | broken
  | violation
  | declined
  | applied (digest : UInt64)
  deriving DecidableEq

/-- Check and ask for grants. -/
def reviewGrants (crypto : Crypto) (surroundings : Surroundings) (before proposed : List Grant)
    (asking : Asking) : Verdict :=
  if surroundings.broken then .broken
  else
    let policy := surroundings.policy
    let old := policy.violations before
    let fresh := (policy.violations (before ++ proposed)).filter fun violation =>
      !old.contains violation
    let text := reviewText surroundings before proposed
    if !fresh.isEmpty then .violation
    else if !confirm text asking then .declined
    else .applied (digest crypto text)

end Cdk.Policy

import Cdk.Policy.Review

/-!
# Edits of the policy

An edit is tried on a copy of the policy.  It is refused if the present handles
violate the edited policy, whether or not they violate the old one.
-/

namespace Cdk.Policy

open ByteFormat BoundedText Link Agent

/-- A change to the policy itself. -/
inductive Edit where
  | addRule (rule : Rule)
  | removeRule (place : Nat)
  | addLabel (selector label : Bytes)
  | removeLabel (selector label : Bytes)

/-- Why an edit is refused. -/
inductive EditError where
  | policyBroken
  | rulePresent
  | tooManyRules
  | noSuchRule
  | selectorTooLong
  | badLabel
  | labelTooLong
  | labelPresent
  | tooManyLabels
  | noSuchLabel
  | violated
  | declined
  deriving DecidableEq

variable (policy : Policy)

/-- Add a rule. -/
def addRule (rule : Rule) : Except EditError Policy :=
  if policy.rules.items.contains rule then .error .rulePresent
  else match policy.rules.push? rule with
    | none => .error .tooManyRules
    | some rules => .ok { policy with rules }

def removeRule (place : Nat) : Except EditError Policy :=
  if place ≥ policy.rules.items.length then .error .noSuchRule
  else .ok { policy with rules := policy.rules.eraseIdx place }

/-- Add a label. -/
def addOperatorLabel (selector label : Bytes) : Except EditError Policy :=
  match Str.ofBytes? 32 selector with
  | none => .error .selectorTooLong
  | some selector =>
    if valid : validLabel label = true then
      if policy.labels.items.contains (selector, ⟨label, valid⟩) then
        .error .labelPresent
      else match policy.labels.push? (selector, ⟨label, valid⟩) with
        | none => .error .tooManyLabels
        | some labels => .ok { policy with labels }
    else if label.isEmpty || !label.all fun byte =>
        isAsciiAlphanumeric byte || (ascii "-_.:").contains byte then
      .error .badLabel
    else .error .labelTooLong

/-- Remove a label. -/
def removeOperatorLabel (selector label : Bytes) : Except EditError Policy :=
  match policy.labels.items.findIdx? fun entry =>
    entry.1.text == selector && entry.2.text == label with
  | none => .error .noSuchLabel
  | some place => .ok { policy with labels := policy.labels.eraseIdx place }

/-- The edited policy. -/
def candidate : Edit → Except EditError Policy
  | .addRule rule => policy.addRule rule
  | .removeRule place => policy.removeRule place
  | .addLabel selector label => policy.addOperatorLabel selector label
  | .removeLabel selector label => policy.removeOperatorLabel selector label

def Rule.pieces : Rule → List Bytes
  | .deny label => [ascii "deny ", label.text]
  | .separate a b => [ascii "separate ", a.text, ascii " ", b.text]
  | .approval label => [ascii "approval ", label.text]

/-- What the operator is shown, in a line of 96 bytes. -/
def editText : Edit → Bytes
  | .addRule rule => writePieces 96 [] (ascii "+ rule: " :: rule.pieces)
  | .removeRule place =>
    writePieces 96 [] (ascii "- rule: " ::
      ((policy.rules.items[place]?).elim [] Rule.pieces ++ [ascii " (loosens policy)"]))
  | .addLabel selector label =>
    writePieces 96 [] [ascii "+ label: ", selector, ascii " ", label]
  | .removeLabel selector label =>
    writePieces 96 [] [ascii "- label: ", selector, ascii " ", label, ascii " (may loosen policy)"]

variable {policy}

/-- Check and ask for an edit. -/
def edit (surroundings : Surroundings) (grants : List Grant) (edit : Edit)
    (asking : Asking) : Except EditError Policy :=
  if surroundings.broken then .error .policyBroken
  else match surroundings.policy.candidate edit with
    | .error error => .error error
    | .ok candidate =>
      if !(candidate.violations grants).isEmpty then .error .violated
      else if !confirm (editText surroundings.policy edit) asking then
        .error .declined
      else .ok candidate

theorem lawful_of_edit (done : edit surroundings grants change asking = .ok accepted) :
    accepted.Lawful grants := by
  unfold edit at done
  split at done
  · cases done
  split at done
  · cases done
  rename_i candidate _
  split at done
  · cases done
  rename_i lawful
  split at done
  · cases done
  · cases done
    simpa [Lawful] using lawful

/-- An approved batch adds nothing that breaks a rule, if none was broken. -/
theorem lawful_of_reviewGrants {digest : UInt64} (lawful : surroundings.policy.Lawful before)
    (done : reviewGrants crypto surroundings before proposed asking = .applied digest) :
    surroundings.policy.Lawful (before ++ proposed) := by
  simp only [reviewGrants] at done
  split at done
  · cases done
  split at done
  · cases done
  · rename_i noneFresh
    have old : surroundings.policy.violations before = [] := lawful
    rw [old] at noneFresh
    simpa [Lawful] using noneFresh

end Cdk.Policy

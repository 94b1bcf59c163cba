import Mathlib.Data.List.Basic

/-!
# Trees of pointers in a store

A node is a table of words, one for each index; a word is empty or points to a child, and
`follow` walks along a path of indices.  A walk depends only on the words that it reads.
-/

namespace PointerTree

open Function

variable {Address : Type u} {Word : Type v} {Node : Type w} {Index : Type x}

/-- Where the words of a node are, and what a word points to. -/
structure Layout (Address : Type u) (Word : Type v) (Node : Type w) (Index : Type x) where
  locate : Node → Index → Address
  decode : Word → Option Node
  locate_inj : ∀ {node other index place},
    locate node index = locate other place → node = other ∧ index = place

variable (layout : Layout Address Word Node Index)

/-- The node that a path of indices leads to. -/
def follow (store : Address → Word) : Node → List Index → Option Node
  | node, [] => some node
  | node, index :: rest =>
    (layout.decode (store (layout.locate node index))).bind fun child => follow store child rest

variable {layout} {store changed : Address → Word} {node root : Node} {path : List Index}

@[simp]
theorem follow_nil : follow layout store node [] = some node := rfl

theorem follow_cons : follow layout store node (index :: rest) =
    (layout.decode (store (layout.locate node index))).bind fun child =>
      follow layout store child rest := rfl

/-- A walk depends only on the words that it reads. -/
theorem follow_congr (same : ∀ early index late, path = early ++ index :: late → ∀ met,
      follow layout store root early = some met →
        layout.decode (changed (layout.locate met index)) =
          layout.decode (store (layout.locate met index))) :
    follow layout changed root path = follow layout store root path := by
  induction path generalizing root with
  | nil => rfl
  | cons index rest step =>
    rw [follow_cons, follow_cons, same [] index rest rfl root rfl]
    cases child : layout.decode (store (layout.locate root index)) with
    | none => rfl
    | some next =>
      apply step
      intro early place late split met walk
      apply same (index :: early) place late (by rw [split, List.cons_append]) met
      rw [follow_cons, child]
      exact walk

/-! ## Writing one word -/

variable [DecidableEq Address]

theorem follow_relabel (keeps : layout.decode word = layout.decode (store address)) :
    follow layout (update store address word) root path = follow layout store root path := by
  apply follow_congr
  intro early index late _ met _
  by_cases here : layout.locate met index = address
  · rw [here, update_self, keeps]
  · rw [update_of_ne here]

end PointerTree

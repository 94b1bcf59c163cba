import Mathlib.Data.List.Induction

/-!
# Reassembly of what was sent in pieces

An assembler holds the data of one transfer, and every push keeps it, drops it,
begins anew or continues it (`Effect`).  Whatever is pushed, it then holds the
data of the last accepted pieces of one transfer, from offset zero on
(`Gathers`).
-/

namespace Reassembly

/-- A piece of the transfer with a key. -/
structure Piece (Key : Type u) (α : Type v) where
  key : Key
  offset : Nat
  data : List α

/-- Each piece begins where the one before it ends. -/
def Consecutive : Nat → List (Piece Key α) → Prop
  | _, [] => True
  | start, piece :: rest => piece.offset = start ∧ Consecutive (start + piece.data.length) rest

/-- The last accepted pieces belong to one transfer and hold its data from the start. -/
def Gathers (accepted : List (Piece Key α)) (key : Key) (data : List α) : Prop :=
  ∃ earlier pieces, accepted = earlier ++ pieces ∧ (∀ piece ∈ pieces, piece.key = key) ∧
    Consecutive 0 pieces ∧ pieces.flatMap Piece.data = data

/-- What a push does to the key and the data that are held. -/
inductive Effect (key : Key) (data : List α) : Option (Piece Key α) → Key → List α → Prop
  | kept : Effect key data none key data
  | dropped (other : Key) : Effect key data none other []
  | begun (piece : Piece Key α) (first : piece.offset = 0) :
      Effect key data (some piece) piece.key piece.data
  | continued (piece : Piece Key α) (same : piece.key = key) (next : piece.offset = data.length) :
      Effect key data (some piece) key (data ++ piece.data)

theorem Consecutive.concat {pieces : List (Piece Key α)} (consecutive : Consecutive start pieces)
    (next : piece.offset = start + (pieces.flatMap Piece.data).length) :
    Consecutive start (pieces ++ [piece]) := by
  induction pieces generalizing start with
  | nil => exact ⟨by simpa using next, trivial⟩
  | cons first rest ih =>
    refine ⟨consecutive.1, ih consecutive.2 ?_⟩
    simpa [Nat.add_assoc] using next

theorem gathers_nil (accepted : List (Piece Key α)) (key : Key) : Gathers accepted key [] :=
  ⟨accepted, [], (List.append_nil _).symm, by simp, trivial, rfl⟩

theorem Gathers.continue (gathers : Gathers accepted key data) (same : piece.key = key)
    (next : piece.offset = data.length) :
    Gathers (accepted ++ [piece]) key (data ++ piece.data) := by
  obtain ⟨earlier, pieces, rfl, keys, consecutive, rfl⟩ := gathers
  refine ⟨earlier, pieces ++ [piece], by simp, ?_, consecutive.concat (by simpa using next),
    by simp⟩
  simpa [or_imp, forall_and, same] using keys

theorem Effect.gathers (effect : Effect key data piece key' data')
    (gathers : Gathers accepted key data) : Gathers (accepted ++ piece.toList) key' data' := by
  cases effect with
  | kept => simpa using gathers
  | dropped => simpa using gathers_nil accepted _
  | begun piece first => exact (gathers_nil accepted _).continue rfl first
  | continued piece same next => exact gathers.continue same next

section Runs

variable (push : State → Chunk → State) (piece? : State → Chunk → Option (Piece Key α))

def accepted (state : State) : List Chunk → List (Piece Key α)
  | [] => []
  | chunk :: rest => (piece? state chunk).toList ++ accepted (push state chunk) rest

variable {push piece?} {key : State → Key} {data : State → List α}

theorem accepted_concat (state : State) (chunks : List Chunk) (chunk : Chunk) :
    accepted push piece? state (chunks ++ [chunk]) = accepted push piece? state chunks ++
      (piece? (chunks.foldl push state) chunk).toList := by
  induction chunks generalizing state with
  | nil => simp [accepted]
  | cons first rest ih => simp [accepted, ih]

theorem gathers_run (state : State) (empty : data state = []) (law : ∀ state chunk, ∃ key' data',
      Effect (key state) (data state) (piece? state chunk) key' data' ∧
        (data (push state chunk) = [] ∨
          key (push state chunk) = key' ∧ data (push state chunk) = data'))
    (chunks : List Chunk) : Gathers (accepted push piece? state chunks)
      (key (chunks.foldl push state)) (data (chunks.foldl push state)) := by
  induction chunks using List.reverseRecOn with
  | nil =>
    rw [List.foldl_nil, empty]
    exact gathers_nil _ _
  | append_singleton chunks chunk ih =>
    rw [accepted_concat, List.foldl_append, List.foldl_cons, List.foldl_nil]
    obtain ⟨key', data', effect, none | ⟨sameKey, sameData⟩⟩ := law (chunks.foldl push state) chunk
    · rw [none]
      exact gathers_nil _ _
    · rw [sameKey, sameData]
      exact effect.gathers ih

/-- What is gathered when one more chunk is pushed, and what that push returns of it. -/
theorem gathers_returned {Returns : State → Chunk → Key → List α → Prop} (state : State)
    (empty : data state = []) (law : ∀ state chunk, ∃ key' data',
      Effect (key state) (data state) (piece? state chunk) key' data' ∧
        (data (push state chunk) = [] ∨
          key (push state chunk) = key' ∧ data (push state chunk) = data') ∧
        Returns state chunk key' data') (chunks : List Chunk) (chunk : Chunk) :
    ∃ key' data', Gathers (accepted push piece? state (chunks ++ [chunk])) key' data' ∧
      Returns (chunks.foldl push state) chunk key' data' := by
  obtain ⟨key', data', effect, -, returns⟩ := law (chunks.foldl push state) chunk
  refine ⟨key', data', ?_, returns⟩
  rw [accepted_concat]
  refine effect.gathers (gathers_run state empty (fun state chunk => ?_) chunks)
  obtain ⟨key', data', effect, held, -⟩ := law state chunk
  exact ⟨key', data', effect, held⟩

end Runs

end Reassembly

import Cdk.Store.Freshness

/-!
# The sealed store as the peer code sees it

Peer messages and imports use the sealed store through two questions only: may
anything be accepted now, and were the lists committed.  `Sealed` is the store
reduced to what answers them: its mode and the records of the last commit.
`commit_refines` connects it to the store of `Cdk.Store.Machine`: each commit
there is one here.
-/

namespace Cdk.Peer

open ByteFormat Link Store

/-- The state of the store on this boot. -/
inductive Mode where
  | notLoaded
  | off (why : String)
  | ready
  | failed (why : String)
  deriving DecidableEq

/-- The store, reduced to its mode and the records of the last commit. -/
structure Sealed where
  mode : Mode
  records : Records
  deriving DecidableEq

/-- How a write of an open store ends. -/
inductive WriteOutcome where
  | committed
  /-- Not committed. -/
  | failed (why : String)
  /-- Committed, but reported as failed. -/
  | lost (why : String)
  deriving DecidableEq

/-- The error of a commit before the store is loaded. -/
def notLoadedError : String := "the sealed store is not loaded (link-secure)"

namespace Sealed

/-- Persist the lists: `true` if committed, `false` if the store is off. -/
def commit (store : Sealed) (lists : Lists) (now : Option UInt64)
    (outcome : WriteOutcome) : Sealed × Except String Bool :=
  let saved : Sealed := { store with records := written lists now }
  match store.mode with
  | .off _ => (store, .ok false)
  | .notLoaded => (store, .error notLoadedError)
  | .failed why => (store, .error why)
  | .ready =>
    match outcome with
    | .committed => (saved, .ok true)
    | .failed why => (store, .error why)
    | .lost why => (saved, .error why)

/-- Why peer messages and imports must be refused now, if they must. -/
def acceptanceBlocked (required tpmReady : Bool) (store : Sealed) : Option String :=
  match store.mode with
  | .ready => none
  | .failed why =>
    some ("sealed store unusable: " ++ why ++ " (store-reset)")
  | .notLoaded =>
    if required || tpmReady then
      some "the sealed store is not loaded yet (link-secure)"
    else none
  | .off why =>
    if required then
      some ("the policy requires the sealed store (require sealed-store), " ++
        "but it is off: " ++ why)
    else none

end Sealed

/-! ## The connection to the store -/

/-- The mode of a store's status. -/
def Mode.ofStatus : Status → Mode
  | .notLoaded => .notLoaded
  | .off why => .off why
  | .ready _ => .ready
  | .failed why => .failed why

/-- What the peer code sees of the store. -/
def Sealed.ofState (state : State) : Sealed where
  mode := .ofStatus state.status
  records := state.world.committed.getD ⟨[], [], []⟩

/-- Each commit of the store is one of its reduced form. -/
theorem commit_refines
    (config : Config)
    (state : State)
    (now : Option UInt64)
    (env : WriteEnv) :
    ∃ outcome, (Sealed.ofState state).commit state.lists now outcome =
      (Sealed.ofState (commit config state now env).1, (commit config state now env).2) := by
  cases status : state.status with
  | notLoaded =>
    exact ⟨.committed, by
      simp [Sealed.commit, Sealed.ofState, commit, status, Mode.ofStatus, notLoadedError]⟩
  | off why | failed why =>
    exact ⟨.committed, by
      simp [Sealed.commit, Sealed.ofState, commit, status, Mode.ofStatus]⟩
  | ready store =>
    have recorded := write_committed config state.world state.lists store now env
    cases wrote : (write config state.world state.lists store now env).2 with
    | ok next =>
      rw [wrote] at recorded
      obtain ⟨moved, -⟩ := recorded.resolve_left (by simp)
      refine ⟨.committed, ?_⟩
      simp [Sealed.commit, Sealed.ofState, commit, status, Mode.ofStatus, wrote, moved]
    | error why =>
      rw [wrote] at recorded
      rcases recorded with ⟨same, -⟩ | ⟨moved, -⟩
      · refine ⟨.failed why, ?_⟩
        simp [Sealed.commit, Sealed.ofState, commit, status, Mode.ofStatus, wrote, same]
      · refine ⟨.lost why, ?_⟩
        simp [Sealed.commit, Sealed.ofState, commit, status, Mode.ofStatus, wrote, moved]

end Cdk.Peer

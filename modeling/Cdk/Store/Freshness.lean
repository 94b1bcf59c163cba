import Cdk.Library.Run
import Cdk.Store.Machine

/-!
# Freshness of the sealed store

After a commit that returned success, a load must open its records or those of a later write that
returned success.  A write that the gateway received but did not confirm leaves an envelope that
the next write's increment makes current as well: `stale_load` is a run in which one is opened.
`fresh_of_undisturbed` holds for runs in which no write and no load is started while there is such
an envelope, and no increment takes effect that is reported as failed.
-/

namespace Cdk.Store

open ByteFormat Link Peer Run

/-! ## The property -/

/-- What the callers of the store see. -/
inductive Observation where
  /-- A write of these records returned success. -/
  | succeeded (records : Records)
  /-- A load reached `ready` with these records. -/
  | opened (records : Records)
  deriving DecidableEq

/-- The envelope that the gateway serves. -/
def LoadEnv.served (env : LoadEnv) : Bytes := (env.stored.toOption.join).getD []

/-- What a transition shows: a `commit` that returns `Ok(true)`, a `reset` or a
`migrate` that returns `Ok`, and a `load` that reaches `ready`. -/
def observe (config : Config) (state : State) : Label → List Observation
  | .commit now env =>
    match (commit config state now env).2 with
    | .ok true => [.succeeded (written state.lists now)]
    | _ => []
  | .reset env =>
    if (reset config state env).2.isOk then [.succeeded (written state.lists none)] else []
  | .migrate targets env =>
    if (migrate config state targets env).2.isOk then [.succeeded (written state.lists none)]
    else []
  | .load env =>
    match state.status, (load config state env).status,
        authenticate config state.pcrs env.served env with
    | .ready _, _, _ => []
    | _, .ready _, .ok (_, records) => [.opened records]
    | _, _, _ => []
  | .edit _ | .reboot _ => []

/-- After a write that returned success, every load that reaches `ready` opens
its records or those of a later write that returned success. -/
def Fresh (seen : List Observation) : Prop :=
  ∀ earlier records between opened later,
    seen = earlier ++ .succeeded records :: (between ++ .opened opened :: later) →
      opened = records ∨ .succeeded opened ∈ between

/-- The records of the last write that returned success. -/
def lastSucceeded (seen : List Observation) : Option Records :=
  seen.foldl (fun last event => match event with
    | .succeeded records => some records
    | .opened _ => last) none

variable {seen : List Observation}

@[simp] theorem lastSucceeded_succeeded (seen : List Observation) (records : Records) :
    lastSucceeded (seen ++ [.succeeded records]) = some records := by
  simp [lastSucceeded]

@[simp] theorem lastSucceeded_opened (seen : List Observation) (records : Records) :
    lastSucceeded (seen ++ [.opened records]) = lastSucceeded seen := by
  simp [lastSucceeded]

/-- Every load opens the records of the last write before it. -/
def LoadsLast (seen : List Observation) : Prop :=
  ∀ earlier opened, earlier ++ [.opened opened] <+: seen → lastSucceeded earlier = some opened

theorem lastSucceeded_append (last : lastSucceeded (earlier ++ between) = some opened) :
    lastSucceeded earlier = some opened ∨ .succeeded opened ∈ between := by
  induction between using List.reverseRecOn with
  | nil => exact .inl (by simpa using last)
  | append_singleton between event ih =>
    rw [← List.append_assoc] at last
    cases event with
    | succeeded records =>
      rw [lastSucceeded_succeeded, Option.some.injEq] at last
      exact .inr (by simp [last])
    | opened records =>
      rw [lastSucceeded_opened] at last
      exact (ih last).imp_right (List.mem_append_left _)

theorem Fresh.of_loadsLast (loads : LoadsLast seen) : Fresh seen := by
  intro earlier records between opened later split
  have last := loads (earlier ++ .succeeded records :: between) opened
    ⟨later, by rw [split]; simp⟩
  rw [List.append_cons] at last
  rcases lastSucceeded_append last with before | made
  · rw [lastSucceeded_succeeded, Option.some.injEq] at before
    exact .inl before.symm
  · exact .inr made

theorem LoadsLast.append
    (loads : LoadsLast seen)
    (opens : ∀ opened, event = .opened opened → lastSucceeded seen = some opened) :
    LoadsLast (seen ++ [event]) := by
  intro earlier opened early
  rcases List.prefix_concat_iff.mp early with whole | before
  · obtain ⟨rfl, same⟩ := List.append_inj' whole rfl
    exact opens opened (List.singleton_inj.mp same).symm
  · exact loads earlier opened before

/-! ## The invariant -/

/-- The two parts are a sealed object that holds the key. -/
def SealedKey (config : Config) (key : Fixed 32) (parts : Bytes × Bytes) : Prop :=
  ∃ random policy, parts = config.tpm.seal random key.bytes policy

/-- The kernel sealed the envelope. -/
def Put.Sealed (config : Config) (put : Put) : Prop :=
  ∃ key sealedPublic sealedPrivate branches nonce envelope,
    SealedKey config key (sealedPublic, sealedPrivate) ∧
      Envelope.seal config.aead key put.counter sealedPublic sealedPrivate
        branches nonce put.records = some envelope ∧
      put.bytes = envelope.encode

/-- What holds of the world along every undisturbed run: the kept envelopes are
for at most the next counter value, and those for the current value hold the committed records. -/
structure World.Sound (config : Config) (world : World) : Prop where
  sealed : ∀ put ∈ world.kept, put.Sealed config
  counted : ∀ put ∈ world.kept, ∃ count, world.nv = .value count ∧
    put.counter.toNat ≤ count.toNat + 1
  current : ∀ put ∈ world.kept, world.nv = .value put.counter →
    world.committed = some put.records

/-- The invariant of the whole state. -/
structure State.Sound (config : Config) (state : State) : Prop where
  world : state.world.Sound config
  key : ∀ store, state.status = .ready store →
    SealedKey config store.key (store.sealedPublic, store.sealedPrivate)

/-- The envelope is not for the counter's next value. -/
def Put.NotAhead (put : Put) : NvCounter → Prop
  | .value count => put.counter.toNat ≠ count.toNat + 1
  | _ => True

instance (put : Put) : (nv : NvCounter) → Decidable (put.NotAhead nv)
  | .value count =>
    inferInstanceAs (Decidable (put.counter.toNat ≠ count.toNat + 1))
  | .undefined | .uninitialized => isTrue trivial

/-- The gateway holds no envelope for the counter's next value: every write it
received has been committed. -/
def World.Confirmed (world : World) : Prop := ∀ put ∈ world.kept, put.NotAhead world.nv

instance (world : World) : Decidable world.Confirmed :=
  inferInstanceAs (Decidable (∀ put ∈ world.kept, put.NotAhead world.nv))

/-! ## Steps of the world -/

variable {count : UInt64}

theorem World.increment_cases (world : World) (records : Records) (answer : CommandAnswer)
    (nv : world.nv = .value count) :
    ((world.increment records answer).1 = world ∧
        ∃ error, (world.increment records answer).2 = .error error) ∨
      ∃ next, next.toNat = count.toNat + 1 ∧
        (world.increment records answer).1 =
          { world with nv := .value next, committed := some records } ∧
        (answer.isLost = false → (world.increment records answer).2 = .ok ()) := by
  have moved := NvCounter.increment_value count 0 answer
  rw [← nv] at moved
  rcases moved with ⟨same, error, failed⟩ | ⟨next, successor, changed, reported⟩
  · refine .inl ?_
    rw [World.increment, if_pos same]
    exact ⟨rfl, error, failed⟩
  refine .inr ⟨next, successor, ?_⟩
  have differs : (world.nv.increment 0 answer).1 ≠ world.nv := by
    rw [changed, nv]
    intro equal
    injection equal with equal
    rw [equal] at successor
    omega
  rw [World.increment, if_neg differs, changed]
  exact ⟨rfl, reported⟩

variable {config : Config} {world : World} {records : Records}

/-- The counter moves to the value of a kept envelope, and all kept envelopes
for that value have the committed records. -/
theorem World.Sound.advance
    (sound : world.Sound config)
    (nv : world.nv = .value count)
    (successor : next.toNat = count.toNat + 1)
    (agree : ∀ put ∈ world.kept, put.counter.toNat = count.toNat + 1 → put.records = records) :
    World.Sound config { world with nv := .value next, committed := some records } := by
  refine ⟨sound.sealed, ?_, ?_⟩
  · intro put kept
    obtain ⟨held, same, bound⟩ := sound.counted put kept
    rw [nv] at same
    injection same with same
    rw [← same] at bound
    exact ⟨next, rfl, by omega⟩
  · intro put kept current
    injection current with current
    rw [agree put kept (by rw [← current, successor])]

theorem storePut_cases (world : World) (envelope : Envelope) (records : Records)
    (answer : PutAnswer) :
    ((storePut world envelope records answer).1 = world ∧
        ∃ why, (storePut world envelope records answer).2 = .error why) ∨
      (storePut world envelope records answer).1 =
        { world with
          kept := world.kept ++ [⟨envelope.encode, envelope.counter, records⟩] } := by
  unfold storePut
  split
  · exact .inl ⟨rfl, _, rfl⟩
  split
  · exact .inl ⟨rfl, _, rfl⟩
  · exact .inr rfl
  · exact .inr rfl
  · exact .inr rfl
  · exact .inl ⟨rfl, _, rfl⟩

section

variable (sound : world.Sound config) (confirmed : world.Confirmed)
include sound confirmed

/-- The gateway receives an envelope for the next counter value while it holds
no other. -/
theorem World.Sound.receive
    (nv : world.nv = .value count)
    (made : put.Sealed config)
    (next : put.counter.toNat = count.toNat + 1) :
    World.Sound config { world with kept := world.kept ++ [put] } ∧
      ∀ other ∈ world.kept ++ [put],
        other.counter.toNat = count.toNat + 1 → other.records = put.records := by
  refine ⟨⟨?_, ?_, ?_⟩, ?_⟩
  · exact List.forall_mem_append.mpr ⟨sound.sealed, List.forall_mem_singleton.mpr made⟩
  · exact List.forall_mem_append.mpr
      ⟨sound.counted, List.forall_mem_singleton.mpr ⟨count, nv, next.le⟩⟩
  · intro other kept current
    rcases List.mem_append.mp kept with old | new
    · exact sound.current other old current
    · rw [List.mem_singleton.mp new, nv] at current
      injection current with current
      rw [← current] at next
      omega
  · refine List.forall_mem_append.mpr ⟨?_, List.forall_mem_singleton.mpr fun _ => rfl⟩
    intro other old otherNext
    have unconfirmed := confirmed other old
    rw [nv] at unconfirmed
    exact absurd otherNext unconfirmed

/-- Handing over an envelope for the next counter value and committing it keep
the world sound. -/
theorem persist_sound
    (nv : world.nv = .value count)
    (made : Put.Sealed config ⟨envelope.encode, envelope.counter, records⟩)
    (next : envelope.counter.toNat = count.toNat + 1)
    (env : WriteEnv) :
    (persist world envelope records env).1.Sound config := by
  obtain ⟨received, agree⟩ := sound.receive confirmed nv made next
  unfold persist
  rcases storePut_cases world envelope records env.put with
    ⟨same, why, failed⟩ | kept
  · simp only [failed, same]
    exact sound
  · simp only [kept]
    split
    · exact received
    rcases World.increment_cases { world with
          kept := world.kept ++ [⟨envelope.encode, envelope.counter, records⟩] }
        records env.increment nv with
      ⟨same, -⟩ | ⟨value, successor, moved, -⟩
    · rw [same]
      exact received
    · rw [moved]
      exact received.advance nv successor agree

theorem write_sound
    (lists : Lists)
    (ready : Ready)
    (sealedKey : SealedKey config ready.key (ready.sealedPublic, ready.sealedPrivate))
    (now : Option UInt64)
    (env : WriteEnv) :
    (write config world lists ready now env).1.Sound config ∧
      ∀ next, (write config world lists ready now env).2 = .ok next →
        SealedKey config next.key (next.sealedPublic, next.sealedPrivate) := by
  unfold write
  split
  · exact ⟨sound, by simp⟩
  rename_i tpmCounter counted
  obtain ⟨-, nv⟩ := NvCounter.read_eq_ok_iff.mp counted
  split
  · exact ⟨sound, by simp⟩
  split
  · exact ⟨sound, by simp⟩
  rename_i next added
  have successor := checkedAdd_one_eq_some_iff.mp added
  split
  · exact ⟨sound, by simp⟩
  rename_i envelope made
  have counter : envelope.counter = next := by
    obtain ⟨-, body, ciphertext, tag, -, -, equal⟩ := Envelope.seal_eq_some made
    rw [equal]
  refine ⟨persist_sound sound confirmed nv ?_ ?_ env, ?_⟩
  · refine ⟨ready.key, ready.sealedPublic, ready.sealedPrivate,
      ready.branches, env.nonce, envelope, sealedKey, ?_, rfl⟩
    rwa [counter]
  · rw [counter, successor]
  intro written wrote
  cases result : (persist world envelope (Store.written lists now) env).2 with
  | error why =>
    simp only [result] at wrote
    cases wrote
  | ok done =>
    simp only [result] at wrote
    cases wrote
    exact sealedKey

end

/-- A write that moves the counter commits its records, and is reported as done
unless the TPM's answer is lost; any other write fails. -/
theorem persist_committed (nv : world.nv = .value count)
    (envelope : Envelope) (records : Records) (env : WriteEnv) :
    ((persist world envelope records env).1.committed = world.committed ∧
        ∃ why, (persist world envelope records env).2 = .error why) ∨
      (persist world envelope records env).1.committed = some records ∧
        (env.increment.isLost = false → (persist world envelope records env).2 = .ok ()) := by
  simp only [persist]
  rcases storePut_cases world envelope records env.put with
    ⟨same, why, failed⟩ | kept
  · simp [failed, same]
  · simp only [kept]
    split
    · simp
    rcases World.increment_cases { world with
          kept := world.kept ++ [⟨envelope.encode, envelope.counter, records⟩] }
        records env.increment nv with
      ⟨same, error, failed⟩ | ⟨next, -, moved, reported⟩
    · simp [same, failed, Except.mapError]
    · refine .inr ⟨by rw [moved], fun seen => ?_⟩
      rw [reported seen]
      rfl

theorem write_committed (config : Config) (world : World) (lists : Lists) (ready : Ready)
    (now : Option UInt64) (env : WriteEnv) :
    ((write config world lists ready now env).1.committed = world.committed ∧
        ∃ why, (write config world lists ready now env).2 = .error why) ∨
      (write config world lists ready now env).1.committed = some (written lists now) ∧
        (env.increment.isLost = false → (write config world lists ready now env).2.isOk) := by
  unfold write
  split
  · simp
  rename_i count counted
  have nv := (NvCounter.read_eq_ok_iff.mp counted).2
  split
  · simp
  split
  · simp
  split
  · simp
  rename_i envelope made
  rcases persist_committed nv envelope (written lists now) env with
    ⟨same, why, failed⟩ | ⟨moved, reported⟩
  · simp [same, failed, Except.map]
  · refine .inr ⟨moved, fun seen => ?_⟩
    simp only [reported seen]
    rfl

/-- If no answer is lost, a write commits its records exactly if it succeeds. -/
theorem committed_of_write
    (config : Config)
    (world : World)
    (lists : Lists)
    (ready : Ready)
    (now : Option UInt64)
    (reported : env.increment.isLost = false) :
    (write config world lists ready now env).1.committed =
      if (write config world lists ready now env).2.isOk then some (written lists now)
      else world.committed := by
  rcases write_committed config world lists ready now env with
    ⟨same, why, failed⟩ | ⟨moved, done⟩
  · rw [same, failed]
    rfl
  · rw [moved, if_pos (done reported)]

variable {nv : NvCounter}

theorem World.Sound.setNv
    (sound : world.Sound config)
    (same : ∀ count, world.nv = .value count → nv = .value count) :
    World.Sound config { world with nv := nv } := by
  refine ⟨sound.sealed, ?_, ?_⟩
  · intro put kept
    obtain ⟨count, counted, bound⟩ := sound.counted put kept
    exact ⟨count, same count counted, bound⟩
  · intro put kept current
    obtain ⟨count, counted, -⟩ := sound.counted put kept
    have equal : nv = .value put.counter := current
    rw [same count counted] at equal
    exact sound.current put kept (by rw [counted, equal])

/-- Reading or defining the counter confirms nothing and leaves nothing
unconfirmed. -/
theorem World.Confirmed.setNv
    (confirmed : world.Confirmed)
    (counted : ∀ put ∈ world.kept, ∃ count, world.nv = .value count ∧
      put.counter.toNat ≤ count.toNat + 1)
    (same : ∀ count, world.nv = .value count → nv = .value count) :
    World.Confirmed { world with nv := nv } := by
  intro put kept
  obtain ⟨count, held, -⟩ := counted put kept
  have notAhead := confirmed put kept
  rw [held] at notAhead
  simp only [same count held]
  exact notAhead

theorem readCounter_value (counted : nv = .value count) (env : CounterEnv) :
    (readCounter nv env).1 = .value count ∧
      ∀ answer, (readCounter nv env).2 = .ok answer → answer = some count := by
  subst counted
  unfold readCounter
  cases fault : env.readFault with
  | none => simp [NvCounter.read]
  | some error =>
    simp only [NvCounter.read]
    rw [if_neg error.notState.1, if_neg error.notState.2]
    simp

theorem readCounter_some (answered : (readCounter nv env).2 = .ok (some count)) :
    (readCounter nv env).1 = .value count := by
  simp only [readCounter] at answered ⊢
  split at answered
  · rename_i value read
    cases answered
    exact (NvCounter.read_eq_ok_iff.mp read).2
  split at answered
  · cases answered
  rename_i absent
  split at answered
  · rename_i uninitialized
    rw [if_neg absent, if_pos uninitialized]
    split at answered
    · cases answered
    rename_i moved
    simp only
    cases reread : (nv.increment env.initial env.increment).1.read env.rereadFault with
    | error error =>
      rw [reread] at answered
      cases answered
    | ok value =>
      rw [reread] at answered
      cases answered
      exact (NvCounter.read_eq_ok_iff.mp reread).2
  · cases answered

theorem startCounter_value (counted : nv = .value count) (env : ResetEnv) :
    (startCounter nv env).1 = .value count := by
  obtain ⟨same, answers⟩ := readCounter_value counted env.counter
  simp only [startCounter]
  split
  · exact same
  · exact same
  · rename_i undefined
    exact absurd (answers _ undefined) (by simp)

theorem plan_eq_open {stored : Except String (Option Bytes)}
    (planned : plan counter ((stored.map Option.isSome).mapError fun _ => ()) = .open) :
    (∃ count, counter = some count) ∧ ∃ bytes, stored = .ok (some bytes) := by
  rcases counter with _ | count
  · rcases stored with _ | _ | bytes <;> simp [plan, Except.map, Except.mapError] at planned
  · rcases stored with _ | _ | bytes
    · simp [plan, Except.map, Except.mapError] at planned
    · simp [plan, Except.map, Except.mapError] at planned
    · exact ⟨⟨count, rfl⟩, bytes, rfl⟩

/-! ## Loading a kept envelope -/

theorem authenticate_kept {put : Put} (made : put.Sealed config)
    (opened : authenticate config pcrs put.bytes env = .ok (store, records)) :
    store.counter = put.counter ∧ records = put.records ∧
      SealedKey config store.key (store.sealedPublic, store.sealedPrivate) := by
  obtain ⟨key, sealedPublic, sealedPrivate, branches, nonce, envelope,
    sealedKey, madeBy, bytes⟩ := made
  obtain ⟨-, body, ciphertext, tag, -, -, fields⟩ := Envelope.seal_eq_some madeBy
  have decoded : Envelope.decode put.bytes = some envelope := by
    rw [bytes]
    exact (Envelope.wellFormed_of_seal madeBy).decode_encode
  have unsealed : ∀ other, unsealKey config pcrs envelope env = .ok other → other = key := by
    intro other recovered
    obtain ⟨random, policy, parts⟩ := sealedKey
    simp only [unsealKey] at recovered
    split at recovered
    · cases recovered
    split at recovered
    · split at recovered <;> cases recovered
    rename_i data result
    split at result
    · cases result
    have same : data = key.bytes := by
      apply config.tpm.unseal_seal
      rw [← parts]
      simpa only [fields] using result
    rw [same, Fixed.ofBytes?_bytes] at recovered
    cases recovered
    rfl
  unfold authenticate at opened
  rw [decoded] at opened
  simp only at opened
  cases recovered : unsealKey config pcrs envelope env with
  | error why => simp [recovered] at opened
  | ok other =>
    rw [recovered, unsealed other recovered] at opened
    simp only [Envelope.open_of_seal madeBy] at opened
    cases opened
    subst fields
    exact ⟨rfl, rfl, sealedKey⟩

/-- Opening a kept envelope, when all are confirmed, leaves the world and gives
the committed records. -/
theorem openStore_sound
    (sound : world.Sound config)
    (nv : world.nv = .value count)
    (legal : (authenticate config pcrs bytes env).isOk → ∃ put ∈ world.kept, put.bytes = bytes)
    (confirmed : world.Confirmed) :
    (openStore config world pcrs count bytes env).1 = world ∧
      ∀ store records, (openStore config world pcrs count bytes env).2 = .ok (store, records) →
        authenticate config pcrs bytes env = .ok (store, records) ∧
          world.committed = some records ∧
          SealedKey config store.key (store.sealedPublic, store.sealedPrivate) := by
  cases opened : authenticate config pcrs bytes env with
  | error why => simp [openStore, opened]
  | ok result =>
    obtain ⟨store, records⟩ := result
    obtain ⟨put, kept, rfl⟩ := legal (by rw [opened]; rfl)
    obtain ⟨counter, rfl, sealedKey⟩ := authenticate_kept (sound.sealed put kept) opened
    simp only [openStore, opened]
    split
    · rename_i fresh
      rw [freshness_eq_current_iff, counter] at fresh
      refine ⟨rfl, ?_⟩
      rintro other records ⟨⟩
      exact ⟨rfl, sound.current put kept (by rw [nv, fresh]), sealedKey⟩
    · rename_i fresh
      rw [freshness_eq_uncommitted_iff, counter] at fresh
      have notAhead := confirmed put kept
      rw [nv] at notAhead
      exact absurd fresh notAhead
    · simp
    · simp

/-! ## Steps of the system -/

/-- The gateway's part of a step: an answer that authenticates is an envelope
it received. -/
def Legal (config : Config) (state : State) : Label → Prop
  | .load env => ∀ bytes ∈ env.stored.toOption.join,
      (authenticate config state.pcrs bytes env).isOk → ∃ put ∈ state.world.kept, put.bytes = bytes
  | _ => True

/-- Nothing is started while a write is unconfirmed, and no increment takes
effect that is reported as failed. -/
def Undisturbed (state : State) : Label → Prop
  | .commit _ env => state.world.Confirmed ∧ env.increment.isLost = false
  | .reset env => state.world.Confirmed ∧ env.write.increment.isLost = false
  | .migrate _ env => state.world.Confirmed ∧ env.write.increment.isLost = false
  | .load _ => state.world.Confirmed
  | .edit _ | .reboot _ => True

instance (config : Config) (state : State) (label : Label) : Decidable (Legal config state label) :=
  match label with
  | .load env => inferInstanceAs (Decidable (∀ bytes ∈ env.stored.toOption.join,
      (authenticate config state.pcrs bytes env).isOk →
        ∃ put ∈ state.world.kept, put.bytes = bytes))
  | .edit _ | .commit _ _ | .reset _ | .migrate _ _ | .reboot _ => isTrue trivial

instance (state : State) (label : Label) : Decidable (Undisturbed state label) :=
  match label with
  | .commit _ env =>
    inferInstanceAs (Decidable (state.world.Confirmed ∧ env.increment.isLost = false))
  | .reset env =>
    inferInstanceAs (Decidable (state.world.Confirmed ∧ env.write.increment.isLost = false))
  | .migrate _ env =>
    inferInstanceAs (Decidable (state.world.Confirmed ∧ env.write.increment.isLost = false))
  | .load _ => inferInstanceAs (Decidable state.world.Confirmed)
  | .edit _ | .reboot _ => isTrue trivial

variable {state : State}

/-- A commit keeps the invariant, and commits its records exactly if it returns
`Ok(true)`. -/
theorem commit_sound
    (sound : state.Sound config)
    (undisturbed : Undisturbed state (.commit now env)) :
    (commit config state now env).1.Sound config ∧
      (commit config state now env).1.world.committed =
        if (commit config state now env).2.toOption = some true then
          some (written state.lists now)
        else state.world.committed := by
  cases status : state.status with
  | notLoaded | off why | failed why =>
    simp only [commit, status]
    exact ⟨sound, rfl⟩
  | ready store =>
    obtain ⟨world, key⟩ := write_sound sound.world undisturbed.1 state.lists
      store (sound.key store status) now env
    have committed := committed_of_write config state.world state.lists store now undisturbed.2
    cases wrote : (write config state.world state.lists store now env).2 with
    | error why =>
      rw [wrote] at committed
      simp only [commit, status, wrote]
      exact ⟨⟨world, fun other same => sound.key other (status.trans same)⟩, committed⟩
    | ok next =>
      rw [wrote] at committed
      simp only [commit, status, wrote]
      refine ⟨⟨world, ?_⟩, committed⟩
      rintro store ⟨⟩
      exact key _ wrote

theorem sealedKey_of_sealKey
    (made : sealKey config key policy srkFault sealFault random = .ok parts) :
    SealedKey config key (parts.1, parts.2) := by
  unfold sealKey at made
  split at made
  · cases made
  · cases made
  · cases made
    exact ⟨random, policy, rfl⟩

/-- How a transition that writes ends: the invariant holds, and its records are
committed exactly if it succeeds. -/
def Ends (config : Config) (state : State) (outcome : State × Except String UInt64) : Prop :=
  outcome.1.Sound config ∧
    outcome.1.world.committed =
      if outcome.2.isOk then some (written state.lists none) else state.world.committed

theorem reset_sound
    (sound : state.Sound config)
    (undisturbed : Undisturbed state (.reset env)) :
    Ends config state (reset config state env) := by
  have started := sound.world.setNv fun count counted => startCounter_value counted env
  have stillConfirmed := undisturbed.1.setNv sound.world.counted fun count counted =>
    startCounter_value counted env
  simp only [reset]
  split
  · exact ⟨sound, rfl⟩
  split
  · exact ⟨sound, rfl⟩
  simp only [create]
  split
  · exact ⟨sound, rfl⟩
  split
  · exact ⟨⟨started, sound.key⟩, rfl⟩
  split
  · exact ⟨⟨started, sound.key⟩, rfl⟩
  split
  · exact ⟨⟨started, sound.key⟩, rfl⟩
  rename_i counter _ _ policy _ _ parts made
  obtain ⟨world, key⟩ := write_sound started stillConfirmed
    state.lists ⟨env.key, parts.1, parts.2, [], counter⟩
    (sealedKey_of_sealKey made) none env.write
  have committed := committed_of_write config
    { state.world with nv := (startCounter state.world.nv env).1 } state.lists
    ⟨env.key, parts.1, parts.2, [], counter⟩ none undisturbed.2
  split
  · rename_i why failed
    rw [failed] at committed
    exact ⟨⟨world, sound.key⟩, committed⟩
  · rename_i store wrote
    rw [wrote] at committed
    refine ⟨⟨world, ?_⟩, committed⟩
    rintro store ⟨⟩
    exact key _ wrote

theorem migrate_sound
    (sound : state.Sound config)
    (undisturbed : Undisturbed state (.migrate targets env)) :
    Ends config state (migrate config state targets env) := by
  simp only [migrate]
  split
  · exact ⟨sound, rfl⟩
  rename_i branches policy _
  split
  · rename_i store _
    split
    · exact ⟨sound, rfl⟩
    rename_i parts made
    obtain ⟨world, key⟩ := write_sound sound.world undisturbed.1 state.lists { store with
        sealedPublic := parts.1
        sealedPrivate := parts.2
        branches := branches }
      (sealedKey_of_sealKey made) none env.write
    have committed := committed_of_write config state.world state.lists { store with
        sealedPublic := parts.1
        sealedPrivate := parts.2
        branches := branches } none undisturbed.2
    split
    · rename_i why failed
      rw [failed] at committed
      exact ⟨⟨world, sound.key⟩, committed⟩
    · rename_i next wrote
      rw [wrote] at committed
      refine ⟨⟨world, ?_⟩, committed⟩
      rintro store ⟨⟩
      exact key _ wrote
  · exact ⟨sound, rfl⟩

/-- A load keeps the invariant and what is committed; if it reaches `ready`, it
opens the committed records. -/
theorem load_sound
    (sound : state.Sound config)
    (env : LoadEnv)
    (legal : Legal config state (.load env))
    (undisturbed : Undisturbed state (.load env)) :
    (load config state env).Sound config ∧
      (load config state env).world.committed = state.world.committed ∧
      ((∀ store, state.status ≠ .ready store) →
        ∀ store, (load config state env).status = .ready store →
          ∃ records, authenticate config state.pcrs env.served env = .ok (store, records) ∧
            state.world.committed = some records) := by
  have notReady : ∀ {status : Status}, (∀ store, status ≠ .ready store) →
      ∀ store, status = .ready store → SealedKey config store.key
          (store.sealedPublic, store.sealedPrivate) :=
    fun closed store ready => absurd ready (closed store)
  have counted := sound.world.setNv fun count counted =>
    (readCounter_value counted env.counter).1
  simp only [load]
  split
  · rename_i store ready
    exact ⟨sound, rfl, fun closed => absurd ready (closed store)⟩
  split
  · split
    · exact ⟨⟨sound.world, notReady (by simp)⟩, rfl, by simp⟩
    · exact ⟨⟨sound.world, notReady (by simp)⟩, rfl, by simp⟩
  split
  · exact ⟨⟨counted, notReady (by simp)⟩, rfl, by simp⟩
  rename_i counter answered
  split
  · exact ⟨⟨counted, notReady (by simp)⟩, rfl, by simp⟩
  · exact ⟨⟨counted, notReady (by simp)⟩, rfl, by simp⟩
  · exact ⟨⟨counted, notReady (by simp)⟩, rfl, by simp⟩
  rename_i planned
  obtain ⟨⟨count, rfl⟩, bytes, stored⟩ := plan_eq_open planned
  have served : env.served = bytes := by
    rw [LoadEnv.served, stored]
    rfl
  have given : bytes ∈ env.stored.toOption.join := by
    rw [stored]
    rfl
  have stillConfirmed := World.Confirmed.setNv undisturbed sound.world.counted
    fun count counted => (readCounter_value counted env.counter).1
  obtain ⟨same, opens⟩ := openStore_sound counted (readCounter_some answered)
    (legal bytes given) stillConfirmed
  have front : (env.stored.toOption.join).getD [] = bytes := served
  simp only [front, Option.getD_some, same]
  split
  · exact ⟨⟨counted, notReady (by simp)⟩, rfl, by simp⟩
  rename_i store records opened
  obtain ⟨authentic, last, sealedKey⟩ := opens store records opened
  refine ⟨⟨counted, ?_⟩, rfl, ?_⟩
  · rintro other ⟨⟩
    exact sealedKey
  · rintro - other ⟨⟩
    rw [served]
    exact ⟨records, authentic, last⟩

/-! ## Runs -/

/-- The invariant of runs: the committed records are those of the last write
that returned success, and every load opened such records. -/
structure Tracks (config : Config) (state : State) (seen : List Observation) : Prop where
  sound : state.Sound config
  last : lastSucceeded seen = state.world.committed
  loads : LoadsLast seen

/-- A transition that may write. -/
theorem Tracks.write {done : Bool}
    (tracks : Tracks config state seen)
    (sound : next.Sound config)
    (committed : next.world.committed = if done then some records else state.world.committed) :
    Tracks config next (seen ++ if done then [.succeeded records] else []) := by
  cases done with
  | true =>
    refine ⟨sound, ?_, tracks.loads.append (by simp)⟩
    rw [if_pos rfl, lastSucceeded_succeeded]
    exact committed.symm
  | false =>
    refine ⟨sound, ?_, ?_⟩
    · simpa [committed] using tracks.last
    · simpa using tracks.loads

theorem Tracks.commit
    (tracks : Tracks config state seen)
    (undisturbed : Undisturbed state (.commit now env)) :
    Tracks config (step config state (.commit now env))
      (seen ++ observe config state (.commit now env)) := by
  obtain ⟨sound, committed⟩ := commit_sound tracks.sound undisturbed
  have shown : observe config state (.commit now env) =
      if decide ((Store.commit config state now env).2.toOption = some true) then
        [.succeeded (written state.lists now)] else [] := by
    simp only [observe]
    cases (Store.commit config state now env).2 with
    | error why => rfl
    | ok durable => cases durable <;> rfl
  rw [shown]
  exact tracks.write sound (by simpa [step] using committed)

theorem Tracks.load
    (tracks : Tracks config state seen)
    (legal : Legal config state (.load env))
    (undisturbed : Undisturbed state (.load env)) :
    Tracks config (step config state (.load env)) (seen ++ observe config state (.load env)) := by
  obtain ⟨sound, committed, opens⟩ := load_sound tracks.sound env legal undisturbed
  have last : lastSucceeded seen = (Store.load config state env).world.committed :=
    tracks.last.trans committed.symm
  have silent (none : observe config state (.load env) = []) :
      Tracks config (step config state (.load env))
        (seen ++ observe config state (.load env)) := by
    rw [none, List.append_nil]
    exact ⟨sound, last, tracks.loads⟩
  by_cases ready : ∃ store, state.status = .ready store
  · obtain ⟨store, ready⟩ := ready
    exact silent (by simp [observe, ready])
  have closed : ∀ store, state.status ≠ .ready store := fun store held => ready ⟨store, held⟩
  by_cases reached : ∃ store, (Store.load config state env).status = .ready store
  · obtain ⟨store, reached⟩ := reached
    obtain ⟨records, authentic, held⟩ := opens closed store reached
    have shown : observe config state (.load env) = [.opened records] := by
      simp only [observe, reached, authentic]
    rw [shown]
    refine ⟨sound, by rw [lastSucceeded_opened]; exact last, tracks.loads.append ?_⟩
    rintro opened ⟨⟩
    rw [tracks.last, held]
  · refine silent ?_
    simp only [observe]
    split
    · rfl
    · exact absurd ⟨_, ‹(Store.load config state env).status = _›⟩ reached
    · rfl

theorem Tracks.step
    (tracks : Tracks config state seen)
    (legal : Legal config state label)
    (undisturbed : Undisturbed state label) :
    Tracks config (step config state label) (seen ++ observe config state label) := by
  cases label with
  | edit lists =>
    rw [observe, List.append_nil]
    exact ⟨⟨tracks.sound.world, tracks.sound.key⟩, tracks.last, tracks.loads⟩
  | commit now env => exact tracks.commit undisturbed
  | reset env =>
    obtain ⟨sound, committed⟩ := reset_sound tracks.sound undisturbed
    exact tracks.write sound committed
  | migrate targets env =>
    obtain ⟨sound, committed⟩ := migrate_sound tracks.sound undisturbed
    exact tracks.write sound committed
  | load env => exact tracks.load legal undisturbed
  | reboot pcrs =>
    rw [observe, List.append_nil]
    exact ⟨⟨tracks.sound.world, nofun⟩, tracks.last, tracks.loads⟩

/-- The system before anything was stored. -/
def initial (nv : NvCounter) (pcrs : List (Fixed 32)) : State := boot ⟨nv, [], none⟩ pcrs

theorem initial_tracks (config : Config) (nv : NvCounter) (pcrs : List (Fixed 32)) :
    Tracks config (initial nv pcrs) [] := by
  refine ⟨⟨⟨nofun, nofun, nofun⟩, nofun⟩, rfl, ?_⟩
  intro earlier opened early
  simp at early

/-- In every undisturbed run, a load that reaches `ready` after a commit that
returned `Ok(true)` opens its records or those of a later write that returned success. -/
theorem fresh_of_undisturbed
    (config : Config)
    (nv : NvCounter)
    (pcrs : List (Fixed 32))
    (labels : List Label)
    (undisturbed : Along (step config)
      (fun state label => Legal config state label ∧ Undisturbed state label)
      (initial nv pcrs) labels) :
    Fresh (outputs (step config) (observe config) (initial nv pcrs) labels) := by
  have tracks : Tracks config (after (step config) (initial nv pcrs) labels)
      ([] ++ outputs (step config) (observe config) (initial nv pcrs) labels) :=
    outputs_invariant (initial_tracks config nv pcrs)
      (fun _ _ _ tracks condition => tracks.step condition.1 condition.2) undisturbed
  exact .of_loadsLast tracks.loads

/-! ## Two concrete runs -/

/-- A TPM that keeps the data in the private part and releases it only if the
policy in the public part is met by the PCRs. -/
def sampleTpm : Tpm where
  «seal» _ data policy := (policy.bytes, data)
  «unseal» pcrs sealedPublic sealedPrivate branches :=
    let here := pcrPolicy sampleCrypto ((chain pcrs).map Prod.snd)
    if branches.isEmpty then
      if sealedPublic = here.bytes then .ok sealedPrivate
      else .error (.rc rcPolicyFail)
    else if !branches.contains here then .error (.rc rcOrNoBranch)
    else if sealedPublic = (orPolicy sampleCrypto branches).bytes then
      .ok sealedPrivate
    else .error (.rc rcPolicyFail)
  unseal_seal := by
    intro random data policy pcrs branches out
    simp only
    repeat' split
    all_goals first
      | (rintro ⟨⟩; rfl)
      | (intro impossible; cases impossible)

def sampleConfig : Config := ⟨sampleCrypto, sampleAead, sampleTpm⟩

/-- PCR values with a measured kernel. -/
def samplePcrs : List (Fixed 32) :=
  (List.range 13).map fun index => Fixed.replicate 32 (UInt8.ofNat (index + 1))

def sampleWrite (put : PutAnswer) : WriteEnv := ⟨none, Fixed.replicate 12 5, put, .done⟩

/-- A measured boot with a working TPM. -/
def sampleBoot : BootEnv := ⟨false, true, none⟩

def sampleCounter : CounterEnv := ⟨none, 1, .done, none⟩

def sampleReset : ResetEnv where
  boot := sampleBoot
  linkSecure := true
  entropySecure := true
  counter := sampleCounter
  define := .done
  key := Fixed.replicate 32 9
  policy := .ok (pcrPolicy sampleCrypto ((chain samplePcrs).map Prod.snd))
  srkFault := none
  sealFault := none
  random := []
  write := sampleWrite .stored

/-- A load for which the gateway serves the given envelope. -/
def sampleLoad (bytes : Bytes) : LoadEnv :=
  ⟨sampleBoot, none, sampleCounter, .ok (some bytes), none, none, .done⟩

def revoking (serial : UInt64) : Lists :=
  { Lists.empty with revoked := BoundedVec.empty.absorb id [serial] }

/-- A run, then a reboot and a load of the envelope received at `index`. -/
def thenLoad (labels : List Label) (index : Nat) : List Label :=
  let before := after (step sampleConfig) (initial .undefined samplePcrs) labels
  let served := (before.world.kept.map Put.bytes).getD index []
  labels ++ [.reboot samplePcrs, .load (sampleLoad served)]

/-- A reset, a commit that fails and one that succeeds, then a load. -/
def undisturbedRun : List Label :=
  thenLoad [.reset sampleReset, .edit (revoking 7), .commit none (sampleWrite .notSecure),
    .commit none (sampleWrite .stored)] 1

theorem fresh_of_undisturbed_sample :
    outputs (step sampleConfig) (observe sampleConfig) (initial .undefined samplePcrs)
        undisturbedRun =
      [.succeeded ⟨[], [], []⟩, .succeeded ⟨[7], [], []⟩, .opened ⟨[7], [], []⟩] ∧
    Fresh (outputs (step sampleConfig) (observe sampleConfig) (initial .undefined samplePcrs)
      undisturbedRun) :=
  ⟨by decide +kernel,
    fresh_of_undisturbed sampleConfig .undefined samplePcrs undisturbedRun (by decide +kernel)⟩

/-- The gateway receives a commit of revocation 7 without confirming it; the
kernel commits revocation 9 instead; after a reboot the gateway serves the
first envelope. -/
def unconfirmedRun : List Label :=
  thenLoad [.reset sampleReset, .edit (revoking 7), .commit none (sampleWrite .silent),
    .edit (revoking 9), .commit none (sampleWrite .stored)] 1

/-- The load opens records that were never committed, and the committed
revocation is gone. -/
theorem stale_load :
    Along (step sampleConfig) (Legal sampleConfig)
        (initial .undefined samplePcrs) unconfirmedRun ∧
      ¬Fresh (outputs (step sampleConfig) (observe sampleConfig) (initial .undefined samplePcrs)
        unconfirmedRun) := by
  refine ⟨by decide +kernel, ?_⟩
  have happened : outputs (step sampleConfig) (observe sampleConfig)
        (initial .undefined samplePcrs) unconfirmedRun =
      [.succeeded ⟨[], [], []⟩, .succeeded ⟨[9], [], []⟩, .opened ⟨[7], [], []⟩] := by
    decide +kernel
  intro fresh
  rcases fresh [.succeeded ⟨[], [], []⟩] ⟨[9], [], []⟩ [] ⟨[7], [], []⟩ [] happened with
    same | between
  · revert same
    decide
  · cases between

end Cdk.Store

import Cdk.Peer.Lists
import Cdk.Store.Tpm

/-!
# The sealed store

The kernel's `commit`, `reset`, `migrate` and `load` as transitions of the TPM counter, what the
gateway holds, and this boot's memory.  Every failure is a choice in the transition's
environment; a crash is a call that fails at that point, followed by a reboot.
`World.committed` and the annotations of `Put` are history variables: no transition reads them.
-/

namespace Cdk.Store

open ByteFormat Link Peer

/-- `store-failed` reasons. -/
inductive Failure where
  | missing
  | otherBootChain
  | tampered
  | rolledBack
  | tpm
  | inconsistent
  | noneYet
  deriving DecidableEq, Repr

/-- An open store. -/
structure Ready where
  /-- The key of the records. -/
  key : Fixed 32
  sealedPublic : Bytes
  sealedPrivate : Bytes
  branches : List (Fixed 32)
  /-- The TPM counter value of the last committed write. -/
  counter : UInt64
  deriving DecidableEq

/-- The state of the store in this boot. -/
inductive Status where
  /-- Before the first secure link. -/
  | notLoaded
  /-- No sealed store on this boot. -/
  | off (why : String)
  | ready (store : Ready)
  | failed (why : String)
  deriving DecidableEq

/-! ## The world -/

/-- An envelope the gateway received, with the counter and the records it was
sealed from. -/
structure Put where
  bytes : Bytes
  counter : UInt64
  records : Records
  deriving DecidableEq

/-- What outlives a boot. -/
structure World where
  nv : NvCounter
  /-- Every envelope the gateway ever received. -/
  kept : List Put
  /-- The records of the envelope for which the counter last moved. -/
  committed : Option Records
  deriving DecidableEq

/-- Move the counter to the value of an envelope. -/
def World.increment (world : World) (records : Records)
    (answer : CommandAnswer) : World × Except TpmError Unit :=
  let moved := world.nv.increment 0 answer
  if moved.1 = world.nv then (world, moved.2)
  else
    ({ world with
        nv := moved.1
        committed := some records }, moved.2)

/-- How the gateway takes an envelope. -/
inductive PutAnswer where
  | notSecure
  /-- A chunk could not be sent. -/
  | sendFailed
  /-- Received and confirmed. -/
  | stored
  /-- Received, but answered with a failure. -/
  | refused (why : String)
  /-- Received, but not answered in time. -/
  | silent
  deriving DecidableEq

/-- Hand an envelope to the gateway. -/
def storePut (world : World) (envelope : Envelope) (records : Records)
    (answer : PutAnswer) : World × Except String Unit :=
  let received : World :=
    { world with
      kept := world.kept ++ [⟨envelope.encode, envelope.counter, records⟩] }
  if answer = .notSecure then (world, .error "no secure link")
  else match encodeBlob BlobKind.store.byte envelope.encode, answer with
    | none, _ => (world, .error "the store is too large")
    | some _, .stored => (received, .ok ())
    | some _, .refused why => (received, .error why)
    | some _, .silent => (received, .error "the gateway did not answer")
    | some _, _ => (world, .error "send failed")

/-! ## Writing -/

/-- What a write meets. -/
structure WriteEnv where
  /-- The counter read fails. -/
  readFault : Option Fault
  nonce : Fixed 12
  /-- How the gateway takes the envelope. -/
  put : PutAnswer
  /-- How the TPM answers the increment. -/
  increment : CommandAnswer

/-- The records of a write: the lists, pruned by the gateway's clock. -/
def written (lists : Lists) (now : Option UInt64) : Records :=
  match now with
  | some now => (snapshot lists).prune now
  | none => snapshot lists

/-- Hand an envelope to the gateway and, once it is confirmed, move the
counter. -/
def persist (world : World) (envelope : Envelope) (records : Records)
    (env : WriteEnv) : World × Except String Unit :=
  let stored := storePut world envelope records env.put
  match stored.2 with
  | .error why => (stored.1, .error why)
  | .ok () =>
    let moved := stored.1.increment records env.increment
    (moved.1, moved.2.mapError fun error =>
      "TPM counter increment (" ++ error.debug ++ ")")

/-- Write the current records for the next counter value, then commit it. -/
def write (config : Config) (world : World) (lists : Lists) (ready : Ready) (now : Option UInt64)
    (env : WriteEnv) : World × Except String Ready :=
  match world.nv.read env.readFault with
  | .error error => (world, .error ("TPM counter (" ++ error.debug ++ ")"))
  | .ok tpmCounter =>
    if tpmCounter ≠ ready.counter then
      (world, .error ("the TPM counter moved outside CDK (expected " ++
        toString ready.counter ++ ", found " ++ toString tpmCounter ++ ")"))
    else match checkedAdd tpmCounter 1 with
      | none => (world, .error "TPM counter exhausted")
      | some next =>
        match Envelope.seal config.aead ready.key next ready.sealedPublic
            ready.sealedPrivate ready.branches env.nonce
            (written lists now) with
        | none => (world, .error "the store is full")
        | some envelope =>
          let outcome := persist world envelope (written lists now) env
          (outcome.1, outcome.2.map fun () => { ready with counter := next })

/-! ## The state of a boot -/

/-- The world and this boot's memory. -/
structure State where
  world : World
  status : Status
  /-- The revocation and replay lists. -/
  lists : Lists
  /-- The PCR values of this boot chain. -/
  pcrs : List (Fixed 32)
  deriving DecidableEq

/-- A boot begins with an empty memory. -/
def boot (world : World) (pcrs : List (Fixed 32)) : State := ⟨world, .notLoaded, .empty, pcrs⟩

/-- Persist the current records: `true` if committed, `false` if the store is
off. -/
def commit (config : Config) (state : State) (now : Option UInt64)
    (env : WriteEnv) : State × Except String Bool :=
  match state.status with
  | .off _ => (state, .ok false)
  | .notLoaded =>
    (state, .error "the sealed store is not loaded (link-secure)")
  | .failed why => (state, .error why)
  | .ready store =>
    let outcome := write config state.world state.lists store now env
    match outcome.2 with
    | .error why => ({ state with world := outcome.1 }, .error why)
    | .ok next =>
      ({ state with world := outcome.1, status := .ready next }, .ok true)

/-! ## Eligibility and the counter -/

/-- What this boot and its TPM allow. -/
structure BootEnv where
  lockdown : Bool
  tpmReady : Bool
  pcrFault : Option TpmError

/-- The PCR of the kernel. -/
def loaderPcr : Nat := 11

/-- The value of a PCR. -/
def pcrValue (pcrs : List (Fixed 32)) (index : Nat) : Fixed 32 :=
  pcrs.getD index (Fixed.replicate 32 0)

/-- Why this boot cannot have a sealed store, if it cannot. -/
def ineligible (env : BootEnv) (pcrs : List (Fixed 32)) : Option String :=
  if env.lockdown then some "boot verification failed (lockdown)"
  else if !env.tpmReady then some "no usable TPM"
  else if env.pcrFault.isSome then some "TPM PCRs unreadable"
  else if pcrValue pcrs loaderPcr = Fixed.replicate 32 0 then
    some ("no loader measurement of the kernel (BIOS boot): " ++
      "the TPM cannot tell this kernel from another")
  else none

/-- What reading the counter meets. -/
structure CounterEnv where
  readFault : Option Fault
  /-- The value a first increment sets. -/
  initial : UInt64
  increment : CommandAnswer
  rereadFault : Option Fault

/-- The counter, `none` if it was never defined.  A counter defined but never
incremented is incremented now. -/
def readCounter (nv : NvCounter) (env : CounterEnv) : NvCounter × Except TpmError (Option UInt64) :=
  match nv.read env.readFault with
  | .ok count => (nv, .ok (some count))
  | .error error =>
    if error = .rc rcNvAbsent then (nv, .ok none)
    else if error = .rc rcNvUninitialized then
      let moved := nv.increment env.initial env.increment
      match moved.2 with
      | .error error => (moved.1, .error error)
      | .ok () => (moved.1, (moved.1.read env.rereadFault).map some)
    else (nv, .error error)

/-! ## Loading -/

/-- What to do at boot. -/
inductive Plan where
  | noneYet
  | «open»
  | off (why : String)
  | fail (code : Failure) (why : String)
  deriving DecidableEq

/-- The decision at boot, for the counter and the gateway's answer. -/
def plan (counter : Option UInt64) (stored : Except Unit Bool) : Plan :=
  match counter, stored with
  | none, .ok false => .noneYet
  | none, .error () =>
    .off "the gateway keeps no store (cdk-gateway --store FILE)"
  | none, .ok true =>
    .fail .inconsistent ("the gateway holds a store but the TPM has no store " ++
      "counter (deleted, or another machine's store)")
  | some _, .ok true => .open
  | some _, _ =>
    .fail .missing ("the TPM store counter exists but the gateway has no " ++
      "store (lost or withheld)")

/-- What a load meets. -/
structure LoadEnv where
  boot : BootEnv
  /-- The counter read of an ineligible boot fails. -/
  probeFault : Option Fault
  counter : CounterEnv
  /-- The gateway's answer to the request for the envelope. -/
  stored : Except String (Option Bytes)
  srkFault : Option TpmError
  unsealFault : Option TpmError
  increment : CommandAnswer

/-- Recover the store key from its sealed object. -/
def unsealKey (config : Config) (pcrs : List (Fixed 32)) (envelope : Envelope)
    (env : LoadEnv) : Except (Failure × String) (Fixed 32) :=
  match env.srkFault with
  | some error => .error (.tpm, "TPM storage key (" ++ error.debug ++ ")")
  | none =>
    let unsealed : Except TpmError Bytes := match env.unsealFault with
      | some error => .error error
      | none => config.tpm.unseal pcrs envelope.sealedPublic
          envelope.sealedPrivate envelope.branches
    match unsealed with
    | .error error =>
      if error = .rc rcPolicyFail ∨ error = .rc rcOrNoBranch then
        .error (.otherBootChain, "the store is sealed to another boot " ++
          "chain (firmware, loader or kernel changed)")
      else
        .error (.tampered, "the store key does not unseal (" ++ error.debug ++ ")")
    | .ok data =>
      match Fixed.ofBytes? 32 data with
      | none => .error (.tampered, "the sealed key has the wrong length")
      | some key => .ok key

/-- Unseal the key of an envelope and open it. -/
def authenticate (config : Config) (pcrs : List (Fixed 32)) (bytes : Bytes)
    (env : LoadEnv) : Except (Failure × String) (Ready × Records) :=
  match Envelope.decode bytes with
  | none => .error (.tampered, "not a store envelope")
  | some envelope =>
    match unsealKey config pcrs envelope env with
    | .error why => .error why
    | .ok key =>
      match envelope.open config.aead key with
      | none =>
        .error (.tampered, "the store does not authenticate (changed)")
      | some records =>
        .ok (⟨key, envelope.sealedPublic, envelope.sealedPrivate,
          envelope.branches, envelope.counter⟩, records)

variable (config : Config)

/-- Open an envelope and compare it with the counter. -/
def openStore (world : World) (pcrs : List (Fixed 32)) (tpmCounter : UInt64) (bytes : Bytes)
    (env : LoadEnv) : World × Except (Failure × String) (Ready × Records) :=
  match authenticate config pcrs bytes env with
  | .error why => (world, .error why)
  | .ok (store, records) =>
    match freshness store.counter tpmCounter with
    | .current => (world, .ok (store, records))
    | .uncommitted =>
      let moved := world.increment records env.increment
      match moved.2 with
      | .error error =>
        (moved.1, .error (.tpm, "TPM counter (" ++ error.debug ++ ")"))
      | .ok () => (moved.1, .ok (store, records))
    | .rolledBack =>
      (world, .error (.rolledBack, "the store was ROLLED BACK (envelope " ++
        toString store.counter ++ ", TPM counter " ++
        toString tpmCounter ++ ")"))
    | .invalid =>
      (world, .error (.tampered,
        "the envelope is ahead of the TPM counter (" ++
        toString store.counter ++ " > " ++ toString tpmCounter ++ ")"))

variable (state : State)

/-- Open the store after a secure link with an accepting gateway. -/
def load (env : LoadEnv) : State :=
  match state.status with
  | .ready _ => state
  | _ =>
    match ineligible env.boot state.pcrs with
    | some why =>
      if env.boot.tpmReady && (state.world.nv.read env.probeFault).isOk then
        { state with
          status := .failed ("this TPM holds a sealed store, but " ++ why) }
      else { state with status := .off why }
    | none =>
      let counted := readCounter state.world.nv env.counter
      let world := { state.world with nv := counted.1 }
      match counted.2 with
      | .error error =>
        { state with
          world := world
          status := .failed ("TPM counter unreadable (" ++ error.debug ++ ")") }
      | .ok counter =>
        match plan counter ((env.stored.map Option.isSome).mapError fun _ => ()) with
        | .off why => { state with world := world, status := .off why }
        | .fail _ why =>
          { state with world := world, status := .failed why }
        | .noneYet =>
          { state with
            world := world
            status := .failed "no sealed store yet" }
        | .open =>
          let bytes := (env.stored.toOption.join).getD []
          let opened := openStore config world state.pcrs (counter.getD 0) bytes env
          match opened.2 with
          | .error (_, why) =>
            { state with world := opened.1, status := .failed why }
          | .ok (store, records) =>
            { state with
              world := opened.1
              status := .ready store
              lists := restore state.lists records }

/-! ## New stores and new policies -/

/-- What a reset meets. -/
structure ResetEnv where
  boot : BootEnv
  linkSecure : Bool
  entropySecure : Bool
  counter : CounterEnv
  define : CommandAnswer
  key : Fixed 32
  policy : Except TpmError (Fixed 32)
  srkFault : Option TpmError
  sealFault : Option TpmError
  /-- The TPM's randomness for the sealed object. -/
  random : Bytes
  write : WriteEnv

/-- Define the counter and increment it for the first time. -/
def nvCounterDefine (nv : NvCounter) (env : ResetEnv) : NvCounter × Except TpmError Unit :=
  let defined := nv.define env.define
  match defined.2 with
  | .error error => (defined.1, .error error)
  | .ok () => defined.1.increment env.counter.initial env.counter.increment

/-- The counter of a new store, defined if need be. -/
def startCounter (nv : NvCounter) (env : ResetEnv) : NvCounter × Except String UInt64 :=
  let counted := readCounter nv env.counter
  match counted.2 with
  | .error error => (counted.1, .error ("TPM counter (" ++ error.debug ++ ")"))
  | .ok (some count) => (counted.1, .ok count)
  | .ok none =>
    let defined := nvCounterDefine counted.1 env
    match defined.2 with
    | .error error =>
      (defined.1, .error ("defining the TPM counter (" ++ error.debug ++ ")"))
    | .ok () =>
      match defined.1.read env.counter.rereadFault with
      | .error error =>
        (defined.1, .error ("TPM counter (" ++ error.debug ++ ")"))
      | .ok count => (defined.1, .ok count)

/-- Seal the store's key to a policy. -/
def sealKey (key : Fixed 32) (policy : Fixed 32) (srkFault sealFault : Option TpmError)
    (random : Bytes) : Except String (Bytes × Bytes) :=
  match srkFault, sealFault with
  | some error, _ => .error ("TPM storage key (" ++ error.debug ++ ")")
  | none, some error =>
    .error ("sealing the store key (" ++ error.debug ++ ")")
  | none, none => .ok (config.tpm.seal random key.bytes policy)

/-- A new key sealed to this boot chain, and a first write of the current
records. -/
def create (env : ResetEnv) : State × Except String UInt64 :=
  if !env.entropySecure then
    (state, .error "no secure randomness for a store key")
  else
    let started := startCounter state.world.nv env
    let world := { state.world with nv := started.1 }
    match started.2 with
    | .error why => ({ state with world := world }, .error why)
    | .ok counter =>
      match env.policy with
      | .error error =>
        ({ state with world := world }, .error ("PCR policy (" ++ error.debug ++ ")"))
      | .ok policy =>
        match sealKey config env.key policy env.srkFault env.sealFault env.random with
        | .error why => ({ state with world := world }, .error why)
        | .ok parts =>
          let outcome := write config world state.lists
            ⟨env.key, parts.1, parts.2, [], counter⟩ none env.write
          match outcome.2 with
          | .error why => ({ state with world := outcome.1 }, .error why)
          | .ok store =>
            ({ state with world := outcome.1, status := .ready store }, .ok store.counter)

/-- Start a new store from this boot's records. -/
def reset (env : ResetEnv) : State × Except String UInt64 :=
  match ineligible env.boot state.pcrs with
  | some why => (state, .error why)
  | none =>
    if !env.linkSecure then (state, .error "no secure link (run link-secure)")
    else create config state env

/-- What a migration meets. -/
structure MigrateEnv where
  pcrFault : Option TpmError
  policy : Except TpmError (Fixed 32)
  srkFault : Option TpmError
  sealFault : Option TpmError
  random : Bytes
  write : WriteEnv

/-- The sealed PCRs of this boot chain. -/
def chain (pcrs : List (Fixed 32)) : List (Nat × Fixed 32) :=
  sealedPcrs.map fun index => (index, pcrValue pcrs index)

/-- The chain with the operator's target values. -/
def overridden (current targets : List (Nat × Fixed 32)) : List (Nat × Fixed 32) :=
  current.map fun entry =>
    (entry.1, ((targets.find? fun target => target.1 == entry.1).map Prod.snd).getD entry.2)

/-- The branches and the policy to seal to. -/
def migratePolicy (pcrs : List (Fixed 32)) (targets : List (Nat × Fixed 32)) (env : MigrateEnv) :
    Except String (List (Fixed 32) × Fixed 32) :=
  match env.pcrFault with
  | some error => .error ("TPM PCRs unreadable (" ++ error.debug ++ ")")
  | none =>
    match targets.find? fun target => !sealedPcrs.contains target.1 with
    | some target =>
      .error ("PCR " ++ toString target.1 ++ " is not sealed (sealed: 0, 2, 4, 7, 11)")
    | none =>
      let here := pcrPolicy config.crypto ((chain pcrs).map Prod.snd)
      let there := pcrPolicy config.crypto ((overridden (chain pcrs) targets).map Prod.snd)
      match env.policy with
      | .error error => .error ("PCR policy (" ++ error.debug ++ ")")
      | .ok tpmHere =>
        if here ≠ tpmHere then
          .error ("the computed PCR policy differs from the TPM's; " ++ "not migrating")
        else if targets.isEmpty then .ok ([], here)
        else if there = here then
          .error ("the target values are this boot chain's: " ++ "nothing to migrate")
        else
          .ok ([here, there], orPolicy config.crypto [here, there])

/-- Seal the key of the open store anew. -/
def migrate (targets : List (Nat × Fixed 32)) (env : MigrateEnv) : State × Except String UInt64 :=
  match migratePolicy config state.pcrs targets env with
  | .error why => (state, .error why)
  | .ok (branches, policy) =>
    match state.status with
    | .ready store =>
      match sealKey config store.key policy env.srkFault env.sealFault env.random with
      | .error why => (state, .error why)
      | .ok parts =>
        let outcome := write config state.world state.lists
          { store with
            sealedPublic := parts.1
            sealedPrivate := parts.2
            branches := branches } none env.write
        match outcome.2 with
        | .error why => ({ state with world := outcome.1 }, .error why)
        | .ok next =>
          ({ state with world := outcome.1, status := .ready next }, .ok next.counter)
    | _ =>
      (state, .error ("the sealed store is not open " ++ "(only an open store can be migrated)"))

/-! ## Runs -/

/-- A transition of the system, with everything its environment decides. -/
inductive Label where
  /-- Other code changes the lists: revocations, deliveries, imports, a list
  from the gateway, the roll-back of an entry. -/
  | edit (lists : Lists)
  | commit (now : Option UInt64) (env : WriteEnv)
  | reset (env : ResetEnv)
  | migrate (targets : List (Nat × Fixed 32)) (env : MigrateEnv)
  | load (env : LoadEnv)
  /-- The node restarts, perhaps with another boot chain. -/
  | reboot (pcrs : List (Fixed 32))

/-- One transition. -/
def step : Label → State
  | .edit lists => { state with lists := lists }
  | .commit now env => (commit config state now env).1
  | .reset env => (reset config state env).1
  | .migrate targets env => (migrate config state targets env).1
  | .load env => load config state env
  | .reboot pcrs => boot state.world pcrs

end Cdk.Store

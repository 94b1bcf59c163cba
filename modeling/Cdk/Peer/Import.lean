import Cdk.Peer.Deliver

/-!
# Importing a peer's capability

`checkImport` verifies a portable capability and looks it up in the replay list, which it first
prunes with the gateway's clock; a value far ahead empties the list.  What is left for arbitrary
clocks is `imported_again_only_if_expired`: an issuer and serial can be marked again only if, in
between, an import that verified came with a clock value past the expiry of the earlier one.
-/

namespace Cdk.Peer

open ByteFormat Link Run BoundedVec

/-! ## The model -/

/-- The gateway's clock at the front of what it delivers. -/
def deliveryClock (delivered : Bytes) : Option UInt64 :=
  if delivered.length < 8 then none
  else some (UInt64.ofNat (leValue (delivered.take 8)))

theorem deliveryClock_append (now : UInt64) (bytes : Bytes) :
    deliveryClock (le64 now ++ bytes) = some now := by
  rw [deliveryClock, if_neg (by simp), List.take_left' (length_le64 now)]
  simp

/-- The permission bit of a gated grant. -/
def approvalBit : UInt64 := (1 : UInt64) <<< 7

/-- What to grant of offered permissions under trusted ones: their
intersection, gated if either side asks for it. -/
def grantMask (offered trusted : UInt64) : Option UInt64 :=
  let effect := offered &&& trusted &&& ~~~approvalBit
  let gate := (offered ||| trusted) &&& approvalBit
  if effect != 0 then some (effect ||| gate) else none

/-- The name of the local object that stands for a peer's. -/
def proxyName (node : NodeName) (object : ObjectName) : Option Bytes :=
  let proxy := ascii "peer:" ++ node.text ++ ascii "/" ++ object.text
  if proxy.length > 32 then none else some proxy

/-- The reason of a refusal, by the words of the error. -/
def verifyReason (text : String) : Reject :=
  if containsText text "addressed" || containsText text "this node" then
    .notForUs
  else if containsText text "expired" || containsText text "outlives" then
    .expired
  else .badSignature

/-- A verified import, before it is recorded. -/
structure Accepted where
  node : NodeName
  object : ObjectName
  proxy : Bytes
  /-- Permissions to grant. -/
  mask : UInt64
  validFor : UInt64
  /-- The gateway's clock at the import. -/
  now : UInt64
  notAfter : UInt64
  issuer : Fixed 16
  serial : UInt64
  /-- The capability as it came. -/
  grant : Bytes

/-- What imports change. -/
structure Desk where
  lists : Lists
  store : Sealed
  /-- The delegations behind the proxies. -/
  grants : BoundedVec (Bytes × Bytes) 16
  deriving DecidableEq

/-- The node's policy on peers: what a node may delegate on an object. -/
abbrev Trust := NodeName → ObjectName → UInt64

/-- Drop the imports that have expired. -/
def pruneImported (lists : Lists) (now : UInt64) : Lists :=
  { lists with
    imported := lists.imported.retain fun entry => entry.notAfter ≥ now }

/-- The checks that need this node's state, made on a pruned list. -/
def admitImport (crypto : Crypto) (trust : Trust) (lists : Lists) (now : UInt64) (cap : PortableCap)
    (bytes : Bytes) : Except Refusal Accepted :=
  match replayCheck lists.imported.items (cap.cert.issuer.id crypto) cap.serial with
  | .error error => .error ⟨.replayed, error.text⟩
  | .ok () =>
    match grantMask cap.perms (trust cap.cert.name cap.object) with
    | none =>
      .error ⟨.notTrusted,
        "policy does not trust that node for that object " ++ "(trust <node> <object> <perms>)"⟩
    | some mask =>
      match proxyName cap.cert.name cap.object with
      | none => .error ⟨.malformed, "proxy name too long"⟩
      | some proxy =>
        .ok
          { node := cap.cert.name
            object := cap.object
            proxy := proxy
            mask := mask
            validFor := if now ≤ cap.notAfter then cap.notAfter - now
              else 0
            now := now
            notAfter := cap.notAfter
            issuer := cap.cert.issuer.id crypto
            serial := cap.serial
            grant := bytes }

section

variable (crypto : Crypto) (setting : Setting) (trust : Trust) (desk : Desk)

/-- Verify a decoded capability. -/
def checkCap (now : UInt64) (cap : PortableCap) (bytes : Bytes) : Desk × Except Refusal Accepted :=
  match setting.registry, setting.node with
  | none, _ =>
    (desk, .error ⟨.noRegistry, "no registry key pinned in the ramdisk"⟩)
  | some _, none =>
    (desk, .error ⟨.notForUs, "this node has no certificate yet"⟩)
  | some registry, some me =>
    match cap.verify crypto registry me now with
    | .error error =>
      (desk, .error ⟨verifyReason error.text, error.text⟩)
    | .ok () =>
      match desk.store.acceptanceBlocked setting.requireStore setting.tpmReady with
      | some _ => (desk, .error ⟨.store, "the sealed store is unusable"⟩)
      | none =>
        let lists := pruneImported desk.lists now
        ({ desk with lists := lists }, admitImport crypto trust lists now cap bytes)

/-- Check what the gateway delivered: a clock value and a capability. -/
def checkImport (delivered : Bytes) : Desk × Except Refusal Accepted :=
  let malformed : Refusal := ⟨.malformed, "not a portable capability"⟩
  match deliveryClock delivered with
  | none => (desk, .error malformed)
  | some now =>
    match PortableCap.decode (delivered.drop 8) with
    | none => (desk, .error malformed)
    | some cap =>
      checkCap crypto setting trust desk now cap (delivered.drop 8)

/-- A capability that the gateway delivers as it was encoded. -/
theorem checkImport_encode (now : UInt64) (cap : PortableCap) :
    checkImport crypto setting trust desk (le64 now ++ cap.encode) =
      checkCap crypto setting trust desk now cap cap.encode := by
  have capBytes : (le64 now ++ cap.encode).drop 8 = cap.encode := List.drop_left' (length_le64 now)
  simp only [checkImport, deliveryClock_append, capBytes, PortableCap.decode_encode]

end

/-- What an import puts in the replay list. -/
def Accepted.entry (accepted : Accepted) : Seen :=
  ⟨accepted.issuer, accepted.serial, accepted.notAfter⟩

/-- Record an approved import, in the sealed store if there is one. -/
def markImported (desk : Desk) (accepted : Accepted) (outcome : WriteOutcome) :
    Desk × Except String Unit :=
  match desk.lists.imported.push? accepted.entry with
  | none => (desk, .error "replay list full")
  | some pushed =>
    let lists : Lists := { desk.lists with imported := pushed }
    let committed := desk.store.commit lists (some accepted.now) outcome
    match committed.2 with
    | .error error =>
      ({ desk with
          lists := { lists with
            imported := pushed.retain fun old => old != accepted.entry }
          store := committed.1 },
        .error ("not recorded in the sealed store (" ++ error ++ "); not granted"))
    | .ok _ =>
      let others := desk.grants.retain fun grant =>
        grant.1 != accepted.proxy
      ({ lists := lists
         store := committed.1
         grants := (others.push? (accepted.proxy, accepted.grant)).getD others }, .ok ())

/-! ## Imports of one boot -/

/-- What matters of the history of a boot. -/
inductive ImportEvent where
  /-- A check verified the capability and pruned the list with this clock value. -/
  | checked (now : UInt64)
  /-- An import was marked. -/
  | marked (entry : Seen)
  deriving DecidableEq

/-- The imports of a boot. -/
structure Imports where
  desk : Desk
  /-- What happened, the latest first. -/
  history : List ImportEvent
  deriving DecidableEq

/-- What happens during a boot. -/
inductive Import where
  /-- An import is checked and, if it passes and is approved, marked. -/
  | pair (setting : Setting) (trust : Trust) (delivered : Bytes) (approved : Bool)
      (outcome : WriteOutcome)
  /-- The store is loaded. -/
  | restore (records : Records)
  /-- Something else changes: messages, revocations, the store. -/
  | change (revoked : BoundedVec UInt64 maxRevoked) (seen : BoundedVec Seen maxDelivered)
      (store : Sealed)

/-- The clock value of a check that gets as far as the replay list. -/
def checkedClock (crypto : Crypto) (setting : Setting) (store : Sealed) (delivered : Bytes) :
    Option UInt64 := do
  let now ← deliveryClock delivered
  let cap ← PortableCap.decode (delivered.drop 8)
  let registry ← setting.registry
  let me ← setting.node
  match cap.verify crypto registry me now with
  | .error _ => none
  | .ok () =>
    match store.acceptanceBlocked setting.requireStore setting.tpmReady with
    | some _ => none
    | none => some now

/-- Mark what passed its check and was approved. -/
def finishPair (history : List ImportEvent) (checked : Desk × Except Refusal Accepted)
    (approved : Bool) (outcome : WriteOutcome) : Imports :=
  match checked.2, approved with
  | .ok accepted, true =>
    let marked := markImported checked.1 accepted outcome
    { desk := marked.1
      history := if marked.2.isOk then .marked accepted.entry :: history else history }
  | _, _ => ⟨checked.1, history⟩

/-- A step of a boot. -/
def importStep (crypto : Crypto) (imports : Imports) : Import → Imports
  | .pair setting trust delivered approved outcome =>
    let clock := checkedClock crypto setting imports.desk.store delivered
    finishPair (clock.toList.map .checked ++ imports.history)
      (checkImport crypto setting trust imports.desk delivered) approved outcome
  | .restore records =>
    { imports with
      desk := { imports.desk with
        lists := restore imports.desk.lists records } }
  | .change revoked seen store =>
    { imports with
      desk := { imports.desk with
        lists := { imports.desk.lists with revoked := revoked, seen := seen }
        store := store } }

/-! ## Once, until it expires -/

/-- Some check came with a clock value past the expiry of the entry. -/
def PastExpiry (entry : Seen) (events : List ImportEvent) : Prop :=
  ∃ now, .checked now ∈ events ∧ entry.notAfter < now

/-- Between two marks of the same pair there is a check past the expiry of the earlier one. -/
def AgainOnlyIfExpired (history : List ImportEvent) : Prop :=
  ∀ newer late between early before,
    history = newer ++ .marked late :: (between ++ .marked early :: before) →
    late.key = early.key → PastExpiry early between

/-- The invariant: a mark that no later check was past is in the list. -/
structure SoundImports (imports : Imports) : Prop where
  listed : ∀ later entry before, imports.history = later ++ .marked entry :: before →
    PastExpiry entry later ∨ entry ∈ imports.desk.lists.imported.items
  again : AgainOnlyIfExpired imports.history

variable {desk : Desk} {imports : Imports}

theorem SoundImports.keep
    (sound : SoundImports imports)
    (kept : ∀ entry ∈ imports.desk.lists.imported.items, entry ∈ desk.lists.imported.items) :
    SoundImports ⟨desk, imports.history⟩ where
  listed later entry before split :=
    (sound.listed later entry before split).imp_right (kept entry)
  again := sound.again

/-- A check that prunes the list. -/
theorem SoundImports.check
    (sound : SoundImports imports)
    (now : UInt64)
    (kept : ∀ entry ∈ imports.desk.lists.imported.items,
      now ≤ entry.notAfter → entry ∈ desk.lists.imported.items) :
    SoundImports ⟨desk, .checked now :: imports.history⟩ where
  listed := by
    rintro (_ | ⟨_, later⟩) entry before split
    · cases split
    obtain ⟨rfl, rest⟩ := List.cons.inj split
    obtain ⟨past, listed, expired⟩ | here := sound.listed later entry before rest
    · exact .inl ⟨past, List.mem_cons_of_mem _ listed, expired⟩
    · by_cases expired : entry.notAfter < now
      · exact .inl ⟨now, List.mem_cons_self, expired⟩
      · exact .inr (kept entry here (UInt64.not_lt.mp expired))
  again := by
    rintro (_ | ⟨_, newer⟩) late between early before split same
    · cases split
    · exact sound.again newer late between early before (List.cons.inj split).2 same

/-- A mark of what is not in the list. -/
theorem SoundImports.mark
    (sound : SoundImports imports)
    (fresh : entry.key ∉ imports.desk.lists.imported.items.map Seen.key)
    (items : desk.lists.imported.items = imports.desk.lists.imported.items ++ [entry]) :
    SoundImports ⟨desk, .marked entry :: imports.history⟩ where
  listed := by
    rintro (_ | ⟨_, later⟩) other before split
    · obtain ⟨same, -⟩ := List.cons.inj split
      obtain rfl := ImportEvent.marked.inj same
      exact .inr (items ▸ List.mem_append_right _ List.mem_cons_self)
    obtain ⟨rfl, rest⟩ := List.cons.inj split
    obtain ⟨past, listed, expired⟩ | here := sound.listed later other before rest
    · exact .inl ⟨past, List.mem_cons_of_mem _ listed, expired⟩
    · exact .inr (items ▸ List.mem_append_left _ here)
  again := by
    rintro (_ | ⟨_, newer⟩) late between early before split same
    · obtain ⟨first, rest⟩ := List.cons.inj split
      obtain rfl := ImportEvent.marked.inj first
      refine (sound.listed between early before rest).resolve_right fun here => fresh ?_
      rw [same]
      exact List.mem_map_of_mem here
    · exact sound.again newer late between early before (List.cons.inj split).2 same

variable {accepted : Accepted}

/-- What the last checks accept is not in the list, and is granted as the offer
and the policy have it. -/
theorem admitImport_ok (admitted : admitImport crypto trust lists now cap bytes = .ok accepted) :
    accepted.entry.key ∉ lists.imported.items.map Seen.key ∧
      grantMask cap.perms (trust cap.cert.name cap.object) = some accepted.mask := by
  unfold admitImport at admitted
  split at admitted
  · cases admitted
  rename_i passed
  split at admitted
  · cases admitted
  rename_i mask granted
  split at admitted
  · cases admitted
  cases admitted
  refine ⟨?_, granted⟩
  intro known
  have replayed := replayCheck_eq_alreadyImported_iff.mpr known
  exact absurd (passed.symm.trans replayed) (by simp)

theorem checkCap_ok
    (checked : (checkCap crypto setting trust desk now cap bytes).2 = .ok accepted) :
    admitImport crypto trust (pruneImported desk.lists now) now cap bytes = .ok accepted := by
  unfold checkCap at checked
  repeat' split at checked
  all_goals first
    | contradiction
    | exact checked

/-- A check leaves the list as it is or prunes it with the reported clock
value; what it accepts is not in the list. -/
theorem checkImport_cases
    (crypto : Crypto)
    (setting : Setting)
    (trust : Trust)
    (desk : Desk)
    (delivered : Bytes) :
    (checkedClock crypto setting desk.store delivered = none ∧
      ∃ refusal, checkImport crypto setting trust desk delivered = (desk, .error refusal)) ∨
    ∃ now cap, checkedClock crypto setting desk.store delivered = some now ∧
      checkImport crypto setting trust desk delivered =
        ({ desk with lists := pruneImported desk.lists now },
          admitImport crypto trust (pruneImported desk.lists now) now cap (delivered.drop 8)) := by
  unfold checkImport checkedClock
  cases deliveryClock delivered with
  | none => exact .inl ⟨rfl, _, rfl⟩
  | some now =>
    cases PortableCap.decode (delivered.drop 8) with
    | none => exact .inl ⟨rfl, _, rfl⟩
    | some cap =>
      simp only [checkCap, Option.bind_eq_bind, Option.bind_some]
      cases setting.registry with
      | none => exact .inl ⟨rfl, _, rfl⟩
      | some registry =>
        cases setting.node with
        | none => exact .inl ⟨rfl, _, rfl⟩
        | some me =>
          simp only [Option.bind_some]
          cases cap.verify crypto registry me now with
          | error error => exact .inl ⟨rfl, _, rfl⟩
          | ok _ =>
            dsimp only
            cases desk.store.acceptanceBlocked setting.requireStore setting.tpmReady with
            | some why => exact .inl ⟨rfl, _, rfl⟩
            | none => exact .inr ⟨now, cap, rfl, rfl⟩

theorem markImported_cases
    (fresh : accepted.entry.key ∉ desk.lists.imported.items.map Seen.key) (outcome : WriteOutcome) :
    ((markImported desk accepted outcome).2.isOk = false ∧
        (markImported desk accepted outcome).1.lists.imported = desk.lists.imported) ∨
      (markImported desk accepted outcome).2.isOk ∧
        (markImported desk accepted outcome).1.lists.imported.items =
          desk.lists.imported.items ++ [accepted.entry] := by
  unfold markImported
  split
  · exact .inl ⟨rfl, rfl⟩
  rename_i pushed result
  have items := (push?_eq_some_iff.mp result).2
  simp only
  split
  · exact .inl ⟨rfl, retain_pushed fresh (.refl 0 _) items⟩
  · exact .inr ⟨rfl, items⟩

theorem SoundImports.pair
    (sound : SoundImports imports)
    (setting : Setting)
    (trust : Trust)
    (delivered : Bytes)
    (approved : Bool)
    (outcome : WriteOutcome) :
    SoundImports (importStep crypto imports (.pair setting trust delivered approved outcome)) := by
  simp only [importStep]
  rcases checkImport_cases crypto setting trust imports.desk delivered with
    ⟨unchecked, refusal, refused⟩ | ⟨now, cap, clock, checked⟩
  · rw [unchecked, refused]
    exact sound
  · rw [clock, checked]
    -- The pruned list still has what the clock value is not past.
    have pruned : SoundImports ⟨{ imports.desk with lists := pruneImported imports.desk.lists now },
        .checked now :: imports.history⟩ := by
      refine sound.check now fun entry here valid => ?_
      exact List.mem_filter.mpr ⟨here, by simpa using valid⟩
    unfold finishPair
    split
    · rename_i accepted admitted
      have fresh : accepted.entry.key ∉
          ({ imports.desk with lists := pruneImported imports.desk.lists now } :
            Desk).lists.imported.items.map Seen.key :=
        (admitImport_ok admitted).1
      rcases markImported_cases fresh outcome with
        ⟨failed, same⟩ | ⟨succeeded, items⟩
      · simp only [failed, Bool.false_eq_true, if_false]
        refine pruned.keep fun entry here => ?_
        rw [same]
        exact here
      · simp only [succeeded, if_true]
        exact pruned.mark fresh items
    · exact pruned

/-- Whatever clock values the gateway reports, within one boot a pair of issuer
and serial is marked again only if, between the two marks, a capability verified in a check
with a clock value past the expiry under which the pair was marked before. -/
theorem imported_again_only_if_expired
    (crypto : Crypto)
    (desk : Desk)
    (steps : List Import) :
    AgainOnlyIfExpired (after (importStep crypto) ⟨desk, []⟩ steps).history := by
  have sound : SoundImports (after (importStep crypto) ⟨desk, []⟩ steps) := by
    refine always steps ?_ ?_
    · exact ⟨by simp, fun newer late between early before split => by simp at split⟩
    intro imports step sound
    cases step with
    | pair setting trust delivered approved outcome =>
      exact sound.pair setting trust delivered approved outcome
    | restore records =>
      refine sound.keep fun entry here => ?_
      simp only [restore, merge, absorbUntilFull_eq_absorb]
      exact (prefix_absorb _ _).subset here
    | change revoked seen store => exact sound.keep fun entry here => here
  exact sound.again

/-! ## A clock that runs ahead -/

/-- A capability of the peer for this node. -/
def sampleCap (serial notAfter : UInt64) : PortableCap :=
  { (default : PortableCap) with
    cert := sampleCert sampleEdge notAfter
    perms := sendBit
    audience := sampleHub
    serial := serial
    notAfter := notAfter }

/-- A desk with an open store and nothing imported. -/
def sampleDesk : Desk := ⟨.empty, ⟨.ready, ⟨[], [], []⟩⟩, .empty⟩

/-- An approved import at some time, whose commit succeeds. -/
def samplePair (now : UInt64) (cap : PortableCap) : Import :=
  .pair sampleSetting (fun _ _ => sendBit) (le64 now ++ cap.encode) true .committed

/-- The step of such an import, decoded. -/
def decodedPair (imports : Imports) (now : UInt64) (cap : PortableCap) : Imports :=
  finishPair
    ((checkedClock sampleCrypto sampleSetting imports.desk.store
      (le64 now ++ cap.encode)).toList.map .checked ++ imports.history)
    (checkCap sampleCrypto sampleSetting (fun _ _ => sendBit) imports.desk now cap cap.encode)
    true .committed

theorem importStep_samplePair (imports : Imports) (now : UInt64) (cap : PortableCap) :
    importStep sampleCrypto imports (samplePair now cap) = decodedPair imports now cap := by
  simp only [samplePair, importStep, checkImport_encode]
  rfl

/-- An import at time 500 drops the entry of one that expires at 100, which can
then be imported a second time, at time 50. -/
theorem imported_twice :
    (after (importStep sampleCrypto) ⟨sampleDesk, []⟩
      [samplePair 50 (sampleCap 1 100), samplePair 500 (sampleCap 2 1000),
        samplePair 50 (sampleCap 1 100)]).history.count
      (.marked ⟨(sampleCap 1 100).cert.issuer.id sampleCrypto, 1, 100⟩) = 2 := by
  simp only [after_cons, after_nil, importStep_samplePair]
  decide +kernel

end Cdk.Peer

import Cdk.Gateway.Handler

/-!
# Requests to the gateway

The calls that wait for an answer of the gateway, joined with its handler to one system.
`answers_belong`: a call that starts with empty channels gets the answer to its own request.
`put_takes_stale_answer` is a run in which a call that starts too early reports that an envelope
was stored although another one was.
-/

namespace Cdk.Peer

open ByteFormat Link Gateway Exchange BlobKind Run

/-! ## Calls -/

/-- A request that has passed the checks made before anything is sent. -/
inductive Request where
  | storePut (envelope : Bytes) (fits : envelope ≠ [] ∧ envelope.length ≤ maxBlob)
  | storeGet
  | fetchImport (file : FileName)
  | sendExport (file : FileName) (cap : PortableCap)
  /-- With what became of the commit that comes first. -/
  | revoke (committed : Text) (serial : UInt64)

/-- What the calls return. -/
inductive Returned where
  | put (result : Except Text Unit)
  | got (result : Except Text (Option Bytes))
  | fetched (result : Except Text Bytes)
  | exported (result : Except Text Text)
  | revoked (result : Except Text Text)
  deriving DecidableEq

def badFileName : Text :=
  "file names: letters, digits, - _ (at most 32)".toList

/-- The error of the transfers without a session. -/
def noSecureLink : Text := "no secure link (run link-secure)".toList

variable (secure : Bool)

/-- `store_put` up to the sending. -/
def storePut (envelope : Bytes) : Except Returned Request :=
  if !secure then .error (.put (.error "no secure link".toList))
  else if fits : envelope ≠ [] ∧ envelope.length ≤ maxBlob then
    .ok (.storePut envelope fits)
  else .error (.put (.error "the store is too large".toList))

/-- `store_get` up to the sending. -/
def storeGet : Except Returned Request :=
  if !secure then .error (.got (.error "send failed".toList))
  else .ok .storeGet

/-- `fetch_import` up to the sending. -/
def fetchImport (file : Bytes) : Except Returned Request :=
  if !secure then .error (.fetched (.error noSecureLink))
  else match Name.ofBytes? validFileName file with
    | none => .error (.fetched (.error badFileName))
    | some file => .ok (.fetchImport file)

/-- `send_export` up to the sending. -/
def sendExport (file : Bytes) (cap : PortableCap) : Except Returned Request :=
  if !secure then .error (.exported (.error noSecureLink))
  else match Name.ofBytes? validFileName file with
    | none => .error (.exported (.error badFileName))
    | some file => .ok (.sendExport file cap)

/-- `revoke` up to the sending, given what became of the commit. -/
def revoke (revoked : BoundedVec UInt64 maxRevoked) (committed : Text) (serial : UInt64) :
    Except Returned Request :=
  if !revoked.items.contains serial && revoked.isFull then
    .error (.revoked (.error "revocation list full".toList))
  else if !secure then
    .error (.revoked (.ok (committed ++ "; gateway: not recorded (no secure link)".toList)))
  else .ok (.revoke committed serial)

namespace Request

def exportPayload (file : FileName) (cap : PortableCap) : Bytes := file.bytes ++ cap.encode

/-- What a request sends. -/
def messages : Request → List Bytes
  | storePut envelope _ => (encodeBlob store.byte envelope).getD []
  | storeGet => [[storeGetTag]]
  | fetchImport file => [encodeImportRequest file.text]
  | sendExport file cap =>
    (encodeBlob export.byte (exportPayload file cap)).getD []
  | revoke _ serial => [encodeRevoke serial]

def wanted : Request → UInt8
  | storeGet => store.byte
  | fetchImport _ => import.byte
  | storePut _ _ | sendExport _ _ | revoke _ _ => 0

/-- What a request returns. -/
def returns : Request → Except Text Answer → Returned
  | storePut _ _, answer =>
    .put (match answer with
      | .ok (.done _) => .ok ()
      | .ok (.blob _) => .error "unexpected answer".toList
      | .error error => .error error)
  | storeGet, answer =>
    .got (match answer with
      | .ok (.blob data) => .ok (some data)
      | .ok (.done _) => .ok none
      | .error error => .error error)
  | fetchImport _, answer =>
    .fetched (match answer with
      | .ok (.blob data) => .ok data
      | .ok (.done _) => .error "unexpected answer".toList
      | .error error => .error error)
  | sendExport _ _, answer =>
    .exported (match answer with
      | .ok (.done note) => .ok note
      | .ok (.blob _) => .error "unexpected answer".toList
      | .error error => .error error)
  | revoke committed _, answer =>
    .revoked (.ok (committed ++ "; gateway: ".toList ++
      match answer with
      | .ok (.done note) => note
      | .ok (.blob _) => "unexpected answer".toList
      | .error error =>
        "not recorded (".toList ++ error ++ ")".toList))

def start (request : Request) (waiting : Waiting) : Waiting :=
  match request with
  | revoke _ serial => .start (waiting.revoked.absorb id [serial])
  | _ => .start waiting.revoked

theorem start_out (request : Request) (waiting : Waiting) : (request.start waiting).out = none := by
  cases request <;> rfl

end Request

/-- The kernel and the gateway. -/
def system : Protocol Request Disk Host Bytes Waiting (Except Text Answer) where
  messages := Request.messages
  start := Request.start
  receive request := receive request.wanted
  result := Waiting.out
  serve := handlePeer

abbrev Link := State Request Disk Host Bytes Waiting (Except Text Answer)

abbrev EndedCall := Ended Request Disk Host Bytes (Except Text Answer)

def timeOut : Except Text Answer := .error "the gateway did not answer".toList

def returned (call : EndedCall) : Returned := call.request.returns (call.result.getD timeOut)

def session (host : Host) (revoked : BoundedVec UInt64 maxRevoked) : Link where
  toServer := []
  toClient := []
  server := host
  client := .start revoked
  active := none
  calls := 0
  handled := []
  ended := []

/-! ## Answers that belong to their requests -/

/-- How the kernel reads a group of answers. -/
def readAnswers (kind : UInt8) (answers : List Bytes) : Option (Except Text Answer) :=
  (answers.foldl (receive kind) (.start .empty)).out

/-- What the answer to a request says about the disk of the gateway. -/
def Means : Request → Except Text Answer → Handled Disk Host Bytes → Prop
  | _, .error _, _ => True
  | .storePut envelope _, .ok (.done _), handled =>
    ∃ file, handled.after.sealed = some file ∧ file.contents = some envelope
  | .storeGet, .ok (.done _), handled =>
    ∃ file, handled.before.sealed = some file ∧ file.contents = none
  | .storeGet, .ok (.blob data), handled =>
    ∃ file, handled.before.sealed = some file ∧ file.contents = some data
  | .fetchImport file, .ok (.blob data), handled =>
    ∃ contents, handled.before.caps.inbox.lookup (CapDir.pcap file.text) = some contents ∧
        data = le64 handled.env.now ++ contents
  | .sendExport file cap, .ok (.done _), handled =>
    handled.after.caps.outbox.lookup (CapDir.pcap file.text) = some cap.encode
  | .revoke _ serial, .ok (.done _), handled =>
    handled.after.caps.revoked = addRevocation handled.before.caps.revoked serial
  | .storePut _ _, .ok (.blob _), _ => False
  | .fetchImport _, .ok (.done _), _ => False
  | .sendExport _ _, .ok (.blob _), _ | .revoke _ _, .ok (.blob _), _ => False

/-- A call returns the time-out error or what the gateway answered when it
handled a message of that same call. -/
def Belongs (call : EndedCall) : Prop := returned call = call.request.returns timeOut ∨
    ∃ handled ∈ call.served, ∃ answer, returned call = call.request.returns answer ∧
        readAnswers call.request.wanted handled.answers = some answer ∧
        Means call.request answer handled

/-- Whatever is read of the answers to a message is their whole meaning. -/
def Faithful (request : Request) (handled : Handled Disk Host Bytes) : Prop :=
  ∀ read waiting answer, read <+: handled.answers → waiting.out = none →
      (read.foldl (receive request.wanted) waiting).out = some answer →
        readAnswers request.wanted handled.answers = some answer ∧ Means request answer handled

/-! ### Reading one answer -/

/-- What a status says to the kernel. -/
def heard : Except Text Text → Except Text Answer
  | .ok note => .ok (.done (cutAt 200 note))
  | .error error => .error (cutAt 200 error)

theorem foldl_receive_status (kind : UInt8) (waiting : Waiting) (result : Except Text Text) :
    ((status result).foldl (receive kind) waiting).out = some (heard result) := by
  cases result <;> simp [status, heard, receive_status]

variable {read : List Bytes} {answer : Except Text Answer} {result : Except Text Text}

theorem answer_of_status (before : read <+: status result) (silent : waiting.out = none)
    (answered : (read.foldl (receive kind) waiting).out = some answer) : answer = heard result ∧
      readAnswers kind (status result) = some answer := by
  have single : ∃ message, status result = [message] := by
    cases result <;> exact ⟨_, rfl⟩
  have whole : read = status result := by
    obtain ⟨message, single⟩ := single
    rw [single] at before ⊢
    cases read with
    | nil =>
      rw [List.foldl_nil, silent] at answered
      cases answered
    | cons first rest =>
      obtain ⟨rfl, empty⟩ := List.cons_prefix_cons.mp before
      rw [List.prefix_nil.mp empty]
  have meaning := foldl_receive_status kind waiting result
  rw [whole, meaning] at answered
  cases answered
  exact ⟨rfl, foldl_receive_status kind _ result⟩

theorem answer_of_blob (noRevocations : kind ≠ revocations.byte)
    (before : read <+: (encodeBlob kind data).getD []) (silent : waiting.out = none)
    (answered : (read.foldl (receive wanted) waiting).out = some answer) :
    answer = .ok (.blob data) ∧
      readAnswers wanted ((encodeBlob kind data).getD []) = some answer := by
  cases encoded : encodeBlob kind data with
  | none =>
    rw [encoded, Option.getD_none] at before
    rw [List.prefix_nil.mp before, List.foldl_nil, silent] at answered
    cases answered
  | some messages =>
    rw [encoded, Option.getD_some] at before
    have whole : read = messages := by
      by_contra proper
      obtain ⟨assembler, equal⟩ := foldl_receive_prefix wanted waiting encoded before proper
      rw [equal, silent] at answered
      cases answered
    have completed (waiting : Waiting) : (messages.foldl (receive wanted) waiting).out =
          if kind = wanted then some (.ok (.blob data)) else waiting.out := by
      rw [foldl_receive_encodeBlob wanted waiting encoded]
      simp only [complete, if_neg noRevocations]
      split <;> rfl
    rw [whole, completed, silent] at answered
    rw [Option.getD_some, readAnswers, completed]
    split at answered
    · rename_i same
      cases answered
      exact ⟨rfl, if_pos same⟩
    · cases answered

variable {handled : Handled Disk Host Bytes}

theorem faithful_of_status (answers : handled.answers = status result)
    (means : Means request (heard result) handled) : Faithful request handled := by
  intro read waiting answer before silent answered
  rw [answers] at before ⊢
  obtain ⟨rfl, whole⟩ := answer_of_status before silent answered
  exact ⟨whole, means⟩

theorem faithful_of_blob (noRevocations : kind ≠ revocations.byte)
    (answers : handled.answers = (encodeBlob kind data).getD [])
    (means : Means request (.ok (.blob data)) handled) : Faithful request handled := by
  intro read waiting answer before silent answered
  rw [answers] at before ⊢
  obtain ⟨rfl, whole⟩ := answer_of_blob noRevocations before silent answered
  exact ⟨whole, means⟩

/-! ### One request at a time -/

section

variable (serving : handled.before.serving)
  (served : handlePeer handled.env handled.before handled.message =
    (handled.after, handled.answers))
include serving served

theorem faithful_storeGet (message : handled.message = [storeGetTag]) :
    Faithful .storeGet handled := by
  rw [message, handlePeer_storeGet _ serving] at served
  have answers := (Prod.mk.inj served).2.symm
  unfold onStoreGet at answers
  split at answers
  · exact faithful_of_status answers trivial
  rename_i file kept
  unfold StoreFile.read at answers
  split at answers
  · rename_i data read
    refine faithful_of_blob (by decide) answers ⟨file, kept, ?_⟩
    split at read
    · cases read
    · exact Except.ok.inj read
  · rename_i read
    refine faithful_of_status answers ⟨file, kept, ?_⟩
    split at read
    · cases read
    · exact Except.ok.inj read
  · exact faithful_of_status answers trivial

theorem faithful_fetchImport (message : handled.message = encodeImportRequest file.text) :
    Faithful (.fetchImport file) handled := by
  rw [message, handlePeer_importRequest _ file serving] at served
  have answers := (Prod.mk.inj served).2.symm
  split at answers
  · rename_i data read
    exact faithful_of_blob (by decide) answers (CapDir.readImport_ok read)
  · exact faithful_of_status answers trivial

theorem faithful_revoke (message : handled.message = encodeRevoke serial) :
    Faithful (.revoke committed serial) handled := by
  rw [message, handlePeer_revoke _ serial serving] at served
  obtain ⟨after, answers⟩ := Prod.mk.inj served
  apply faithful_of_status answers.symm
  cases recorded : handled.before.caps.addRevocation handled.env serial with
  | mk caps result =>
    cases result with
    | error error => trivial
    | ok done =>
      change handled.after.caps.revoked = _
      rw [← after, recorded]
      exact CapDir.addRevocation_ok recorded

end

theorem faithful_storePut (served : onBlob handled.env host store.byte envelope =
    (handled.after, handled.answers)) : Faithful (.storePut envelope fits) handled := by
  rw [onBlob, if_neg (by decide), if_neg (by decide), if_pos rfl] at served
  cases kept : host.sealed with
  | none =>
    rw [kept] at served
    exact faithful_of_status (Prod.mk.inj served).2.symm trivial
  | some file =>
    rw [kept] at served
    obtain ⟨after, answers⟩ := Prod.mk.inj served
    apply faithful_of_status answers.symm
    cases written : file.write handled.env envelope with
    | mk replaced result =>
      cases result with
      | error error => trivial
      | ok counter =>
        rw [written] at after
        exact ⟨replaced, by rw [← after], StoreFile.write_ok written⟩

theorem faithful_sendExport (served : onBlob handled.env host export.byte
      (Request.exportPayload file cap) = (handled.after, handled.answers)) :
    Faithful (.sendExport file cap) handled := by
  rw [onBlob, if_pos rfl] at served
  obtain ⟨after, answers⟩ := Prod.mk.inj served
  apply faithful_of_status answers.symm
  cases written : host.caps.writeExport handled.env (Request.exportPayload file cap) with
  | mk caps result =>
    cases result with
    | error error => trivial
    | ok path =>
      change handled.after.caps.outbox.lookup _ = _
      rw [← after, written]
      exact CapDir.writeExport_ok written

/-! ### The messages of one call -/

variable {served : List (Handled Disk Host Bytes)} {first last : Host}

theorem answers_of_idle (serving : first.serving) (serves : Serves system first last served)
    (chunks : ∀ handled ∈ served, IsChunk handled.message)
    (idle : ∃ count, (first.blobs.pushAll (served.map Handled.message)).2 =
      List.replicate count (.ok none)) : served.flatMap Handled.answers = [] ∧ last = { first with
        blobs := (first.blobs.pushAll (served.map Handled.message)).1 } := by
  obtain ⟨count, idle⟩ := idle
  induction served generalizing first count with
  | nil => exact ⟨rfl, serves.symm⟩
  | cons handled rest ih =>
    obtain ⟨rfl, step, later⟩ := serves
    cases count with
    | zero => cases idle
    | succ count =>
      rw [List.replicate_succ] at idle
      obtain ⟨pushed, others⟩ := List.cons.inj idle
      have stepped := handlePeer_chunk handled.env serving (chunks handled List.mem_cons_self)
      rw [pushed] at stepped
      have equal := stepped.symm.trans step
      obtain ⟨after, answers⟩ := Prod.mk.inj equal
      rw [← after] at later
      have stillServing : ({ handled.before with
            blobs := (handled.before.blobs.push handled.message).1 } :
            Host).serving :=
        serving
      obtain ⟨nothing, reached⟩ := ih stillServing later
        (fun other present => chunks other (.tail _ present)) count others
      refine ⟨?_, reached⟩
      rw [List.flatMap_cons, nothing, ← answers]
      rfl

/-- If there is anything to read after some chunks of a blob, they were all of
them, and the answers are those to the blob. -/
theorem served_of_blob (encoded : encodeBlob kind data = some messages)
    (serving : first.serving) (serves : Serves system first last served)
    (sent : served.map Handled.message <+: messages) (heard : served.flatMap Handled.answers ≠ []) :
    ∃ handled ∈ served, ∃ host, served.flatMap Handled.answers = handled.answers ∧
        onBlob handled.env host kind data = (handled.after, handled.answers) := by
  have chunks : ∀ handled ∈ served, IsChunk handled.message := by
    intro handled present
    apply isChunk_of_encodeBlob encoded
    exact sent.subset (List.mem_map_of_mem present)
  have whole : served.map Handled.message = messages := by
    by_contra proper
    exact heard (answers_of_idle serving serves chunks
      ⟨_, first.blobs.pushAll_of_prefix encoded sent proper⟩).1
  obtain ⟨front, handled, rfl⟩ : ∃ front handled, served = front ++ [handled] := by
    rcases List.eq_nil_or_concat' served with rfl | concat
    · exact absurd rfl heard
    · exact concat
  obtain ⟨between, early, rfl, step, -⟩ := serves.split
  rw [List.map_append, List.map_singleton] at whole
  have frontSent : front.map Handled.message <+: messages := ⟨_, whole⟩
  have frontProper : front.map Handled.message ≠ messages := by
    intro equal
    rw [equal] at whole
    simp at whole
  have frontIdle := first.blobs.pushAll_of_prefix encoded frontSent frontProper
  obtain ⟨nothing, reached⟩ := answers_of_idle serving early
    (fun other present => chunks other (List.mem_append_left _ present))
    ⟨_, frontIdle⟩
  have outcomes := BlobAssembler.pushAll_append first.blobs
    (front.map Handled.message) [handled.message]
  obtain ⟨count, pushed⟩ := first.blobs.pushAll_encodeBlob encoded
  rw [whole, pushed] at outcomes
  have last := congrArg List.getLast? outcomes
  simp only [BlobAssembler.pushAll, List.getLast?_append, List.getLast?_singleton,
    Option.some_or, Option.some.injEq] at last
  have stillServing : handled.before.serving := by
    rw [reached]
    exact serving
  have assembled : handled.before.blobs = (first.blobs.pushAll (front.map Handled.message)).1 := by
    rw [reached]
  have stepped := handlePeer_chunk handled.env stillServing
    (chunks handled (List.mem_append_right _ List.mem_cons_self))
  rw [assembled, ← last] at stepped
  refine ⟨handled, List.mem_append_right _ List.mem_cons_self, _, ?_, stepped.symm.trans step⟩
  rw [List.flatMap_append, nothing]
  simp

/-- If there is anything to read after a request of one message, that message
was handled. -/
theorem served_of_single (serves : Serves system first last served)
    (sent : served.map Handled.message <+: [message])
    (heard : served.flatMap Handled.answers ≠ []) :
    ∃ handled ∈ served, served.flatMap Handled.answers = handled.answers ∧ handled.before = first ∧
        handled.message = message ∧ handlePeer handled.env handled.before handled.message =
          (handled.after, handled.answers) := by
  cases served with
  | nil => exact absurd rfl heard
  | cons handled rest =>
    obtain ⟨same, empty⟩ := List.cons_prefix_cons.mp sent
    obtain rfl : rest = [] := by simpa using empty
    exact ⟨handled, List.mem_cons_self, by simp, serves.1, same, serves.2.1⟩

theorem answers_of_unattested
    (serves : Serves system first last served) (refusing : first.serving = false) :
    ∀ handled ∈ served, handled.answers = status (.error notAttested) := by
  induction served generalizing first with
  | nil => simp
  | cons handled rest ih =>
    obtain ⟨rfl, step, later⟩ := serves
    obtain ⟨after, answers⟩ := Prod.mk.inj ((handlePeer_unattested handled.env handled.message
        refusing).symm.trans step)
    intro other present
    rcases List.mem_cons.mp present with rfl | present
    · exact answers.symm
    · rw [← after] at later
      exact ih later refusing other present

theorem out_of_statuses (kind : UInt8) (waiting : Waiting)
    (same : ∀ message ∈ read, message ∈ status result) :
    (read.foldl (receive kind) waiting).out = waiting.out ∨
      (read.foldl (receive kind) waiting).out = some (heard result) := by
  induction read generalizing waiting with
  | nil => exact .inl rfl
  | cons message rest ih =>
    have alone : status result = [message] := by
      have first := same message List.mem_cons_self
      cases result <;> simpa [status, eq_comm] using first
    have answered := foldl_receive_status kind waiting result
    rw [alone, List.foldl_cons, List.foldl_nil] at answered
    rw [List.foldl_cons, ← answered]
    rcases ih (receive kind waiting message)
        (fun other present => same other (.tail _ present)) with kept | last
    · exact .inr kept
    · exact .inr (last.trans answered.symm)

/-! ### Whole runs -/

theorem belongs_of_unattested (serves : Serves system first last call.served)
    (refusing : first.serving = false) (before : read <+: call.served.flatMap Handled.answers)
    (result : call.result = some answer) (answered : (read.foldl (receive call.request.wanted)
      (call.request.start client)).out = some answer) : Belongs call := by
  have refusals := answers_of_unattested serves refusing
  have same : ∀ message ∈ read, message ∈ status (.error notAttested) := by
    intro message present
    obtain ⟨handled, served, sent⟩ := List.mem_flatMap.mp (before.subset present)
    rwa [refusals handled served] at sent
  have silent := call.request.start_out client
  rcases out_of_statuses call.request.wanted (call.request.start client) same with nothing | refusal
  · rw [nothing, silent] at answered
    cases answered
  rw [refusal] at answered
  cases answered
  obtain ⟨handled, served⟩ : ∃ handled, handled ∈ call.served := by
    apply List.exists_mem_of_ne_nil
    intro empty
    rw [empty, List.flatMap_nil] at before
    rw [List.prefix_nil.mp before, List.foldl_nil, silent] at refusal
    cases refusal
  refine .inr ⟨handled, served, heard (.error notAttested), ?_, ?_, ?_⟩
  · rw [returned, result, Option.getD_some]
  · rw [refusals handled served]
    exact foldl_receive_status _ _ _
  · cases call.request <;> trivial

/-- An attested gateway from which there is anything to read has handled the
request, and its answers say what it did. -/
theorem exists_faithful (request : Request) (serving : first.serving)
    (serves : Serves system first last served)
    (sent : served.map Handled.message <+: request.messages)
    (heard : served.flatMap Handled.answers ≠ []) :
    ∃ handled ∈ served, served.flatMap Handled.answers = handled.answers ∧
        Faithful request handled := by
  cases request with
  | storePut envelope fits =>
    obtain ⟨messages, encoded⟩ := encodeBlob_of_fits store.byte
      (List.length_pos_iff.mpr fits.1) fits.2
    rw [Request.messages, encoded, Option.getD_some] at sent
    obtain ⟨handled, present, host, answers, stored⟩ :=
      served_of_blob encoded serving serves sent heard
    exact ⟨handled, present, answers, faithful_storePut stored⟩
  | storeGet =>
    obtain ⟨handled, present, answers, rfl, message, handling⟩ := served_of_single serves sent heard
    exact ⟨handled, present, answers, faithful_storeGet serving handling message⟩
  | fetchImport file =>
    obtain ⟨handled, present, answers, rfl, message, handling⟩ := served_of_single serves sent heard
    exact ⟨handled, present, answers, faithful_fetchImport serving handling message⟩
  | sendExport file cap =>
    have short := length_fileName file
    have bounded := cap.length_encode
    obtain ⟨messages, encoded⟩ : ∃ messages, encodeBlob export.byte
          (Request.exportPayload file cap) = some messages := by
      apply encodeBlob_of_fits
      · simp [Request.exportPayload]
      · simp only [Request.exportPayload, List.length_append, Name.length_bytes, maxBlob]
        omega
    rw [Request.messages, encoded, Option.getD_some] at sent
    obtain ⟨handled, present, host, answers, stored⟩ :=
      served_of_blob encoded serving serves sent heard
    exact ⟨handled, present, answers, faithful_sendExport stored⟩
  | revoke committed serial =>
    obtain ⟨handled, present, answers, rfl, message, handling⟩ := served_of_single serves sent heard
    exact ⟨handled, present, answers, faithful_revoke serving handling message⟩

/-- What a call reads from the answers to its own messages is the gateway's
answer to its request. -/
theorem belongs_of_own (own : Own system call) : Belongs call := by
  cases result : call.result with
  | none =>
    left
    rw [returned, result, Option.getD_none]
  | some answer =>
    obtain ⟨first, last, client, read, serves, sent, before, answered⟩ := own answer result
    cases serving : first.serving with
    | false =>
      exact belongs_of_unattested serves serving before result answered
    | true =>
      have heard : call.served.flatMap Handled.answers ≠ [] := by
        intro nothing
        rw [nothing] at before
        rw [List.prefix_nil.mp before] at answered
        have silent := call.request.start_out client
        exact absurd (silent.symm.trans answered) (by simp)
      obtain ⟨handled, served, answers, faithful⟩ :=
        exists_faithful call.request serving serves sent heard
      rw [answers] at before
      obtain ⟨whole, means⟩ := faithful read _ answer before
        (call.request.start_out client) answered
      refine .inr ⟨handled, served, answer, ?_, whole, means⟩
      rw [returned, result, Option.getD_some]

/-- In every session in which each call starts with nothing under way on the
link, each call returns the time-out error or the gateway's answer to its own
request. -/
theorem answers_belong
    (host : Host)
    (revoked : BoundedVec UInt64 maxRevoked)
    (labels : List (Label Request Disk))
    (quiet : Run.Along (step system) Quiet (session host revoked) labels) :
    ∀ call ∈ (after (step system) (session host revoked) labels).ended, Belongs call := by
  have sound : Sound system (session host revoked) :=
    ⟨by simp [session], by simp [session], by simp [session], by simp [session]⟩
  intro call ended
  exact belongs_of_own (ownAnswers sound quiet call ended)

/-! ## Two concrete sessions -/

/-- An attested gateway that keeps a store, with nothing in it yet. -/
def sampleHost : Host where
  serving := true
  caps := ⟨"caps".toList, none, ∅, ∅, ∅, ∅⟩
  sealed := some ⟨"store".toList, none⟩
  blobs := .initial

def sampleDisk : Disk := ⟨1000, 1, none, none, fun _ => none⟩

def sampleEnvelope (counter : UInt64) : Bytes :=
  Envelope.encode ⟨counter, [1], [2], [], Fixed.replicate 12 0, List.replicate 16 0⟩

theorem sampleEnvelope_fits (counter : UInt64) :
    sampleEnvelope counter ≠ [] ∧ (sampleEnvelope counter).length ≤ maxBlob := by
  have magicLength : Envelope.storeMagic.length = 12 := by decide
  have length : (sampleEnvelope counter).length = 59 := by
    simp [sampleEnvelope, Envelope.encode, Envelope.header, nested, magicLength]
  refine ⟨?_, by rw [length]; decide⟩
  intro empty
  rw [empty] at length
  cases length

def samplePut (counter : UInt64) : Request :=
  .storePut (sampleEnvelope counter) (sampleEnvelope_fits counter)

/-- An envelope is put and read back. -/
def putThenGet : List (Label Request Disk) := [.call (samplePut 7), .serve sampleDisk, .receive 1,
    .call .storeGet, .serve sampleDisk, .receive 1]

theorem answers_belong_put_get : (after (step system) (session sampleHost .empty)
    putThenGet).ended.length = 2 ∧ ∀ call ∈ (after (step system) (session sampleHost .empty)
    putThenGet).ended, Belongs call :=
  ⟨by decide +kernel, answers_belong sampleHost .empty putThenGet (by decide +kernel)⟩

/-- A put runs out of time, and the next one is answered with what the gateway
says to the first. -/
def putTwice : List (Label Request Disk) :=
  [.call (samplePut 7), .giveUp, .call (samplePut 8), .serve sampleDisk, .receive 1]

/-- The second put succeeds although the gateway has not handled it. -/
theorem put_takes_stale_answer : ¬∀ call ∈ (after (step system) (session sampleHost .empty)
    putTwice).ended, Belongs call := by
  intro belong
  obtain ⟨call, ended, success, unserved⟩ :
      ∃ call ∈ (after (step system) (session sampleHost .empty) putTwice).ended,
        returned call = .put (.ok ()) ∧ call.served.isEmpty := by
    decide +kernel
  rw [List.isEmpty_iff] at unserved
  rcases belong call ended with timedOut | ⟨handled, served, -⟩
  · rw [success] at timedOut
    cases call with
    | mk request result served => cases request <;> cases timedOut
  · rw [unserved] at served
    cases served

end Cdk.Peer

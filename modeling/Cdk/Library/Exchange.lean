import Cdk.Library.Run

/-!
# Requests and answers over ordered channels

A client makes one call at a time: it sends the messages of a request and reads batches until it
has a result or gives up.  A server handles the messages in order, at its own pace, and its
answers do not say which request they answer.  `ownAnswers`: if every call starts with empty
channels, a result is read from the answers to the messages of that same call.
-/

namespace Exchange

variable {Request Env Server Message Client Result : Type}

/-- The two programs of an exchange. -/
structure Protocol (Request Env Server Message Client Result : Type) where
  messages : Request → List Message
  start : Request → Client → Client
  /-- The client reads one message. -/
  receive : Request → Client → Message → Client
  result : Client → Option Result
  /-- The server handles one message. -/
  serve : Env → Server → Message → Server × List Message

/-- What the server did for one message. -/
structure Handled (Env Server Message : Type) where
  env : Env
  message : Message
  before : Server
  after : Server
  answers : List Message

/-- A call that has ended: with a result or by giving up, and what the server
had done for it by then. -/
structure Ended (Request Env Server Message Result : Type) where
  request : Request
  result : Option Result
  served : List (Handled Env Server Message)

/-- Both parties and the channels between them. -/
structure State (Request Env Server Message Client Result : Type) where
  /-- Messages on their way to the server, with the number of their call. -/
  toServer : List (Nat × Message)
  toClient : List Message
  server : Server
  client : Client
  /-- The call under way. -/
  active : Option (Nat × Request)
  calls : Nat
  /-- History: everything the server has handled. -/
  handled : List (Nat × Handled Env Server Message)
  /-- History: the calls that have ended. -/
  ended : List (Ended Request Env Server Message Result)

/-- What can happen. -/
inductive Label (Request Env : Type) where
  | call (request : Request)
  | serve (env : Env)
  | receive (count : Nat)
  | giveUp

namespace State

variable (state : State Request Env Server Message Client Result)

def served (call : Nat) : List (Handled Env Server Message) :=
  (state.handled.filter fun entry => entry.1 == call).map Prod.snd

/-- End a call with its result. -/
def finish (call : Nat) (request : Request) (result : Option Result) :
    State Request Env Server Message Client Result :=
  { state with
    active := none
    ended := state.ended ++ [⟨request, result, state.served call⟩] }

end State

variable (protocol : Protocol Request Env Server Message Client Result)
  (state : State Request Env Server Message Client Result)

/-- One step. -/
def step : Label Request Env → State Request Env Server Message Client Result
  | .call request =>
    match state.active with
    | some _ => state
    | none =>
      { state with
        toServer := state.toServer ++ (protocol.messages request).map (state.calls, ·)
        client := protocol.start request state.client
        active := some (state.calls, request)
        calls := state.calls + 1 }
  | .serve env =>
    match state.toServer with
    | [] => state
    | (call, message) :: rest =>
      let served := protocol.serve env state.server message
      { state with
        toServer := rest
        toClient := state.toClient ++ served.2
        server := served.1
        handled := state.handled ++ [(call, ⟨env, message, state.server, served.1, served.2⟩)] }
  | .receive count =>
    match state.active with
    | none => state
    | some (call, request) =>
      let read : State Request Env Server Message Client Result :=
        { state with
          toClient := state.toClient.drop count
          client := (state.toClient.take count).foldl (protocol.receive request) state.client }
      match protocol.result read.client with
      | none => read
      | some result => read.finish call request (some result)
  | .giveUp =>
    match state.active with
    | none => state
    | some (call, request) => state.finish call request none

/-- A call starts with nothing under way in either direction. -/
def Quiet : Label Request Env → Prop
  | .call _ => state.toServer = [] ∧ state.toClient = []
  | _ => True

instance [DecidableEq Message] : ∀ label, Decidable (Quiet state label)
  | .call _ =>
    inferInstanceAs (Decidable (state.toServer = [] ∧ state.toClient = []))
  | .serve _ | .receive _ | .giveUp => isTrue trivial

/-- The server handles messages one after the other, from one state to
another. -/
def Serves (first last : Server) : List (Handled Env Server Message) → Prop
  | [] => first = last
  | entry :: rest =>
    entry.before = first ∧ protocol.serve entry.env entry.before entry.message =
        (entry.after, entry.answers) ∧
      Serves entry.after last rest

/-- A result was read from the answers to messages of its own request. -/
def Own (entry : Ended Request Env Server Message Result) : Prop :=
  ∀ result, entry.result = some result → ∃ first last client read,
      Serves protocol first last entry.served ∧
        entry.served.map Handled.message <+: protocol.messages entry.request ∧
        read <+: entry.served.flatMap Handled.answers ∧
        protocol.result (read.foldl (protocol.receive entry.request)
            (protocol.start entry.request client)) = some result

variable {protocol}

theorem Serves.concat (early : Serves protocol first between entries)
    (served : protocol.serve env between message = (last, answers)) :
    Serves protocol first last (entries ++ [⟨env, message, between, last, answers⟩]) := by
  induction entries generalizing first with
  | nil => exact ⟨Eq.symm early, served, rfl⟩
  | cons entry rest ih =>
    exact ⟨early.1, early.2.1, ih early.2.2⟩

theorem Serves.split (whole : Serves protocol first last (early ++ late)) :
    ∃ between, Serves protocol first between early ∧
        Serves protocol between last late := by
  induction early generalizing first with
  | nil => exact ⟨first, rfl, whole⟩
  | cons entry rest ih =>
    obtain ⟨between, front, back⟩ := ih whole.2.2
    exact ⟨between, ⟨whole.1, whole.2.1, front⟩, back⟩

/-! ## The rule -/

variable (protocol)

/-- Where the parties are with the call under way: the server has handled some
of its messages, the others are the queue, and the client has read some of the
answers, the others are the channel back. -/
structure Underway (call : Nat) (request : Request) : Prop where
  serves : ∃ first, Serves protocol first state.server (state.served call)
  queue : ∃ rest, protocol.messages request = (state.served call).map Handled.message ++ rest ∧
      state.toServer = rest.map (call, ·)
  reads : ∃ client read, (state.served call).flatMap Handled.answers = read ++ state.toClient ∧
      state.client = read.foldl (protocol.receive request) (protocol.start request client)

/-- The invariant of quiet runs. -/
structure Sound : Prop where
  own : ∀ entry ∈ state.ended, Own protocol entry
  handled : ∀ entry ∈ state.handled, entry.1 < state.calls
  queued : ∀ entry ∈ state.toServer, entry.1 < state.calls
  underway : ∀ call request, state.active = some (call, request) →
    Underway protocol state call request

variable {protocol state}

theorem served_of_new (handled : ∀ entry ∈ state.handled, entry.1 < state.calls) :
    state.served state.calls = [] := by
  simp only [State.served, List.map_eq_nil_iff, List.filter_eq_nil_iff, beq_iff_eq]
  intro entry present
  exact Nat.ne_of_lt (handled entry present)

theorem Sound.finish
    (sound : Sound protocol state) (call : Nat) (request : Request) (result : Option Result)
    (own : Own protocol ⟨request, result, state.served call⟩) :
    Sound protocol (state.finish call request result) where
  own := by
    exact List.forall_mem_append.mpr ⟨sound.own, List.forall_mem_singleton.mpr own⟩
  handled := sound.handled
  queued := sound.queued
  underway := by
    rintro call request ⟨⟩

theorem Sound.call (sound : Sound protocol state) (request : Request)
    (quiet : state.toServer = [] ∧ state.toClient = []) :
    Sound protocol (step protocol state (.call request)) := by
  cases idle : state.active with
  | some active => simpa only [step, idle] using sound
  | none =>
    simp only [step, idle]
    refine ⟨sound.own, fun entry present =>
      Nat.lt_succ_of_lt (sound.handled entry present), ?_, ?_⟩
    · intro entry present
      rw [quiet.1, List.nil_append] at present
      obtain ⟨message, -, rfl⟩ := List.mem_map.mp present
      exact Nat.lt_succ_self _
    rintro call request ⟨⟩
    have nothing := served_of_new sound.handled
    exact
      { serves := ⟨state.server, by
          simp only [State.served] at nothing ⊢
          rw [nothing]
          rfl⟩
        queue := ⟨protocol.messages request, by
          simp only [State.served] at nothing ⊢
          rw [nothing, quiet.1]
          exact ⟨rfl, rfl⟩⟩
        reads := ⟨state.client, [], by
          simp only [State.served] at nothing ⊢
          rw [nothing, quiet.2]
          exact ⟨rfl, rfl⟩⟩ }

variable {request : Request}

theorem Underway.serve (underway : Underway protocol state call request) (env : Env) :
    Underway protocol (step protocol state (.serve env)) call request := by
  obtain ⟨first, serves⟩ := underway.serves
  obtain ⟨rest, messages, queue⟩ := underway.queue
  obtain ⟨client, read, answers, reading⟩ := underway.reads
  cases rest with
  | nil =>
    have empty : state.toServer = [] := queue
    simpa only [step, empty] using underway
  | cons message rest =>
    have front : state.toServer = (call, message) :: rest.map (call, ·) := queue
    have grown : (step protocol state (.serve env)).served call = state.served call ++
            [⟨env, message, state.server, (protocol.serve env state.server message).1,
              (protocol.serve env state.server message).2⟩] := by
      simp [step, front, State.served]
    refine ⟨⟨first, ?_⟩, ⟨rest, ?_, ?_⟩, ⟨client, read, ?_, ?_⟩⟩
    · rw [grown]
      simp only [step, front]
      exact serves.concat rfl
    · rw [grown, messages]
      simp
    · simp only [step, front]
    · rw [grown, List.flatMap_append, answers]
      simp [step, front]
    · simpa only [step, front] using reading

theorem Sound.serve (sound : Sound protocol state) (env : Env) :
    Sound protocol (step protocol state (.serve env)) := by
  have underway : ∀ call request, (step protocol state (.serve env)).active = some (call, request) →
        Underway protocol (step protocol state (.serve env)) call request := by
    intro call request active
    apply Underway.serve
    apply sound.underway
    rw [← active]
    simp only [step]
    split <;> rfl
  cases queue : state.toServer with
  | nil => simpa only [step, queue] using sound
  | cons entry rest =>
    have early := sound.queued entry (by simp [queue])
    refine ⟨?_, ?_, ?_, underway⟩
    · simpa only [step, queue] using sound.own
    · simp only [step, queue]
      exact List.forall_mem_append.mpr ⟨sound.handled, List.forall_mem_singleton.mpr early⟩
    · simp only [step, queue]
      intro other present
      exact sound.queued other (by rw [queue]; exact .tail _ present)

/-- Reading a batch moves it from the channel to what has been read. -/
theorem Underway.receive (underway : Underway protocol state call request) (count : Nat) :
    Underway protocol
      { state with
        toClient := state.toClient.drop count
        client := (state.toClient.take count).foldl
          (protocol.receive request) state.client } call request := by
  obtain ⟨client, read, answers, reading⟩ := underway.reads
  refine ⟨underway.serves, underway.queue, ⟨client, read ++ state.toClient.take count, ?_, ?_⟩⟩
  · rw [List.append_assoc, List.take_append_drop]
    exact answers
  · rw [List.foldl_append, ← reading]

theorem Underway.own (underway : Underway protocol state call request)
    (answered : protocol.result state.client = some result) :
    Own protocol ⟨request, some result, state.served call⟩ := by
  rintro result ⟨⟩
  obtain ⟨first, serves⟩ := underway.serves
  obtain ⟨rest, messages, -⟩ := underway.queue
  obtain ⟨client, read, answers, reading⟩ := underway.reads
  refine ⟨first, state.server, client, read, serves, ?_, ?_, ?_⟩
  · exact ⟨rest, messages.symm⟩
  · exact ⟨state.toClient, answers.symm⟩
  · rw [← reading]
    exact answered

theorem Sound.receive (sound : Sound protocol state) (count : Nat) :
    Sound protocol (step protocol state (.receive count)) := by
  cases active : state.active with
  | none => simpa only [step, active] using sound
  | some entry =>
    obtain ⟨call, request⟩ := entry
    have underway := (sound.underway call request active).receive count
    have read : Sound protocol
        { state with
          toClient := state.toClient.drop count
          client := (state.toClient.take count).foldl
            (protocol.receive request) state.client } := by
      refine ⟨sound.own, sound.handled, sound.queued, ?_⟩
      intro other otherRequest same
      rw [active] at same
      cases same
      exact underway
    simp only [step, active]
    split
    · simpa only [active] using read
    · rename_i result answered
      have finished := read.finish call request (some result) (underway.own answered)
      simpa only [active] using finished

theorem Sound.giveUp (sound : Sound protocol state) :
    Sound protocol (step protocol state .giveUp) := by
  simp only [step]
  split
  · exact sound
  · exact sound.finish _ _ none fun result impossible => by cases impossible

/-- If every call starts with empty channels, every result is read from the
answers to the messages of its own call. -/
theorem ownAnswers (sound : Sound protocol first)
    (quiet : Run.Along (step protocol) Quiet first labels) :
    ∀ entry ∈ (Run.after (step protocol) first labels).ended, Own protocol entry := by
  have kept : Sound protocol (Run.after (step protocol) first labels) := by
    refine Run.invariant sound ?_ quiet
    intro state label sound quiet
    cases label with
    | call request => exact sound.call request quiet
    | serve env => exact sound.serve env
    | receive count => exact sound.receive count
    | giveUp => exact sound.giveUp
  exact kept.own

end Exchange

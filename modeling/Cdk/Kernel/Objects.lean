import Cdk.Library.Bounded
import Cdk.Library.ByteFormat

/-!
# Kernel objects and their message queues

The part of the kernel that peer messages reach: objects with a name and a
queue of at most eight messages, the lookup by exact name and the direct send.
-/

namespace Cdk.Kernel

open ByteFormat

/-- The longest id or sender label. -/
def maxId : Nat := 64

/-- Messages an object's queue holds. -/
def maxMessages : Nat := 8

/-- What a message carries. -/
inductive MessagePayload where
  | data (bytes : Bytes)
  | text (text : Bytes)
  | command (text : Bytes)
  | request (method : Bytes) (params : List Bytes)
  | response (result : Bytes)
  deriving DecidableEq

/-- A message in an object's queue. -/
structure Message where
  «from» : Bytes
  «to» : Bytes
  payload : MessagePayload
  deriving DecidableEq

/-- Build a message, unless a field is too long. -/
def Message.new (sentBy sentTo : Bytes) (payload : MessagePayload) : Option Message :=
  if sentBy.length > maxId || sentTo.length > maxId then none
  else some ⟨sentBy, sentTo, payload⟩

/-- A kernel object. -/
structure KernelObject where
  id : Bytes
  idFits : id.length ≤ maxId
  kind : Bytes
  queue : BoundedVec Message maxMessages
  deriving DecidableEq

/-- The registered objects, each under its own id. -/
structure Objects where
  list : List KernelObject
  distinct : (list.map KernelObject.id).Nodup
  deriving DecidableEq

/-- Errors of the direct send. -/
inductive KernelError where
  | objectNotFound
  | messageQueueFull
  deriving DecidableEq

namespace Objects

/-- The only object of a kind. -/
def findFrom (name : Bytes) : Option Bytes → List KernelObject → Option Bytes
  | found, [] => found
  | found, object :: rest =>
    if object.kind = name then
      if found.isSome then none else findFrom name (some object.id) rest
    else findFrom name found rest

def findByName (objects : Objects) (name : Bytes) : Option Bytes := findFrom name none objects.list

def get (objects : Objects) (id : Bytes) : Option KernelObject :=
  objects.list.find? fun object => object.id == id

/-- Replace the queue of an object. -/
def setQueue (objects : Objects) (id : Bytes)
    (queue : BoundedVec Message maxMessages) : Objects where
  list := objects.list.map fun object =>
    if object.id = id then { object with queue := queue } else object
  distinct := by
    have ids :
        (objects.list.map fun object =>
          if object.id = id then { object with queue := queue }
          else object).map KernelObject.id = objects.list.map KernelObject.id := by
      rw [List.map_map]
      apply List.map_congr_left
      intro object _
      simp only [Function.comp]
      split <;> rfl
    rw [ids]
    exact objects.distinct

/-- Append a message to a queue. -/
def sendMessageDirect (objects : Objects) (id : Bytes) (message : Message) :
    Except KernelError Objects :=
  match objects.get id with
  | none => .error .objectNotFound
  | some object =>
    if object.queue.items.length ≥ 8 then .error .messageQueueFull
    else match object.queue.push? message with
      | none => .error .messageQueueFull
      | some queue => .ok (objects.setQueue id queue)

theorem mem_of_findFrom {name id : Bytes} {list : List KernelObject}
    (result : findFrom name found list = some id) :
    found = some id ∨ ∃ object ∈ list, object.id = id ∧ object.kind = name := by
  induction list generalizing found with
  | nil => exact .inl result
  | cons object rest ih =>
    rw [findFrom] at result
    split at result
    · rename_i named
      split at result
      · cases result
      · rcases ih result with here | ⟨other, present, same⟩
        · exact .inr ⟨object, List.mem_cons_self, Option.some.inj here, named⟩
        · exact .inr ⟨other, List.mem_cons_of_mem _ present, same⟩
    · rcases ih result with before | ⟨other, present, same⟩
      · exact .inl before
      · exact .inr ⟨other, List.mem_cons_of_mem _ present, same⟩

variable {objects : Objects}

theorem get_of_findByName {name id : Bytes} (found : objects.findByName name = some id) :
    ∃ object, objects.get id = some object ∧ object.id = id := by
  rcases mem_of_findFrom found with impossible | ⟨object, present, same, -⟩
  · cases impossible
  cases got : objects.get id with
  | none =>
    have missing := List.find?_eq_none.mp got object present
    simp [same] at missing
  | some other =>
    have here := List.find?_some got
    exact ⟨other, rfl, by simpa using here⟩

def queueFull (objects : Objects) (id : Bytes) : Bool :=
  match objects.get id with
  | none => false
  | some object => object.queue.items.length ≥ 8

theorem sendMessageDirect_error_iff {id : Bytes} (got : objects.get id = some object)
    (message : Message) : (∃ error, objects.sendMessageDirect id message = .error error) ↔
      objects.queueFull id := by
  simp only [sendMessageDirect, queueFull, got]
  split
  · rename_i full
    simp [full]
  rename_i room
  have pushed : ∃ queue, object.queue.push? message = some queue := by
    cases pushed : object.queue.push? message with
    | none =>
      rw [BoundedVec.push?_eq_none_iff] at pushed
      exact absurd (Nat.lt_of_not_le room) pushed
    | some queue => exact ⟨queue, rfl⟩
  obtain ⟨queue, pushed⟩ := pushed
  simp [pushed, room]

end Objects

end Cdk.Kernel

import YouMi.Gateway.Models
import YouMi.Library.OrderedDict

/-!
# Task events

A client of `stream_events` has a queue, of what it is still to be sent: snapshots of a
record, and at last the end of the stream.  While it is subscribed the hub appends to
its queue what is published for its task.
-/

namespace YouMi.Gateway

open YouMi.Library

/-- A snapshot, or the end of a stream. -/
abbrev Frame := Option TaskRecord

inductive ClientStage where
  /-- Past the checks of the request; the stream has not begun. -/
  | requested
  | open
  | gone
  deriving DecidableEq

structure Client where
  taskId : String
  stage : ClientStage := .requested
  pending : List Frame := []
  received : List Frame := []
  /-- How many tasks had been submitted, and snapshots published, when the stream began. -/
  tasksBefore : Nat := 0
  publishedBefore : Nat := 0

/-- More is put into the queue of a client. -/
def Client.send (client : Client) (frames : List Frame) : Client :=
  { client with pending := client.pending ++ frames }

/-- Everything that was put into the queue of a client, what it has received first. -/
def Client.frames (client : Client) : List Frame := client.received ++ client.pending

@[simp]
theorem Client.frames_send (client : Client) (frames : List Frame) :
    (client.send frames).frames = client.frames ++ frames :=
  (List.append_assoc _ _ _).symm

structure TaskEventHub where
  subscribers : OrderedDict String (List Nat) := []
  closed : List String := []
  /-- Everyone who ever asked for a stream. -/
  clients : List Client := []

/-- What is sent to a list of clients. -/
def sendEach (clients : List Client) (targets : List Nat) (frame : Frame) : List Client :=
  targets.foldl (fun clients target => clients.modify target (·.send [frame])) clients

namespace TaskEventHub

/-- `_subscribers.get(task_id, [])`. -/
def subscribed (hub : TaskEventHub) (taskId : String) : List Nat :=
  (hub.subscribers.lookup taskId).getD []

def publish (hub : TaskEventHub) (taskId : String) (event : TaskRecord) : TaskEventHub :=
  { hub with clients := sendEach hub.clients (hub.subscribed taskId) (some event) }

def close (hub : TaskEventHub) (taskId : String) : TaskEventHub :=
  { subscribers := hub.subscribers.erase taskId
    closed := taskId :: hub.closed
    clients := sendEach hub.clients (hub.subscribed taskId) none }

/-- `subscribe`, for a client whose queue is empty: a closed task gives an empty stream. -/
def subscribe (hub : TaskEventHub) (taskId : String) (client : Nat) : TaskEventHub :=
  if taskId ∈ hub.closed then { hub with clients := hub.clients.modify client (·.send [none]) }
  else
    { hub with subscribers := hub.subscribers.assign taskId (hub.subscribed taskId ++ [client]) }

/-- `_remove`. -/
def remove (hub : TaskEventHub) (taskId : String) (client : Nat) : TaskEventHub :=
  let rest := (hub.subscribed taskId).erase client
  { hub with
    subscribers :=
      if rest = [] then hub.subscribers.erase taskId else hub.subscribers.assign taskId rest }

end TaskEventHub

/-- A client gets a frame as often as it is among the targets. -/
theorem getElem?_sendEach (clients : List Client) (targets : List Nat) (frame : Frame)
    (index : Nat) :
    (sendEach clients targets frame)[index]? =
      (clients[index]?).map (·.send (List.replicate (targets.count index) frame)) := by
  unfold sendEach Client.send
  induction targets generalizing clients with
  | nil => simp
  | cons target rest ih =>
      rw [List.foldl_cons, ih, List.getElem?_modify, List.count_cons]
      cases clients[index]? with
      | none => rfl
      | some client =>
          by_cases hit : target = index
          · simp [hit, List.replicate_succ]
          · simp [hit]

namespace TaskEventHub

variable {hub : TaskEventHub} {taskId other : String} {client : Nat}

theorem subscribed_close :
    (hub.close taskId).subscribed other = if other = taskId then [] else hub.subscribed other := by
  unfold close subscribed
  dsimp only
  rw [OrderedDict.lookup_erase]
  split <;> rfl

theorem subscribed_subscribe (opened : taskId ∉ hub.closed) :
    (hub.subscribe taskId client).subscribed other =
      if other = taskId then hub.subscribed taskId ++ [client] else hub.subscribed other := by
  unfold subscribe
  rw [if_neg opened]
  unfold subscribed
  dsimp only
  rw [OrderedDict.lookup_assign]
  split <;> rfl

theorem subscribed_remove :
    (hub.remove taskId client).subscribed other =
      if other = taskId then (hub.subscribed taskId).erase client else hub.subscribed other := by
  unfold remove
  dsimp only
  by_cases emptied : (hub.subscribed taskId).erase client = []
  · rw [if_pos emptied, emptied]
    unfold subscribed
    dsimp only
    rw [OrderedDict.lookup_erase]
    split <;> rfl
  · rw [if_neg emptied]
    conv_lhs => unfold subscribed
    dsimp only
    rw [OrderedDict.lookup_assign]
    split <;> rfl

theorem mem_subscribed_of_remove {index : Nat}
    (member : index ∈ (hub.remove taskId client).subscribed other) :
    index ∈ hub.subscribed other := by
  rw [subscribed_remove] at member
  split at member
  · rename_i same
    exact same ▸ List.mem_of_mem_erase member
  · exact member

theorem mem_subscribed_remove_of_ne {index : Nat} (ne : index ≠ client) :
    index ∈ (hub.remove taskId client).subscribed other ↔ index ∈ hub.subscribed other := by
  rw [subscribed_remove]
  split
  · rename_i same
    rw [same]
    exact List.mem_erase_of_ne ne
  · exact Iff.rfl

theorem nodup_subscribed_remove (nodup : ∀ taskId, (hub.subscribed taskId).Nodup)
    (other : String) : ((hub.remove taskId client).subscribed other).Nodup := by
  rw [subscribed_remove]
  split
  · exact (nodup taskId).erase client
  · exact nodup other

end TaskEventHub

end YouMi.Gateway

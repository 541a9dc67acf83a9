import YouMi.Python.Value

/-!
# Workflow messages

The messages agents exchange over the bus.  The fields that no operation of the bus
reads (`role`, `timestamp`) are left out; every message is copied whole.
-/

namespace YouMi.Bus

open YouMi.Python

inductive WorkflowMessageType where
  | task
  | feedback
  | status
  | query
  | toolRequest
  | toolResponse
  deriving DecidableEq

/-- Tasks and results are written to the memory of the agent that gets them. -/
def WorkflowMessageType.writesToMemory : WorkflowMessageType → Bool
  | .task | .feedback => true
  | _ => false

structure WorkflowMessage where
  messageId : String
  workflowId : String := ""
  fromAgentId : String := ""
  /-- `none` is a broadcast. -/
  toAgentId : Option String := none
  msgType : WorkflowMessageType := .status
  content : String := ""
  tenant : String := "default"
  metadata : Dict := []
  /-- The empty text: no acknowledgement is needed. -/
  ackId : String := ""

namespace WorkflowMessage

def isBroadcast (message : WorkflowMessage) : Bool :=
  message.toAgentId == none || message.toAgentId == some "*"

def needsAck (message : WorkflowMessage) : Bool := message.ackId ≠ ""

/-- The message `publish` delivers: a task or a result without an `ack_id` gets a fresh one. -/
def stamp (message : WorkflowMessage) (freshAck : String) : WorkflowMessage :=
  if message.msgType.writesToMemory && !message.needsAck then { message with ackId := freshAck }
  else message

variable (message : WorkflowMessage) (freshAck : String)

/-- A stamped message is the message itself but for its `ack_id`. -/
theorem stamp_content : message.stamp freshAck = { message with ackId := (message.stamp freshAck).ackId } := by
  unfold stamp
  split <;> rfl

end WorkflowMessage

end YouMi.Bus

import Mathlib.Data.List.Sort
import YouMi.Core.Retry
import YouMi.Library.OrderedDict
import YouMi.Python.JsonText

/-!
# Streamed chat completions

`chat_stream` of `llm/client.py` reads server-sent lines and collects text, reasoning and
the fragments of tool calls from the chunks in them.  An attempt that fails before any
text has come may be repeated.  What is yielded on the way is left out, and so are spans,
the audit and the statistics of the circuit breaker.
-/

namespace YouMi.Llm

open YouMi.Core YouMi.Library YouMi.Python

/-! ## Lines -/

inductive Frame where
  | skipped
  | done
  | chunk (data : Json)

/-- A line without the prefix, or with a text that is not JSON, is skipped. -/
def frameOf (line : List Char) : Frame :=
  if "data: ".toList <+: line then
    let data := line.drop 6
    if trim isSpace data = "[DONE]".toList then .done
    else
      match Json.loads data with
      | some data => .chunk data
      | none => .skipped
  else .skipped

/-- The chunks that are read, up to the end of the stream. -/
def received : List (List Char) → List Json
  | [] => []
  | line :: rest =>
      match frameOf line with
      | .skipped => received rest
      | .done => []
      | .chunk data => data :: received rest

/-- The stream says that it is done. -/
def isDone : List (List Char) → Bool
  | [] => false
  | line :: rest =>
      match frameOf line with
      | .done => true
      | _ => isDone rest

/-! ## Chunks -/

/-- A text of an object, empty if it is absent or null. -/
def textAt (entries : List (List Char × Json)) (key : String) : Option (List Char) :=
  match entries.lookup key.toList with
  | none | some .null => some []
  | some (.str text) => some text
  | some _ => none

/-- An object in an object, empty if it is absent. -/
def objectAt (entries : List (List Char × Json)) (key : String) :
    Option (List (List Char × Json)) :=
  match entries.lookup key.toList with
  | none => some []
  | some (.dict inner) => some inner
  | some _ => none

structure ToolCallDelta where
  index : Int
  id : List Char := []
  name : List Char := []
  arguments : List Char := []

structure Chunk where
  usage : List (List Char × Json) := []
  finishReason : List Char := []
  reasoning : List Char := []
  content : List Char := []
  toolCalls : List ToolCallDelta := []

def indexOf : Json → Option Int
  | .number literal => parseInt literal
  | _ => none

def readToolCall : Json → Option ToolCallDelta
  | .dict entries => do
      let index ← (entries.lookup "index".toList).bind indexOf
      let id ← textAt entries "id"
      let function ← objectAt entries "function"
      let name ← textAt function "name"
      let arguments ← textAt function "arguments"
      some { index, id, name, arguments }
  | _ => none

/-- `(chunk.get("choices") or [{}])[0]` -/
def firstChoice : Option Json → Option (List (List Char × Json))
  | none | some .null | some (.list []) => some []
  | some (.list (.dict choice :: _)) => some choice
  | some _ => none

def usageOf : Option Json → Option (List (List Char × Json))
  | none | some .null => some []
  | some (.dict usage) => some usage
  | some _ => none

def toolCallsOf : Option Json → Option (List ToolCallDelta)
  | none => some []
  | some (.list items) => items.mapM readToolCall
  | some _ => none

/-- What the loop reads of a chunk; nothing if a part of it has not the form that the API gives
it. -/
def readChunk : Json → Option Chunk
  | .dict entries => do
      let usage ← usageOf (entries.lookup "usage".toList)
      let choice ← firstChoice (entries.lookup "choices".toList)
      let delta ← objectAt choice "delta"
      let finishReason ← textAt choice "finish_reason"
      let ollama ← textAt delta "reasoning"
      let deepSeek ← textAt delta "reasoning_content"
      let content ← textAt delta "content"
      let toolCalls ← toolCallsOf (delta.lookup "tool_calls".toList)
      some
        { usage, finishReason, content, toolCalls
          reasoning := if ollama = [] then deepSeek else ollama }
  | _ => none

/-! ## What is collected -/

structure ToolCall where
  id : List Char := []
  name : List Char := []
  arguments : List Char := []

structure Collected where
  content : List (List Char) := []
  reasoning : List (List Char) := []
  toolCalls : OrderedDict Int ToolCall := []
  finishReason : List Char := []
  usage : List (List Char × Json) := []
  receivedContent : Bool := false

def ToolCall.absorb (existing : ToolCall) (delta : ToolCallDelta) : ToolCall where
  name := if delta.name = [] then existing.name else delta.name
  arguments := existing.arguments ++ delta.arguments
  id := if delta.id = [] then existing.id else delta.id

def addToolCall (toolCalls : OrderedDict Int ToolCall) (delta : ToolCallDelta) :
    OrderedDict Int ToolCall :=
  let existing := (toolCalls.lookup delta.index).getD { id := delta.id }
  toolCalls.assign delta.index (existing.absorb delta)

namespace Collected

/-- The body of the loop over the lines, for a chunk. -/
def add (collected : Collected) (chunk : Chunk) : Collected where
  usage := if chunk.usage.isEmpty then collected.usage else chunk.usage
  finishReason := if chunk.finishReason = [] then collected.finishReason else chunk.finishReason
  reasoning :=
    if chunk.reasoning = [] then collected.reasoning else collected.reasoning ++ [chunk.reasoning]
  content := if chunk.content = [] then collected.content else collected.content ++ [chunk.content]
  receivedContent :=
    collected.receivedContent || chunk.reasoning ≠ [] || chunk.content ≠ []
  toolCalls := chunk.toolCalls.foldl addToolCall collected.toolCalls

/-- What is left for the next attempt. -/
def clear (collected : Collected) : Collected where
  receivedContent := collected.receivedContent

end Collected

/-! ## The response -/

/-- The message of a response, with its reason for finishing and its usage. -/
structure LLMResponse where
  content : Option (List Char)
  reasoning : Option (List Char)
  toolCalls : List ToolCall
  finishReason : List Char
  usage : List (List Char × Json)

/-- `LLMResponse.content` -/
def LLMResponse.text (response : LLMResponse) : List Char := response.content.getD []

/-- A tool call without an id is given one, from so many digits of a new UUID. -/
def ToolCall.withId (freshId : Nat → List Char) (place : Nat) (call : ToolCall) : ToolCall :=
  { call with id := if call.id = [] then "call_".toList ++ freshId place else call.id }

namespace Collected

/-- The collected calls, by their indices. -/
def sortedCalls (collected : Collected) : List ToolCall :=
  (collected.toolCalls.keys.insertionSort (· ≤ ·)).map fun index =>
    (collected.toolCalls.lookup index).getD {}

def response (freshId : Nat → List Char) (collected : Collected) : LLMResponse where
  content := if collected.content.flatten = [] then none else some collected.content.flatten
  reasoning := if collected.reasoning = [] then none else some collected.reasoning.flatten
  toolCalls := collected.sortedCalls.mapIdx (ToolCall.withId freshId)
  finishReason := collected.finishReason
  usage := collected.usage

end Collected

/-! ## Attempts -/

inductive StreamError where
  /-- `HTTPStatusError` -/
  | status (code : Nat)
  /-- `TransportError` -/
  | transport
  | other
  deriving DecidableEq

def retryableStatusCodes : List Nat := [408, 409, 425, 429, 500, 502, 503, 504]

def isRetryableLlmError : StreamError → Bool
  | .status code => code ∈ retryableStatusCodes
  | .transport => true
  | .other => false

/-- The lines that come in an attempt, and the error that ends it, if one does. -/
structure Attempt where
  lines : List (List Char) := []
  ending : Option StreamError := none
  wellFormed : ∀ data ∈ received lines, (readChunk data).isSome = true

namespace Attempt

def chunks (attempt : Attempt) : List Chunk := (received attempt.lines).filterMap readChunk

/-- Nothing after the end of the stream is met. -/
def error (attempt : Attempt) : Option StreamError :=
  if isDone attempt.lines then none else attempt.ending

end Attempt

structure StreamCall (F : Type) [Floats F] where
  policy : RetryPolicy F
  /-- The attempts, from the first on. -/
  attempt : Nat → Attempt
  freshId : Nat → List Char
  /-- The circuit is not open. -/
  admitted : Bool

inductive StreamEnding where
  /-- The response that is left. -/
  | answered (response : LLMResponse)
  | raised (error : StreamError)
  | circuitOpen
  /-- The delay is no float. -/
  | overflowError
  /-- The delay is infinite. -/
  | asleep

namespace StreamCall

variable {F : Type} [Floats F]

/-- The loop over the attempts, from one on. -/
def loop (call : StreamCall F) (collected : Collected) (attempts : Nat) : StreamEnding :=
  let after := (call.attempt attempts).chunks.foldl Collected.add collected
  match (call.attempt attempts).error with
  | none => .answered (after.response call.freshId)
  | some error =>
      if _stop : after.receivedContent = true ∨ isRetryableLlmError error = false ∨
          call.policy.maxRetries < attempts then .raised error
      else
        match computeBackoffDelay attempts call.policy with
        | none => .overflowError
        | some delay =>
            if delay = ⊤ then .asleep else call.loop after.clear (attempts + 1)
termination_by call.policy.maxRetries + 1 - attempts
decreasing_by omega

def chatStream (call : StreamCall F) : StreamEnding :=
  if call.admitted then call.loop {} 1 else .circuitOpen

end StreamCall

end YouMi.Llm

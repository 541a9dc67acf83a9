import YouMi.Library.OrderedDict
import YouMi.Library.Regex
import YouMi.Mcp.Models

/-!
# The audit log

`redact_data` of `observability/audit.py` hides what stands under a sensitive key before an event
is stored.  It looks at a value under such a key once: a text is hidden there and then, and
everything else is walked through without the key.
-/

namespace YouMi.Observability

open YouMi.Library YouMi.Mcp

/-- `ω` has the values and the keys of other types: numbers, `None` and any other object. -/
inductive DatumKey (ω : Type) where
  | str (text : String)
  | other (key : ω)

inductive Datum (ω : Type) where
  | str (text : String)
  | dict (entries : List (DatumKey ω × Datum ω))
  | list (items : List (Datum ω))
  | tuple (items : List (Datum ω))
  | other (value : ω)

/-! ## Sensitive keys -/

/-- The character that `re.IGNORECASE` compares: four letters beyond ASCII count as one of it. -/
def ignoreCase (c : Char) : Char :=
  if c = 'İ' ∨ c = 'ı' then 'i'
  else if c = 'ſ' then 's'
  else if c = '\u212a' then 'k'
  else c.toLower

def sensitiveKeyRe : Pattern Char :=
  .choice [
    .sequence [.literal "api".toList, .optional (.char fun c => c = '_' || c = '-'),
      .literal "key".toList],
    .literal "token".toList, .literal "secret".toList, .literal "password".toList,
    .literal "passwd".toList, .literal "credential".toList, .literal "authorization".toList,
    .literal "auth".toList]

def DatumKey.isSensitive {ω : Type} : DatumKey ω → Bool
  | .str text => sensitiveKeyRe.search (text.toList.map ignoreCase)
  | .other _ => false

/-! ## Redaction -/

section Redaction

variable {ω : Type}

def redacted : String := "***"

def maxStrLen : Nat := 500

/-- A text that is too long is cut, with a note of its length. -/
def truncated (text : String) : String :=
  if maxStrLen < text.length then slice text maxStrLen ++ s!"...(截断,共{text.length}字符)"
  else text

mutual

def redactData : Datum ω → Datum ω
  | .dict entries => .dict (redactEntries entries)
  | .list items => .list (redactItems items)
  | .tuple items => .list (redactItems items)
  | .str text => .str (truncated text)
  | .other value => .other value

def redactItems : List (Datum ω) → List (Datum ω)
  | [] => []
  | item :: rest => redactData item :: redactItems rest

/-- The loop over a dictionary, whose keys are distinct. -/
def redactEntries : List (DatumKey ω × Datum ω) → List (DatumKey ω × Datum ω)
  | [] => []
  | (key, value) :: rest =>
      (key,
        match value with
        | .str text => if key.isSensitive then .str redacted else redactData (.str text)
        | value => redactData value) :: redactEntries rest

end

end Redaction

/-! ## The log -/

/-- An event; the identifier and the time are drawn for it. -/
structure AuditEvent (ω : Type) where
  eventId : String
  timestamp : String
  eventType : String
  agentId : String := ""
  tenant : String := "default"
  taskId : String := ""
  toolName : String := ""
  status : String := "ok"
  durationMs : Option Rat := none
  detail : Datum ω
  error : String := ""

/-- The arguments of `log`, with what is drawn for the event. -/
structure AuditCall (ω : Type) where
  eventId : String
  timestamp : String
  eventType : String
  agentId : String := ""
  tenant : String := "default"
  taskId : String := ""
  toolName : String := ""
  status : String := "ok"
  durationMs : Option Rat := none
  detail : Option (OrderedDict String (Datum ω)) := none
  error : String := ""
  extra : OrderedDict String (Datum ω) := []

/-- `detail`, updated with the other named arguments. -/
def AuditCall.merged {ω : Type} (call : AuditCall ω) : OrderedDict String (Datum ω) :=
  call.extra.foldl (fun merged entry => merged.assign entry.1 entry.2) (call.detail.getD [])

/-- The same dictionary as a value. -/
def namedEntries {ω : Type} (entries : OrderedDict String (Datum ω)) :
    List (DatumKey ω × Datum ω) :=
  entries.map fun entry => (.str entry.1, entry.2)

structure AuditLogger (ω : Type) where
  path : String := ""
  maxMemory : Nat
  enabled : Bool := true
  events : List (AuditEvent ω)
  /-- The events whose lines were written to the file. -/
  written : List (AuditEvent ω)
  memory_pos : 0 < maxMemory
  room : events.length ≤ maxMemory

namespace AuditLogger

variable {ω : Type}

def create (path : String) (maxMemory : Int) (enabled : Bool) : AuditLogger ω where
  path := path
  maxMemory := (max 1 maxMemory).toNat
  enabled := enabled
  events := []
  written := []
  memory_pos := by omega
  room := Nat.zero_le _

/-- A full buffer loses its first event; a line is written if `writes` says so. -/
def append (writes : AuditEvent ω → Bool) (logger : AuditLogger ω) (event : AuditEvent ω) :
    AuditLogger ω :=
  { logger with
    events := (logger.events ++ [event]).drop (logger.events.length + 1 - logger.maxMemory)
    written :=
      if logger.path ≠ "" ∧ writes event then logger.written ++ [event] else logger.written
    room := by
      have := logger.memory_pos
      rw [List.length_drop, List.length_append, List.length_singleton]
      omega }

def log (writes : AuditEvent ω → Bool) (logger : AuditLogger ω) (call : AuditCall ω) :
    AuditLogger ω × Option (AuditEvent ω) :=
  if !logger.enabled then (logger, none)
  else
    let merged := call.merged
    let event : AuditEvent ω := {
      eventId := call.eventId
      timestamp := call.timestamp
      eventType := call.eventType
      agentId := call.agentId
      tenant := orElse call.tenant "default"
      taskId := call.taskId
      toolName := call.toolName
      status := call.status
      durationMs := call.durationMs
      detail := if merged.isEmpty then .dict [] else redactData (.dict (namedEntries merged))
      error := slice call.error 500 }
    (logger.append writes event, some event)

end AuditLogger

end YouMi.Observability

import Mathlib.Data.List.Pairwise
import YouMi.Memory.Sessions
import YouMi.Python.Json

/-!
# The SQLite backend

`SQLiteBackend`: a table of sessions, whose primary key is the session id alone, and
a table of messages, whose row ids grow with every insertion.  A call is one
transaction; where it raises, the tables are as before.
-/

namespace YouMi.Memory

open YouMi.Library YouMi.Python

/-- A row of the `messages` table; `raw_data` is read as it was before `json.dumps`. -/
structure MessageRow where
  id : Nat
  sessionId : String
  record : MessageRecord

/-- The two tables; the rows of `sessions` by their primary key, those of `messages` by id. -/
structure SQLiteBackend where
  sessions : OrderedDict String SessionRecord := []
  messages : List MessageRow := []
  seq : Nat := 0
  sessions_distinct : sessions.keys.Nodup := by exact List.nodup_nil
  messages_ordered : messages.Pairwise fun first second => first.id < second.id := by
    exact List.Pairwise.nil
  messages_le_seq : ∀ row ∈ messages, row.id ≤ seq := by
    exact fun _ member => absurd member List.not_mem_nil

namespace SQLiteBackend

/-- The rows the messages of a session become, with the row ids that follow `seq`. -/
def messageRows (sessionId : String) : Nat → List MessageRecord → List MessageRow
  | _, [] => []
  | seq, record :: rest => ⟨seq + 1, sessionId, record⟩ :: messageRows sessionId (seq + 1) rest

theorem id_of_mem_messageRows {sessionId : String} {seq : Nat} {records : List MessageRecord}
    {row : MessageRow} (member : row ∈ messageRows sessionId seq records) :
    seq < row.id ∧ row.id ≤ seq + records.length := by
  induction records generalizing seq with
  | nil => cases member
  | cons record rest ih =>
      rw [List.length_cons]
      rcases List.mem_cons.mp member with rfl | member
      · exact ⟨Nat.lt_succ_self seq, by simp⟩
      · have bounds := ih member
        omega

theorem messageRows_ordered (sessionId : String) (seq : Nat) (records : List MessageRecord) :
    (messageRows sessionId seq records).Pairwise fun first second => first.id < second.id := by
  induction records generalizing seq with
  | nil => exact .nil
  | cons record rest ih =>
      exact .cons (fun row member => (id_of_mem_messageRows member).1) (ih (seq + 1))

theorem sessionId_of_mem_messageRows {sessionId : String} {seq : Nat}
    {records : List MessageRecord} {row : MessageRow}
    (member : row ∈ messageRows sessionId seq records) : row.sessionId = sessionId := by
  induction records generalizing seq with
  | nil => cases member
  | cons record rest ih =>
      rcases List.mem_cons.mp member with rfl | member
      · rfl
      · exact ih member

theorem map_record_messageRows (sessionId : String) (seq : Nat) (records : List MessageRecord) :
    (messageRows sessionId seq records).map MessageRow.record = records := by
  induction records generalizing seq with
  | nil => rfl
  | cons record rest ih => exact congrArg _ (ih (seq + 1))

/-- `DELETE FROM messages WHERE session_id = ?`. -/
def otherMessages (s : SQLiteBackend) (sessionId : String) : List MessageRow :=
  s.messages.filter fun row => row.sessionId ≠ sessionId

theorem id_of_mem_otherMessages {s : SQLiteBackend} {sessionId : String} {row : MessageRow}
    (member : row ∈ s.otherMessages sessionId) : row.id ≤ s.seq :=
  s.messages_le_seq row (List.mem_of_mem_filter member)

/-- The record that `INSERT … ON CONFLICT(session_id) DO UPDATE` leaves in `sessions`. -/
def upserted (now : Nat) (sessionId agentId tenant : String) (metadata : Dict) :
    Option SessionRecord → SessionRecord
  | some old => { old with updatedAt := now, metadata := metadata }
  | none => ⟨sessionId, agentId, tenant, now, now, metadata⟩

/-- The tables after the statements of a save. -/
def store (now : Nat) (s : SQLiteBackend) (sessionId agentId tenant : String) (metadata : Dict)
    (records : List MessageRecord) : SQLiteBackend where
  sessions := s.sessions.assign sessionId
    (upserted now sessionId agentId tenant metadata (s.sessions.lookup sessionId))
  messages := s.otherMessages sessionId ++ messageRows sessionId s.seq records
  seq := s.seq + records.length
  sessions_distinct := OrderedDict.nodup_keys_assign s.sessions_distinct
  messages_ordered := by
    refine List.pairwise_append.mpr
      ⟨s.messages_ordered.filter _, messageRows_ordered sessionId s.seq records, ?_⟩
    intro old hold new hnew
    have before := id_of_mem_otherMessages hold
    have after := (id_of_mem_messageRows hnew).1
    omega
  messages_le_seq := by
    intro row member
    rcases List.mem_append.mp member with member | member
    · have before := id_of_mem_otherMessages member
      omega
    · exact (id_of_mem_messageRows member).2

/-- The messages whose extra fields `json.dumps` can write. -/
def writable (record : MessageRecord) : Option MessageRecord :=
  record.rawData.dumps?.map fun rawData => { record with rawData := rawData }

def saveSession (world : World) (s : SQLiteBackend) (sessionId agentId : String)
    (messages : List Dict) (metadata : Option Dict) (tenant : String) :
    SQLiteBackend × Answer :=
  match (metadata.getD []).dumps?,
      messages.mapM fun msg => (MessageRecord.fromOpenaiMessage msg).bind writable with
  | some metadata, some records =>
      (s.store world.now sessionId agentId tenant metadata records, .done)
  | _, _ => (s, .raised)

/-- `ORDER BY id ASC` is the order of the table. -/
def messagesOf (s : SQLiteBackend) (sessionId : String) : List MessageRecord :=
  (s.messages.filter fun row => row.sessionId = sessionId).map MessageRow.record

def loadMessages (s : SQLiteBackend) (sessionId : String) : Answer :=
  .messages ((s.messagesOf sessionId).map MessageRecord.toOpenaiMessage)

/-- `tenant=tn or "default"`. -/
def toRecord (row : SessionRecord) : SessionRecord :=
  { row with tenant := if row.tenant = "" then "default" else row.tenant }

/-- The rows of an agent that pass the tenant filter, in the order of the query. -/
def selected (world : World) (s : SQLiteBackend) (agentId : String) (tenant : Option String) :
    List SessionRecord :=
  world.orderBy ((s.sessions.map Prod.snd).filter fun row =>
    row.agentId = agentId ∧ row.ofTenant tenant)

def listSessions (world : World) (s : SQLiteBackend) (agentId : String)
    (tenant : Option String) : Answer :=
  .sessions ((s.selected world agentId tenant).map toRecord)

def getLatestSession (world : World) (s : SQLiteBackend) (agentId : String)
    (tenant : Option String) : Answer :=
  .latest ((s.selected world agentId tenant).head?.map toRecord)

def deleteSession (s : SQLiteBackend) (sessionId : String) : SQLiteBackend where
  sessions := s.sessions.erase sessionId
  messages := s.otherMessages sessionId
  seq := s.seq
  sessions_distinct := OrderedDict.nodup_keys_erase s.sessions_distinct
  messages_ordered := s.messages_ordered.filter _
  messages_le_seq := fun _ member => id_of_mem_otherMessages member

def call (world : World) (s : SQLiteBackend) : Operation → SQLiteBackend × Answer
  | .saveSession sessionId agentId messages metadata tenant =>
      saveSession world s sessionId agentId messages metadata tenant
  | .loadMessages sessionId => (s, s.loadMessages sessionId)
  | .listSessions agentId tenant => (s, listSessions world s agentId tenant)
  | .deleteSession sessionId => (s.deleteSession sessionId, .done)
  | .getLatestSession agentId tenant => (s, getLatestSession world s agentId tenant)

/-! ## Messages after a save and a deletion -/

variable {s : SQLiteBackend} {sessionId other : String}

theorem messagesOf_otherMessages :
    ((s.otherMessages sessionId).filter fun row => row.sessionId = other).map MessageRow.record =
      if other = sessionId then [] else s.messagesOf other := by
  unfold otherMessages messagesOf
  rw [List.filter_filter]
  split
  · rename_i same
    subst same
    rw [List.map_eq_nil_iff, List.filter_eq_nil_iff]
    simp
  · rename_i ne
    congr 1
    refine List.filter_congr fun row _ => ?_
    by_cases this : row.sessionId = other
    · simp [this, ne]
    · simp [this]

theorem messagesOf_deleteSession :
    (s.deleteSession sessionId).messagesOf other =
      if other = sessionId then [] else s.messagesOf other :=
  messagesOf_otherMessages

theorem messagesOf_store (now : Nat) (agentId tenant : String) (metadata : Dict)
    (records : List MessageRecord) :
    (s.store now sessionId agentId tenant metadata records).messagesOf other =
      if other = sessionId then records else s.messagesOf other := by
  change (((s.otherMessages sessionId ++ messageRows sessionId s.seq records).filter _).map _) = _
  rw [List.filter_append, List.map_append, messagesOf_otherMessages]
  by_cases same : other = sessionId
  · subst same
    have all : (messageRows other s.seq records).filter (fun row => row.sessionId = other) =
        messageRows other s.seq records :=
      List.filter_eq_self.mpr fun row member =>
        decide_eq_true (sessionId_of_mem_messageRows member)
    rw [all, map_record_messageRows]
    simp
  · have nothing :
        (messageRows sessionId s.seq records).filter (fun row => row.sessionId = other) = [] :=
      List.filter_eq_nil_iff.mpr fun row member equal =>
        same ((of_decide_eq_true equal).symm.trans (sessionId_of_mem_messageRows member))
    rw [nothing]
    simp [same]

end SQLiteBackend

end YouMi.Memory

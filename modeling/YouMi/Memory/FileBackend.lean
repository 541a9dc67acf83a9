import Mathlib.Data.List.Sort
import YouMi.Memory.Sessions
import YouMi.Python.Json

/-!
# The file backend

`FileBackend`: the sessions of an agent are kept in one JSON file, which a call
reads whole, changes and writes whole.  An agent's directory is found by joining its
name to the base directory, so a name with a slash or a name made of dots leads
elsewhere than to a directory of the base directory.
-/

namespace YouMi.Memory

open YouMi.Library YouMi.Python

/--
A directory, by the names that lead to it from the base directory, or from the
directories around it, where `..` is left as it stands.
-/
inductive Directory where
  | inside (names : List String)
  | outside (names : List String)
  deriving DecidableEq

namespace Directory

def enter (directory : Directory) (name : String) : Directory :=
  if name = "" ∨ name = "." then directory
  else
    match directory with
    | .inside names =>
        if name ≠ ".." then .inside (names ++ [name])
        else if names = [] then .outside [".."]
        else .inside names.dropLast
    | .outside names => .outside (names ++ [name])

end Directory

/-- `self._base_dir / agent_id`: an absolute name leaves the base directory. -/
def agentDirectory (agentId : String) : Directory :=
  let names := (agentId.toList.splitOn '/').map String.ofList
  if agentId.toList.head? = some '/' then names.foldl .enter (.outside ["/"])
  else names.foldl .enter (.inside [])

/-- A session as an agent's file holds it. -/
structure FileSession where
  sessionId : String
  agentId : String
  tenant : String
  createdAt : Nat
  updatedAt : Nat
  metadata : Dict
  messages : List MessageRecord

def FileSession.toRecord (session : FileSession) : SessionRecord where
  sessionId := session.sessionId
  agentId := session.agentId
  tenant := session.tenant
  createdAt := session.createdAt
  updatedAt := session.updatedAt
  metadata := session.metadata

/-- The content of an agent's file. -/
structure AgentData where
  sessions : OrderedDict String FileSession
  distinct : sessions.keys.Nodup

namespace AgentData

def empty : AgentData := ⟨[], List.nodup_nil⟩

/-- What `json.dump(…, default=str)` leaves of a message. -/
def dumpedMessage (objectText : String) (record : MessageRecord) : MessageRecord :=
  { record with rawData := PyVal.dumpedEntries objectText record.rawData }

theorem map_dumpedMessage {objectText : String} {records : List MessageRecord}
    (json : ∀ record ∈ records, record.rawData.isJson = true) :
    records.map (dumpedMessage objectText) = records := by
  refine (List.map_congr_left fun record member => ?_).trans (List.map_id records)
  unfold dumpedMessage
  rw [Dict.dumpedEntries_eq_self _ (json record member)]
  rfl

/-- The entry that a save makes of what it has read. -/
def saved (world : World) (sessionId agentId : String) (records : List MessageRecord)
    (metadata : Option Dict) (tenant : String) (existing : Option FileSession) : FileSession where
  sessionId := sessionId
  agentId := agentId
  tenant := (existing.map FileSession.tenant).getD tenant
  createdAt := (existing.map FileSession.createdAt).getD world.now
  updatedAt := world.now
  metadata := PyVal.dumpedEntries world.objectText (metadata.getD [])
  messages := records.map (dumpedMessage world.objectText)

/-- The data a save writes, from the data it has read. -/
def put (data : AgentData) (world : World) (sessionId agentId : String)
    (records : List MessageRecord) (metadata : Option Dict) (tenant : String) : AgentData where
  sessions := data.sessions.assign sessionId
    (saved world sessionId agentId records metadata tenant (data.sessions.lookup sessionId))
  distinct := OrderedDict.nodup_keys_assign data.distinct

/-- The data a deletion writes, from the data it has read. -/
def remove (data : AgentData) (sessionId : String) : AgentData where
  sessions := data.sessions.erase sessionId
  distinct := OrderedDict.nodup_keys_erase data.distinct

end AgentData

/-- The files below the base directory and elsewhere, by the directory they lie in. -/
structure FileBackend where
  files : OrderedDict Directory AgentData := []

namespace FileBackend

/-- `_read_agent_data`, of a directory. -/
def readData (s : FileBackend) (directory : Directory) : AgentData :=
  (s.files.lookup directory).getD .empty

/-- `_write_agent_data`, of a directory. -/
def writeData (s : FileBackend) (directory : Directory) (data : AgentData) : FileBackend where
  files := s.files.assign directory data

/-- The directories of the base directory that have a session file. -/
def agentDirs (s : FileBackend) : List String :=
  s.files.keys.filterMap fun directory =>
    match directory with
    | .inside [name] => some name
    | _ => none

/-- The first of some directories whose file has the session. -/
def find (s : FileBackend) (sessionId : String) (names : List String) :
    Option (String × FileSession) :=
  names.findSome? fun name =>
    ((s.readData (.inside [name])).sessions.lookup sessionId).map fun session => (name, session)

def saveSession (world : World) (s : FileBackend) (sessionId agentId : String)
    (messages : List Dict) (metadata : Option Dict) (tenant : String) : FileBackend × Answer :=
  match messages.mapM MessageRecord.fromOpenaiMessage with
  | none => (s, .raised)
  | some records =>
      let directory := agentDirectory agentId
      let data := (s.readData directory).put world sessionId agentId records metadata tenant
      (s.writeData directory data, .done)

def loadMessages (world : World) (s : FileBackend) (sessionId : String) : Answer :=
  match s.find sessionId (world.iterdir s.agentDirs) with
  | some (_, session) => .messages (session.messages.map MessageRecord.toOpenaiMessage)
  | none => .messages []

/-- The records of an agent's file that pass the tenant filter, the latest first. -/
def sessionsOf (s : FileBackend) (agentId : String) (tenant : Option String) :
    List SessionRecord :=
  let records := (s.readData (agentDirectory agentId)).sessions.map fun entry => entry.2.toRecord
  (records.filter (·.ofTenant tenant)).insertionSort
    fun first second => second.updatedAt ≤ first.updatedAt

def deleteSession (world : World) (s : FileBackend) (sessionId : String) : FileBackend :=
  match s.find sessionId (world.iterdir s.agentDirs) with
  | some (name, _) =>
      s.writeData (.inside [name]) ((s.readData (.inside [name])).remove sessionId)
  | none => s

def call (world : World) (s : FileBackend) : Operation → FileBackend × Answer
  | .saveSession sessionId agentId messages metadata tenant =>
      saveSession world s sessionId agentId messages metadata tenant
  | .loadMessages sessionId => (s, loadMessages world s sessionId)
  | .listSessions agentId tenant => (s, .sessions (s.sessionsOf agentId tenant))
  | .deleteSession sessionId => (deleteSession world s sessionId, .done)
  | .getLatestSession agentId tenant => (s, .latest (s.sessionsOf agentId tenant).head?)

/-! ## Reading after writing -/

variable {s : FileBackend} {world : World}

@[simp]
theorem readData_writeData (directory other : Directory) (data : AgentData) :
    (s.writeData directory data).readData other =
      if other = directory then data else s.readData other := by
  unfold readData writeData
  rw [OrderedDict.lookup_assign]
  split
  · rfl
  · rfl

theorem mem_agentDirs {name : String} :
    name ∈ s.agentDirs ↔ Directory.inside [name] ∈ s.files.keys := by
  unfold agentDirs
  rw [List.mem_filterMap]
  constructor
  · rintro ⟨directory, member, same⟩
    split at same
    · cases same
      exact member
    · cases same
  · intro member
    exact ⟨_, member, rfl⟩

/-- A file that has a session is one of those a scan passes. -/
theorem mem_iterdir_of_lookup {name sessionId : String} {session : FileSession}
    (found : (s.readData (.inside [name])).sessions.lookup sessionId = some session) :
    name ∈ world.iterdir s.agentDirs := by
  refine (world.iterdir_perm _).mem_iff.mpr (mem_agentDirs.mpr ?_)
  rw [← OrderedDict.lookup_isSome_iff]
  unfold readData at found
  cases stored : s.files.lookup (.inside [name]) with
  | none =>
      rw [stored] at found
      cases found
  | some data => rfl

theorem find_eq_none_iff {sessionId : String} {names : List String} :
    s.find sessionId names = none ↔
      ∀ name ∈ names, (s.readData (.inside [name])).sessions.lookup sessionId = none := by
  unfold find
  rw [List.findSome?_eq_none_iff]
  simp

theorem lookup_of_find {sessionId name : String} {names : List String} {session : FileSession}
    (found : s.find sessionId names = some (name, session)) :
    (s.readData (.inside [name])).sessions.lookup sessionId = some session := by
  unfold find at found
  obtain ⟨other, _, same⟩ := List.exists_of_findSome?_eq_some found
  cases stored : (s.readData (.inside [other])).sessions.lookup sessionId with
  | none =>
      rw [stored] at same
      cases same
  | some other =>
      rw [stored] at same
      cases same
      exact stored

/-- A session that is in one directory only is found there. -/
theorem find_of_alone {sessionId name : String} {session : FileSession}
    (alone : ∀ other, ((s.readData (.inside [other])).sessions.lookup sessionId).isSome →
      other = name)
    (here : (s.readData (.inside [name])).sessions.lookup sessionId = some session) :
    s.find sessionId (world.iterdir s.agentDirs) = some (name, session) := by
  cases found : s.find sessionId (world.iterdir s.agentDirs) with
  | none =>
      have missed := find_eq_none_iff.mp found name (mem_iterdir_of_lookup here)
      rw [here] at missed
      cases missed
  | some result =>
      obtain ⟨other, stored⟩ := result
      have there := lookup_of_find found
      obtain rfl := alone other (by rw [there]; rfl)
      rw [here] at there
      cases there
      rfl

end FileBackend

end YouMi.Memory

import YouMi.Library.Runs
import YouMi.Memory.FileRefinement
import YouMi.Memory.SqliteBackend

/-!
# Two backends and one map

The file backend and the SQLite backend each hold a map of sessions and answer every
call as the map does, as long as an agent's name is the name of a directory, a
session stays with one agent, and what is saved has a JSON form and a tenant.
-/

namespace YouMi.Memory

open YouMi.Library YouMi.Python

namespace SessionMap

/--
What the backends ask of a save that is carried out: the agent's name is the name of
a directory, a session keeps the agent it was first saved for, its tenant has a name,
and what is saved can be written as JSON.
-/
structure Storable (map : SessionMap) (sessionId agentId : String) (records : List MessageRecord)
    (metadata : Dict) (tenant : String) : Prop where
  placed : ∃ name, agentDirectory agentId = .inside [name]
  owner : ∀ session, map sessionId = some session → session.agentId = agentId
  named : map sessionId = none → tenant ≠ ""
  metadata : metadata.isJson = true
  messages : ∀ record ∈ records, record.rawData.isJson = true

/-- The calls on which the backends do what the map does. -/
def Faithful (map : SessionMap) : Operation → Prop
  | .saveSession sessionId agentId messages metadata tenant =>
      ∀ records, messages.mapM MessageRecord.fromOpenaiMessage = some records →
        map.Storable sessionId agentId records (metadata.getD []) tenant
  | .listSessions agentId _ => map.Alone agentId
  | .getLatestSession agentId _ => map.Alone agentId
  | _ => True

end SessionMap

/-! ## The file backend -/

namespace FileBackend

variable {s : FileBackend} {map : SessionMap} {world : World} {sessionId agentId : String}
  {records : List MessageRecord} {metadata : Option Dict} {tenant : String}

/-- What is JSON is saved as it is given. -/
theorem savedSession_of_storable
    (storable : map.Storable sessionId agentId records (metadata.getD []) tenant) :
    savedSession world agentId records metadata tenant =
      .saved world.now agentId records (metadata.getD []) tenant := by
  have kept : records.map (AgentData.dumpedMessage world.objectText) = records :=
    AgentData.map_dumpedMessage storable.messages
  unfold savedSession
  rw [kept, Dict.dumpedEntries_eq_self _ storable.metadata]

variable (world) in
/-- A call that the map foresees leaves the file backend holding the map after the call. -/
theorem Holds.call (holds : s.Holds map) {operation : Operation}
    (faithful : map.Faithful operation) :
    (FileBackend.call world s operation).1.Holds (map.next world.now operation) ∧
      map.Allows operation (FileBackend.call world s operation).2 := by
  cases operation with
  | saveSession sessionId agentId messages metadata tenant =>
      cases accepted : messages.mapM MessageRecord.fromOpenaiMessage with
      | none =>
          simp only [FileBackend.call, saveSession, SessionMap.next, SessionMap.Allows, accepted]
          exact ⟨holds, rfl⟩
      | some records =>
          simp only [FileBackend.call, saveSession, SessionMap.next, SessionMap.Allows, accepted]
          have storable := faithful records accepted
          have current : s.Current (agentDirectory agentId) (s.readData (agentDirectory agentId)) :=
            fun _ => rfl
          have written := holds.writePut world records metadata tenant storable.placed
            storable.owner current
          rw [savedSession_of_storable storable] at written
          exact ⟨written, rfl⟩
  | loadMessages sessionId => exact ⟨holds, holds.loadMessages⟩
  | listSessions agentId tenant =>
      exact ⟨holds, _, rfl, holds.lists faithful tenant, SessionMap.sorted_insertionSort _⟩
  | deleteSession sessionId => exact ⟨holds.deleteSession, rfl⟩
  | getLatestSession agentId tenant =>
      exact ⟨holds, _, rfl, holds.lists faithful tenant, SessionMap.sorted_insertionSort _⟩

end FileBackend

/-! ## The SQLite backend -/

namespace SQLiteBackend

/-- The tables have the sessions of the map, each with its messages, and nothing else. -/
structure Holds (s : SQLiteBackend) (map : SessionMap) : Prop where
  sessions : ∀ sessionId,
    s.sessions.lookup sessionId = (map sessionId).map (Session.record sessionId)
  messages : ∀ sessionId,
    s.messagesOf sessionId = ((map sessionId).map Session.messages).getD []
  named : ∀ sessionId session, map sessionId = some session → session.tenant ≠ ""

variable {s : SQLiteBackend} {map : SessionMap} {world : World} {sessionId agentId : String}
  {records : List MessageRecord} {metadata : Option Dict} {tenant : String}

theorem Holds.toRecord (holds : s.Holds map) {row : SessionRecord}
    (matched : ∃ agentId tenant, map.Matches agentId tenant row) : toRecord row = row := by
  obtain ⟨_, _, session, present, same, _⟩ := matched
  unfold SQLiteBackend.toRecord
  have tenant : row.tenant ≠ "" := by
    rw [same]
    exact holds.named row.sessionId session present
  rw [if_neg tenant]

theorem Holds.lists (holds : s.Holds map) (agentId : String) (tenant : Option String) :
    map.Lists agentId tenant (s.selected world agentId tenant) := by
  refine SessionMap.Lists.perm ⟨?_, fun record => ?_⟩ (world.orderBy_perm _)
  · have ids : (s.sessions.map Prod.snd).map SessionRecord.sessionId = s.sessions.keys := by
      rw [List.map_map]
      refine List.map_congr_left fun entry member => ?_
      have found := OrderedDict.lookup_eq_some_of_mem s.sessions_distinct member
      rw [holds.sessions] at found
      obtain ⟨session, _, same⟩ := Option.map_eq_some_iff.mp found
      exact congrArg SessionRecord.sessionId same.symm
    have distinct := s.sessions_distinct
    rw [← ids] at distinct
    exact distinct.sublist (List.filter_sublist.map _)
  · rw [List.mem_filter, List.mem_map, decide_eq_true_eq]
    constructor
    · rintro ⟨⟨entry, member, rfl⟩, agent, passes⟩
      have found := OrderedDict.lookup_eq_some_of_mem s.sessions_distinct member
      rw [holds.sessions] at found
      obtain ⟨session, present, same⟩ := Option.map_eq_some_iff.mp found
      rw [← same] at agent passes ⊢
      exact ⟨session, present, rfl, agent, passes⟩
    · rintro ⟨session, present, same, agent, passes⟩
      refine ⟨⟨(record.sessionId, record), ?_, rfl⟩, ?_, passes⟩
      · refine OrderedDict.mem_of_lookup ?_
        rw [holds.sessions, present, Option.map_some, ← same]
      · rw [same]
        exact agent

theorem Holds.map_toRecord (holds : s.Holds map) (agentId : String) (tenant : Option String) :
    (s.selected world agentId tenant).map SQLiteBackend.toRecord =
      s.selected world agentId tenant := by
  refine (List.map_congr_left fun row member => ?_).trans (List.map_id _)
  exact holds.toRecord ⟨agentId, tenant, ((holds.lists agentId tenant).mem_iff row).mp member⟩

theorem mapM_writable {messages : List Dict} {records : List MessageRecord}
    (accepted : messages.mapM MessageRecord.fromOpenaiMessage = some records)
    (json : ∀ record ∈ records, record.rawData.isJson = true) :
    messages.mapM (fun msg => (MessageRecord.fromOpenaiMessage msg).bind writable) =
      some records := by
  induction messages generalizing records with
  | nil => exact accepted
  | cons msg rest ih =>
      rw [List.mapM_cons] at accepted ⊢
      cases first : MessageRecord.fromOpenaiMessage msg with
      | none =>
          rw [first] at accepted
          cases accepted
      | some record =>
          cases later : rest.mapM MessageRecord.fromOpenaiMessage with
          | none =>
              rw [first, later] at accepted
              cases accepted
          | some others =>
              rw [first, later] at accepted
              cases accepted
              have written : writable record = some record := by
                unfold writable
                rw [Dict.dumps?_of_isJson (json record List.mem_cons_self)]
                rfl
              rw [ih later fun other member => json other (List.mem_cons_of_mem _ member),
                Option.bind_some, written]
              rfl

theorem mapM_writable_of_none {messages : List Dict}
    (refused : messages.mapM MessageRecord.fromOpenaiMessage = none) :
    messages.mapM (fun msg => (MessageRecord.fromOpenaiMessage msg).bind writable) = none := by
  induction messages with
  | nil => cases refused
  | cons msg rest ih =>
      rw [List.mapM_cons] at refused ⊢
      cases first : MessageRecord.fromOpenaiMessage msg with
      | none => rfl
      | some record =>
          cases later : rest.mapM MessageRecord.fromOpenaiMessage with
          | none =>
              rw [ih later, Option.bind_some]
              cases writable record with
              | none => rfl
              | some record => rfl
          | some others =>
              rw [first, later] at refused
              cases refused

theorem Holds.store (holds : s.Holds map)
    (storable : map.Storable sessionId agentId records (metadata.getD []) tenant) :
    (s.store world.now sessionId agentId tenant (metadata.getD []) records).Holds
      (Function.update map sessionId
        (some (.saved world.now agentId records (metadata.getD []) tenant (map sessionId)))) := by
  constructor
  · intro other
    change (s.sessions.assign sessionId _).lookup other = _
    rw [OrderedDict.lookup_assign]
    by_cases same : other = sessionId
    · subst same
      rw [if_pos rfl, Function.update_self, holds.sessions]
      cases map other with
      | none => rfl
      | some session => rfl
    · rw [if_neg same, Function.update_of_ne same]
      exact holds.sessions other
  · intro other
    rw [messagesOf_store]
    by_cases same : other = sessionId
    · subst same
      rw [if_pos rfl, Function.update_self]
      cases map other with
      | none => rfl
      | some session => rfl
    · rw [if_neg same, Function.update_of_ne same]
      exact holds.messages other
  · intro other session present
    by_cases same : other = sessionId
    · subst same
      rw [Function.update_self] at present
      cases present
      cases before : map other with
      | none => exact storable.named before
      | some old => exact holds.named other old before
    · rw [Function.update_of_ne same] at present
      exact holds.named other session present

theorem Holds.deleteSession (holds : s.Holds map) :
    (s.deleteSession sessionId).Holds (Function.update map sessionId none) := by
  constructor
  · intro other
    change (s.sessions.erase sessionId).lookup other = _
    rw [OrderedDict.lookup_erase]
    by_cases same : other = sessionId
    · subst same
      rw [if_pos rfl, Function.update_self]
      rfl
    · rw [if_neg same, Function.update_of_ne same]
      exact holds.sessions other
  · intro other
    rw [messagesOf_deleteSession]
    by_cases same : other = sessionId
    · subst same
      rw [if_pos rfl, Function.update_self]
      rfl
    · rw [if_neg same, Function.update_of_ne same]
      exact holds.messages other
  · intro other session present
    by_cases same : other = sessionId
    · subst same
      rw [Function.update_self] at present
      cases present
    · rw [Function.update_of_ne same] at present
      exact holds.named other session present

variable (world) in
/-- A call that the map foresees leaves the tables holding the map after the call. -/
theorem Holds.call (holds : s.Holds map) {operation : Operation}
    (faithful : map.Faithful operation) :
    (SQLiteBackend.call world s operation).1.Holds (map.next world.now operation) ∧
      map.Allows operation (SQLiteBackend.call world s operation).2 := by
  cases operation with
  | saveSession sessionId agentId messages metadata tenant =>
      cases accepted : messages.mapM MessageRecord.fromOpenaiMessage with
      | none =>
          simp only [SQLiteBackend.call, saveSession, SessionMap.next, SessionMap.Allows,
            accepted, mapM_writable_of_none accepted]
          cases (metadata.getD []).dumps? with
          | none => exact ⟨holds, rfl⟩
          | some metadata => exact ⟨holds, rfl⟩
      | some records =>
          have storable := faithful records accepted
          simp only [SQLiteBackend.call, saveSession, SessionMap.next, SessionMap.Allows,
            accepted, mapM_writable accepted storable.messages,
            Dict.dumps?_of_isJson storable.metadata]
          exact ⟨holds.store storable, rfl⟩
  | loadMessages sessionId =>
      refine ⟨holds, ?_⟩
      change Answer.messages _ = _
      rw [holds.messages]
  | listSessions agentId tenant =>
      refine ⟨holds, _, ?_, holds.lists agentId tenant, world.orderBy_sorted _⟩
      exact congrArg Answer.sessions (holds.map_toRecord agentId tenant)
  | deleteSession sessionId => exact ⟨holds.deleteSession, rfl⟩
  | getLatestSession agentId tenant =>
      refine ⟨holds, _, ?_, holds.lists agentId tenant, world.orderBy_sorted _⟩
      change Answer.latest _ = _
      rw [← List.head?_map, holds.map_toRecord agentId tenant]

end SQLiteBackend

/-! ## Both backends behind one run of calls -/

/-- A call that both backends have answered, and the map it found. -/
structure Answered where
  map : SessionMap
  operation : Operation
  file : Answer
  sqlite : Answer

/-- Two backends that are given the same calls, beside the map the calls describe. -/
structure Twins where
  file : FileBackend := {}
  sqlite : SQLiteBackend := {}
  map : SessionMap := fun _ => none
  answered : List Answered := []

namespace Twins

def step (s : Twins) (call : World × Operation) : Twins where
  file := (s.file.call call.1 call.2).1
  sqlite := (s.sqlite.call call.1 call.2).1
  map := s.map.next call.1.now call.2
  answered := s.answered ++
    [⟨s.map, call.2, (s.file.call call.1 call.2).2, (s.sqlite.call call.1 call.2).2⟩]

/-- Both backends hold the map and have answered every call as the map does. -/
structure Refined (s : Twins) : Prop where
  file : s.file.Holds s.map
  sqlite : s.sqlite.Holds s.map
  answered : ∀ call ∈ s.answered, call.map.Allows call.operation call.file ∧
    call.map.Allows call.operation call.sqlite ∧ call.file.Agree call.sqlite

theorem refined_empty : Refined {} := by
  refine ⟨⟨fun _ _ => rfl, ?_⟩, ⟨fun _ => rfl, fun _ => rfl, ?_⟩, ?_⟩
  · intro sessionId session present
    cases present
  · intro sessionId session present
    cases present
  · intro call member
    cases member

theorem Refined.step {s : Twins} (refined : s.Refined) {call : World × Operation}
    (faithful : s.map.Faithful call.2) : (s.step call).Refined := by
  have file := refined.file.call call.1 faithful
  have sqlite := refined.sqlite.call call.1 faithful
  refine ⟨file.1, sqlite.1, fun answered member => ?_⟩
  rcases List.mem_append.mp member with before | last
  · exact refined.answered answered before
  · cases List.mem_singleton.mp last
    exact ⟨file.2, sqlite.2, file.2.agree sqlite.2⟩

end Twins

end YouMi.Memory

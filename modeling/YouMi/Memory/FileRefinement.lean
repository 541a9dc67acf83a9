import YouMi.Memory.FileBackend
import YouMi.Memory.Sessions

/-!
# The file backend holds a map of sessions

Every session of the map lies in the file of its agent, and no file has anything
else.  A write keeps this if it changes one session of data that is still what the
file has, whenever the data was read.
-/

namespace YouMi.Memory

open YouMi.Library YouMi.Python

/-- The session as an agent's file holds it. -/
def Session.stored (sessionId : String) (session : Session) : FileSession where
  sessionId := sessionId
  agentId := session.agentId
  tenant := session.tenant
  createdAt := session.createdAt
  updatedAt := session.updatedAt
  metadata := session.metadata
  messages := session.messages

namespace SessionMap

/-- No session of another agent lies in the agent's directory. -/
def Alone (map : SessionMap) (agentId : String) : Prop :=
  ∀ sessionId session, map sessionId = some session →
    agentDirectory session.agentId = agentDirectory agentId → session.agentId = agentId

end SessionMap

namespace FileBackend

/-- Every session of the map lies in the file of its agent, and no file has anything else. -/
structure Holds (s : FileBackend) (map : SessionMap) : Prop where
  files : ∀ directory sessionId, (s.readData directory).sessions.lookup sessionId =
    ((map sessionId).filter fun session => agentDirectory session.agentId = directory).map
      (Session.stored sessionId)
  placed : ∀ sessionId session, map sessionId = some session →
    ∃ name, agentDirectory session.agentId = .inside [name]

variable {s : FileBackend} {map : SessionMap} {world : World} {sessionId agentId : String}
  {session : Session}

theorem Holds.lookup_eq_some_iff (holds : s.Holds map) {directory : Directory}
    {found : FileSession} :
    (s.readData directory).sessions.lookup sessionId = some found ↔
      ∃ session, map sessionId = some session ∧ agentDirectory session.agentId = directory ∧
        found = session.stored sessionId := by
  rw [holds.files]
  cases map sessionId with
  | none => simp
  | some session => simp [Option.filter_some, eq_comm]

theorem Holds.find_of_none (holds : s.Holds map) (absent : map sessionId = none)
    (names : List String) : s.find sessionId names = none := by
  refine find_eq_none_iff.mpr fun name _ => ?_
  rw [holds.files, absent]
  rfl

/-- A scan finds a session in the directory of its agent, whatever the order. -/
theorem Holds.find_of_some (holds : s.Holds map) (present : map sessionId = some session)
    {name : String} (placed : agentDirectory session.agentId = .inside [name]) :
    s.find sessionId (world.iterdir s.agentDirs) = some (name, session.stored sessionId) := by
  have here : (s.readData (.inside [name])).sessions.lookup sessionId =
      some (session.stored sessionId) :=
    holds.lookup_eq_some_iff.mpr ⟨session, present, placed, rfl⟩
  refine find_of_alone (fun other found => ?_) here
  obtain ⟨stored, there⟩ := Option.isSome_iff_exists.mp found
  obtain ⟨again, same, elsewhere, -⟩ := holds.lookup_eq_some_iff.mp there
  rw [present] at same
  cases same
  rw [placed] at elsewhere
  cases elsewhere
  rfl

theorem Holds.loadMessages (holds : s.Holds map) :
    loadMessages world s sessionId =
      .messages ((((map sessionId).map Session.messages).getD []).map
        MessageRecord.toOpenaiMessage) := by
  unfold FileBackend.loadMessages
  cases present : map sessionId with
  | none =>
      rw [holds.find_of_none present]
      rfl
  | some session =>
      obtain ⟨name, placed⟩ := holds.placed sessionId session present
      rw [holds.find_of_some present placed]
      rfl

theorem Holds.lists (holds : s.Holds map) (alone : map.Alone agentId) (tenant : Option String) :
    map.Lists agentId tenant (s.sessionsOf agentId tenant) := by
  have keyed : ∀ entry ∈ (s.readData (agentDirectory agentId)).sessions,
      ∃ session, map entry.1 = some session ∧
        agentDirectory session.agentId = agentDirectory agentId ∧
        entry.2 = session.stored entry.1 := fun entry member =>
    holds.lookup_eq_some_iff.mp
      (OrderedDict.lookup_eq_some_of_mem (s.readData (agentDirectory agentId)).distinct member)
  have ids : ((s.readData (agentDirectory agentId)).sessions.map fun entry =>
      entry.2.toRecord).map SessionRecord.sessionId =
        (s.readData (agentDirectory agentId)).sessions.keys := by
    rw [List.map_map]
    refine List.map_congr_left fun entry member => ?_
    obtain ⟨session, _, _, same⟩ := keyed entry member
    exact congrArg FileSession.sessionId same
  refine SessionMap.Lists.perm ⟨?_, fun record => ?_⟩ (List.perm_insertionSort _ _)
  · have distinct := (s.readData (agentDirectory agentId)).distinct
    rw [← ids] at distinct
    exact distinct.sublist (List.filter_sublist.map _)
  · rw [List.mem_filter, List.mem_map]
    constructor
    · rintro ⟨⟨entry, member, rfl⟩, passes⟩
      obtain ⟨session, present, directory, same⟩ := keyed entry member
      rw [same] at passes ⊢
      exact ⟨session, present, rfl, alone entry.1 session present directory, passes⟩
    · rintro ⟨session, present, same, agent, passes⟩
      refine ⟨⟨(record.sessionId, session.stored record.sessionId), ?_, same.symm⟩, passes⟩
      refine OrderedDict.mem_of_lookup (holds.lookup_eq_some_iff.mpr ⟨session, present, ?_, rfl⟩)
      rw [agent]

variable {records : List MessageRecord} {metadata : Option Dict} {tenant name : String}
  {data : AgentData}

/-- The session that a save leaves, in the map. -/
def savedSession (world : World) (agentId : String) (records : List MessageRecord)
    (metadata : Option Dict) (tenant : String) : Option Session → Session :=
  .saved world.now agentId (records.map (AgentData.dumpedMessage world.objectText))
    (PyVal.dumpedEntries world.objectText (metadata.getD [])) tenant

theorem savedSession_messages {existing : Option Session}
    (json : ∀ record ∈ records, record.rawData.isJson = true) :
    (savedSession world agentId records metadata tenant existing).messages = records := by
  cases existing with
  | none => exact AgentData.map_dumpedMessage json
  | some session => exact AgentData.map_dumpedMessage json

/-- What a save writes into a file is what it makes of the session in the map. -/
theorem saved_eq_stored (existing : Option Session)
    (owner : ∀ session, existing = some session → session.agentId = agentId) :
    AgentData.saved world sessionId agentId records metadata tenant
        (existing.map (Session.stored sessionId)) =
      (savedSession world agentId records metadata tenant existing).stored sessionId := by
  cases existing with
  | none => rfl
  | some session =>
      rw [← owner session rfl]
      rfl

/-- The data is what the file has, entry by entry. -/
def Current (s : FileBackend) (directory : Directory) (data : AgentData) : Prop :=
  ∀ sessionId, data.sessions.lookup sessionId =
    (s.readData directory).sessions.lookup sessionId

/-- A session that is put under an agent with a directory keeps all sessions placed. -/
theorem Holds.placed_update (holds : s.Holds map) {changed : Option Session}
    (own : ∀ session, changed = some session →
      ∃ name, agentDirectory session.agentId = .inside [name]) (other : String)
    (session : Session) (present : Function.update map sessionId changed other = some session) :
    ∃ name, agentDirectory session.agentId = .inside [name] := by
  by_cases same : other = sessionId
  · subst same
    rw [Function.update_self] at present
    exact own session present
  · rw [Function.update_of_ne same] at present
    exact holds.placed other session present

variable (world records metadata tenant) in
theorem Holds.writePut (holds : s.Holds map)
    (placed : ∃ name, agentDirectory agentId = .inside [name])
    (owner : ∀ session, map sessionId = some session → session.agentId = agentId)
    (current : s.Current (agentDirectory agentId) data) :
    (s.writeData (agentDirectory agentId)
      (data.put world sessionId agentId records metadata tenant)).Holds
      (Function.update map sessionId
        (some (savedSession world agentId records metadata tenant (map sessionId)))) := by
  have agent : (savedSession world agentId records metadata tenant
      (map sessionId)).agentId = agentId := by
    cases present : map sessionId with
    | none => rfl
    | some session => exact owner session present
  have read : data.sessions.lookup sessionId =
      (map sessionId).map (Session.stored sessionId) := by
    rw [current, holds.files]
    cases present : map sessionId with
    | none => rfl
    | some session =>
        rw [← owner session present]
        simp [Option.filter_some]
  refine ⟨?_, holds.placed_update ?_⟩
  · intro directory other
    rw [readData_writeData]
    by_cases here : directory = agentDirectory agentId
    · subst here
      rw [if_pos rfl]
      change (data.sessions.assign sessionId _).lookup other = _
      rw [OrderedDict.lookup_assign, read, saved_eq_stored (map sessionId) owner]
      by_cases same : other = sessionId
      · subst same
        simp [Option.filter_some, agent]
      · rw [if_neg same, Function.update_of_ne same, current]
        exact holds.files _ other
    · rw [if_neg here, holds.files]
      by_cases same : other = sessionId
      · subst same
        have elsewhere : agentDirectory agentId ≠ directory := fun eq => here eq.symm
        rw [Function.update_self, Option.filter_some, agent]
        cases present : map other with
        | none => simp [elsewhere]
        | some session => simp [Option.filter_some, owner session present, elsewhere]
      · rw [Function.update_of_ne same]
  · rintro _ ⟨⟩
    rw [agent]
    exact placed

theorem Holds.writeRemove (holds : s.Holds map) (present : map sessionId = some session)
    (placed : agentDirectory session.agentId = .inside [name])
    (current : s.Current (.inside [name]) data) :
    (s.writeData (.inside [name]) (data.remove sessionId)).Holds
      (Function.update map sessionId none) := by
  refine ⟨?_, holds.placed_update nofun⟩
  · intro directory other
    rw [readData_writeData]
    by_cases same : other = sessionId
    · subst same
      rw [Function.update_self]
      by_cases here : directory = .inside [name]
      · rw [if_pos here]
        exact OrderedDict.lookup_erase_self
      · have elsewhere : agentDirectory session.agentId ≠ directory := fun eq =>
          here (eq.symm.trans placed)
        rw [if_neg here, holds.files, present]
        simp [Option.filter_some, elsewhere]
    · rw [Function.update_of_ne same, ← holds.files directory other]
      by_cases here : directory = .inside [name]
      · subst here
        rw [if_pos rfl, ← current other]
        exact OrderedDict.lookup_erase_ne same
      · rw [if_neg here]

/-- Taking out a session that the map does not have changes nothing. -/
theorem Holds.forget (holds : s.Holds map) (absent : map sessionId = none) :
    s.Holds (Function.update map sessionId none) := by
  rw [← absent, Function.update_eq_self]
  exact holds

theorem Holds.deleteSession (holds : s.Holds map) :
    (deleteSession world s sessionId).Holds (Function.update map sessionId none) := by
  unfold FileBackend.deleteSession
  cases present : map sessionId with
  | none =>
      rw [holds.find_of_none present]
      exact holds.forget present
  | some session =>
      obtain ⟨name, placed⟩ := holds.placed sessionId session present
      rw [holds.find_of_some present placed]
      exact holds.writeRemove present placed fun _ => rfl

end FileBackend

end YouMi.Memory

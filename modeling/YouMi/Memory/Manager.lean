import YouMi.Memory.FileBackend
import YouMi.Memory.SqliteBackend
import YouMi.Memory.Strategies

/-!
# The memory manager

`MemoryManager` sends messages to a strategy and sessions to a persistence backend,
which other managers may share.  What it saves at the end of a session is the context
its strategy hands out then; what it restores it hands to its caller.
-/

namespace YouMi.Memory

open YouMi.Core YouMi.Library YouMi.Python

inductive PersistenceBackend where
  | file (s : FileBackend)
  | sqlite (s : SQLiteBackend)

namespace PersistenceBackend

def call (world : World) : PersistenceBackend → Operation → PersistenceBackend × Answer
  | .file s, operation => (FileBackend.call world s operation).map .file id
  | .sqlite s, operation => (SQLiteBackend.call world s operation).map .sqlite id

/-- The messages stored for a session of an agent. -/
def stored (backend : PersistenceBackend) (agentId sessionId : String) : List MessageRecord :=
  match backend with
  | .file s =>
      (((s.readData (agentDirectory agentId)).sessions.lookup sessionId).map
        FileSession.messages).getD []
  | .sqlite s => s.messagesOf sessionId

/-- What a backend writes of messages; nothing where it refuses them. -/
def written (backend : PersistenceBackend) (world : World) (messages : List Dict) :
    Option (List MessageRecord) :=
  match backend with
  | .file _ =>
      (messages.mapM MessageRecord.fromOpenaiMessage).map
        (List.map (AgentData.dumpedMessage world.objectText))
  | .sqlite _ => messages.mapM fun msg => (MessageRecord.fromOpenaiMessage msg).bind
      SQLiteBackend.writable

end PersistenceBackend

namespace StrategyMessage

def toDict (message : StrategyMessage) : Dict :=
  [("role", .str message.role), ("content", .str message.content)]

/-- The record that a backend keeps of a message. -/
def toRecord (message : StrategyMessage) : MessageRecord := ⟨message.role, message.content, []⟩

end StrategyMessage

structure MemoryManager where
  agentId : String
  tenant : String := "default"
  strategy : MemoryStrategy
  currentSessionId : String := ""

namespace MemoryManager

/-- `tenant or "default"`. -/
def tenantOrDefault (tenant : String) : String := if tenant = "" then "default" else tenant

/-- `MemoryManager(…)`. -/
def create (agentId tenant : String) (strategy : MemoryStrategy) : MemoryManager where
  agentId := agentId
  tenant := tenantOrDefault tenant
  strategy := strategy

/-- `fresh` is what `uuid.uuid4().hex[:16]` gives. -/
def startSession (manager : MemoryManager) (sessionId fresh : String) : MemoryManager :=
  { manager with currentSessionId := if sessionId = "" then fresh else sessionId }

/-- `lower` is `str.lower`. -/
def onMessage (lower : String → String) (manager : MemoryManager) (role content : String)
    (llmCall : LLMCall) : MemoryManager × Except Fault Unit :=
  let result := manager.strategy.onMessage lower { role := role, content := content } llmCall
  ({ manager with strategy := result.1 }, result.2)

/-- The call by which a manager saves messages under a session id. -/
def saveCall (manager : MemoryManager) (sessionId : String) (messages : List Dict) : Operation :=
  .saveSession sessionId manager.agentId messages none manager.tenant

/-- `_save_current_session`. -/
def saveCurrentSession (world : World) (manager : MemoryManager)
    (backend : PersistenceBackend) : PersistenceBackend × Answer :=
  if manager.currentSessionId = "" then (backend, .done)
  else backend.call world (manager.saveCall manager.currentSessionId
    (manager.strategy.getContext.map StrategyMessage.toDict))

def onSessionEnd (world : World) (manager : MemoryManager) (backend : Option PersistenceBackend)
    (llmCall : LLMCall) : MemoryManager × Option PersistenceBackend × Except Fault Unit :=
  let result := manager.strategy.onSessionEnd llmCall
  let manager := { manager with strategy := result.1 }
  match result.2, backend with
  | .error fault, backend => (manager, backend, .error fault)
  | .ok (), none => (manager, none, .ok ())
  | .ok (), some backend =>
      match manager.saveCurrentSession world backend with
      | (backend, .raised) => (manager, some backend, .error (.exception "save_session"))
      | (backend, _) => (manager, some backend, .ok ())

/-- The messages of a session, which becomes the current one if it has any. -/
def restored (world : World) (manager : MemoryManager) (backend : PersistenceBackend)
    (sessionId : String) : MemoryManager × Option (List Dict) :=
  match (backend.call world (.loadMessages sessionId)).2 with
  | .messages (first :: rest) =>
      ({ manager with currentSessionId := sessionId }, some (first :: rest))
  | _ => (manager, none)

def restoreSession (world : World) (manager : MemoryManager)
    (backend : Option PersistenceBackend) (sessionId : String) :
    MemoryManager × Option (List Dict) :=
  match backend with
  | none => (manager, none)
  | some backend =>
      if sessionId ≠ "" then manager.restored world backend sessionId
      else
        match (backend.call world
          (.getLatestSession manager.agentId (some manager.tenant))).2 with
        | .latest (some latest) => manager.restored world backend latest.sessionId
        | _ => (manager, none)

/-- The session id that `save_session` saves under. -/
def saveTarget (manager : MemoryManager) (sessionId fresh : String) : String :=
  if sessionId ≠ "" then sessionId
  else if manager.currentSessionId ≠ "" then manager.currentSessionId
  else fresh

def saveSession (world : World) (manager : MemoryManager) (backend : Option PersistenceBackend)
    (messages : List Dict) (sessionId fresh : String) :
    MemoryManager × Option PersistenceBackend × Answer :=
  match backend with
  | none => (manager, none, .done)
  | some backend =>
      let named := if sessionId = "" then manager.currentSessionId else sessionId
      let manager := if named = "" then manager.startSession "" fresh else manager
      let sessionId := if named = "" then manager.currentSessionId else named
      let result := backend.call world (manager.saveCall sessionId messages)
      (manager, some result.1, result.2)

/-- A save of given messages is one call, under the target id. -/
theorem saveSession_eq (world : World) (manager : MemoryManager) (backend : PersistenceBackend)
    (messages : List Dict) (sessionId fresh : String) :
    manager.saveSession world (some backend) messages sessionId fresh =
      ((if sessionId = "" ∧ manager.currentSessionId = "" then manager.startSession "" fresh
          else manager),
        some (backend.call world (manager.saveCall (manager.saveTarget sessionId fresh)
            messages)).1,
        (backend.call world (manager.saveCall (manager.saveTarget sessionId fresh) messages)).2) := by
  unfold saveSession saveTarget startSession saveCall
  by_cases given : sessionId = ""
  · by_cases current : manager.currentSessionId = ""
    · simp [given, current]
    · simp [given, current]
  · simp [given]

end MemoryManager

/-! ## What is stored after a save -/

namespace PersistenceBackend

theorem fromOpenaiMessage_toDict (message : StrategyMessage) :
    MessageRecord.fromOpenaiMessage message.toDict = some message.toRecord := by
  have role : (message.toDict.lookup "role").getD (.str "user") = .str message.role := rfl
  have content : orEmpty ((message.toDict.lookup "content").getD (.str "")) =
      .str message.content := orEmpty_str message.content
  unfold MessageRecord.fromOpenaiMessage
  rw [role, content]
  rfl

/-- A save that is written stores what was written, and one that is refused raises. -/
theorem call_saveSession (backend : PersistenceBackend) (world : World) (messages : List Dict)
    (sessionId agentId tenant : String) :
    match backend.written world messages with
    | some records =>
        (backend.call world (.saveSession sessionId agentId messages none tenant)).2 = .done ∧
          (backend.call world (.saveSession sessionId agentId messages none tenant)).1.stored
            agentId sessionId = records
    | none =>
        backend.call world (.saveSession sessionId agentId messages none tenant) =
          (backend, .raised) := by
  cases backend with
  | file s =>
      simp only [written, call, FileBackend.call, FileBackend.saveSession]
      cases messages.mapM MessageRecord.fromOpenaiMessage with
      | none => rfl
      | some records =>
          refine ⟨rfl, ?_⟩
          change ((((s.writeData _ _).readData _).sessions.lookup sessionId).map _).getD [] = _
          rw [FileBackend.readData_writeData, if_pos rfl]
          change (((OrderedDict.assign _ sessionId _).lookup sessionId).map _).getD [] = _
          rw [OrderedDict.lookup_assign, if_pos rfl]
          rfl
  | sqlite s =>
      simp only [written, call, SQLiteBackend.call, SQLiteBackend.saveSession, Option.getD_none]
      cases messages.mapM fun msg =>
          (MessageRecord.fromOpenaiMessage msg).bind SQLiteBackend.writable with
      | none => rfl
      | some records =>
          refine ⟨rfl, ?_⟩
          change (SQLiteBackend.store _ _ _ _ _ _ _).messagesOf sessionId = _
          rw [SQLiteBackend.messagesOf_store, if_pos rfl]

theorem mapM_toDict {write : Dict → Option MessageRecord} (messages : List StrategyMessage)
    (each : ∀ message : StrategyMessage, write message.toDict = some message.toRecord) :
    (messages.map StrategyMessage.toDict).mapM write =
      some (messages.map StrategyMessage.toRecord) := by
  induction messages with
  | nil => rfl
  | cons message rest ih =>
      rw [List.map_cons, List.mapM_cons, each, ih]
      rfl

/-- Messages of a strategy are written as they are. -/
theorem written_toDict (backend : PersistenceBackend) (world : World)
    (messages : List StrategyMessage) :
    backend.written world (messages.map StrategyMessage.toDict) =
      some (messages.map StrategyMessage.toRecord) := by
  cases backend with
  | file s =>
      simp only [written, mapM_toDict messages fromOpenaiMessage_toDict, Option.map_some,
        List.map_map]
      rfl
  | sqlite s =>
      refine mapM_toDict messages fun message => ?_
      rw [fromOpenaiMessage_toDict]
      rfl

end PersistenceBackend

namespace MemoryManager

/-- Saving the context of a strategy never raises. -/
theorem saveCurrentSession_done (world : World) (manager : MemoryManager)
    (backend : PersistenceBackend) : (manager.saveCurrentSession world backend).2 = .done := by
  unfold saveCurrentSession
  split
  · rfl
  · have saved := backend.call_saveSession world
      (manager.strategy.getContext.map StrategyMessage.toDict) manager.currentSessionId
      manager.agentId manager.tenant
    rw [PersistenceBackend.written_toDict] at saved
    exact saved.1

/-- The end of a session raises exactly where the strategy does, and saves nothing then. -/
theorem onSessionEnd_eq (world : World) (manager : MemoryManager) (backend : PersistenceBackend)
    (llmCall : LLMCall) :
    manager.onSessionEnd world (some backend) llmCall =
      match manager.strategy.onSessionEnd llmCall with
      | (strategy, .ok ()) =>
          ({ manager with strategy := strategy },
            some (saveCurrentSession world { manager with strategy := strategy } backend).1,
            .ok ())
      | (strategy, .error fault) =>
          ({ manager with strategy := strategy }, some backend, .error fault) := by
  cases ended : manager.strategy.onSessionEnd llmCall with
  | mk strategy result =>
      cases result with
      | error fault => simp only [onSessionEnd, ended]
      | ok value =>
          have done := saveCurrentSession_done world { manager with strategy := strategy } backend
          simp only [onSessionEnd, ended]
          split
          · rename_i raised
            rw [raised] at done
            cases done
          · rename_i saved
            rw [saved]

end MemoryManager

end YouMi.Memory

import YouMi.Library.Purging
import YouMi.Memory.SessionEnds
import YouMi.Memory.SharedBackends

/-!
# Sessions of two tenants in one backend

Agents of two tenants share a backend.  A session id is the only name of a session: a
load by id and a write ask for no tenant.  What one tenant sees of its own calls is the
same without the calls of the other as long as neither the other writes under a session
id of the tenant nor the tenant names one of the other's.
-/

namespace YouMi.Memory

open YouMi.Core YouMi.Library YouMi.Python

/-- What an agent does with its manager, or with the backend behind it. -/
inductive MemoryEvent where
  | manager (event : ManagerEvent)
  | listSessions (world : World)
  | getLatestSession (world : World)
  | deleteSession (world : World) (sessionId : String)

/-- What an agent gets to see of it. -/
inductive Seen where
  | nothing
  | ended (result : Except Fault Unit)
  | restored (messages : Option (List Dict))
  | answered (answer : Answer)

namespace Desk

section Act

variable (lower : String → String)

/-- The call that an agent makes to the backend itself. -/
def directCall (s : Desk) : MemoryEvent → Option (World × Operation)
  | .manager _ => none
  | .listSessions world => some (world, .listSessions s.manager.agentId (some s.manager.tenant))
  | .getLatestSession world =>
      some (world, .getLatestSession s.manager.agentId (some s.manager.tenant))
  | .deleteSession world sessionId => some (world, .deleteSession sessionId)

def act (s : Desk) (event : MemoryEvent) : Desk :=
  match event, s.directCall event with
  | .manager event, _ => s.step lower event
  | _, some (world, operation) => { s with backend := (s.backend.call world operation).1 }
  | _, none => s

def sees (s : Desk) (event : MemoryEvent) : Seen :=
  match event, s.directCall event with
  | .manager (.message role content llmCall), _ =>
      .ended (s.manager.onMessage lower role content llmCall).2
  | .manager (.sessionEnd world llmCall), _ =>
      .ended (s.manager.onSessionEnd world (some s.backend) llmCall).2.2
  | .manager (.restore world sessionId), _ =>
      .restored (s.manager.restoreSession world (some s.backend) sessionId).2
  | .manager (.save world messages sessionId fresh), _ =>
      .answered (s.manager.saveSession world (some s.backend) messages sessionId fresh).2.2
  | _, some (world, operation) => .answered (s.backend.call world operation).2
  | _, none => .nothing

end Act

/-- An event names only the tenant's session ids, and saves a session where it is. -/
def OwnEvent (mine : String → Bool) (s : Desk) : MemoryEvent → Prop
  | .manager (.sessionEnd _ _) =>
      s.manager.currentSessionId ≠ "" →
        mine s.manager.currentSessionId = true ∧
          s.backend.Home s.manager.currentSessionId s.manager.agentId
  | .manager (.restore _ sessionId) => sessionId ≠ "" → mine sessionId = true
  | .manager (.save _ _ sessionId fresh) =>
      mine (s.manager.saveTarget sessionId fresh) = true ∧
        s.backend.Home (s.manager.saveTarget sessionId fresh) s.manager.agentId
  | .deleteSession _ sessionId => mine sessionId = true
  | _ => True

/-- An event writes under none of the tenant's session ids. -/
def OtherEvent (mine : String → Bool) (s : Desk) : MemoryEvent → Prop
  | .manager (.sessionEnd _ _) =>
      s.manager.currentSessionId ≠ "" → mine s.manager.currentSessionId = false
  | .manager (.save _ _ sessionId fresh) =>
      mine (s.manager.saveTarget sessionId fresh) = false
  | .deleteSession _ sessionId => mine sessionId = false
  | _ => True

end Desk

/-! ## One event in two backends that are alike -/

section Alike

open PersistenceBackend

variable {mine : String → Bool} {tenant : String} {full purged : PersistenceBackend}
  {manager : MemoryManager} {world : World} {lower : String → String}

theorem restored_alike (alike : full.Alike mine tenant purged) {sessionId : String}
    (own : mine sessionId = true) :
    manager.restored world full sessionId = manager.restored world purged sessionId := by
  have load : full.OwnCall mine tenant (.loadMessages sessionId) := own
  unfold MemoryManager.restored
  rw [(alike.own_call world load).1]

theorem restoreSession_alike (alike : full.Alike mine tenant purged) (world : World)
    (asked : manager.tenant = tenant) {sessionId : String}
    (own : sessionId ≠ "" → mine sessionId = true) :
    manager.restoreSession world (some full) sessionId =
      manager.restoreSession world (some purged) sessionId := by
  unfold MemoryManager.restoreSession
  dsimp only
  split
  · rename_i named
    exact restored_alike alike (own named)
  · have ask : full.OwnCall mine tenant
        (.getLatestSession manager.agentId (some manager.tenant)) := congrArg some asked
    rw [← (alike.own_call world ask).1]
    split
    · rename_i latest found
      rw [asked] at found
      exact restored_alike alike (alike.mine_of_latest found)
    · rfl

/-- The call by which a manager saves its context. -/
theorem saveCurrentSession_alike (alike : full.Alike mine tenant purged)
    (asked : manager.tenant = tenant)
    (own : manager.currentSessionId ≠ "" → mine manager.currentSessionId = true ∧
      full.Home manager.currentSessionId manager.agentId) :
    (manager.saveCurrentSession world full).1.Alike mine tenant
      (manager.saveCurrentSession world purged).1 := by
  unfold MemoryManager.saveCurrentSession
  by_cases named : manager.currentSessionId = ""
  · rw [if_pos named, if_pos named]
    exact alike
  · rw [if_neg named, if_neg named]
    have call : full.OwnCall mine tenant (manager.saveCall manager.currentSessionId
      (manager.strategy.getContext.map StrategyMessage.toDict)) := ⟨asked, own named⟩
    exact (alike.own_call world call).2

theorem onSessionEnd_alike (alike : full.Alike mine tenant purged) (world : World)
    (llmCall : LLMCall) (asked : manager.tenant = tenant)
    (own : manager.currentSessionId ≠ "" → mine manager.currentSessionId = true ∧
      full.Home manager.currentSessionId manager.agentId) :
    (manager.onSessionEnd world (some full) llmCall).2.2 =
        (manager.onSessionEnd world (some purged) llmCall).2.2 ∧
      (manager.onSessionEnd world (some full) llmCall).1 =
        (manager.onSessionEnd world (some purged) llmCall).1 ∧
      ((manager.onSessionEnd world (some full) llmCall).2.1.getD full).Alike mine tenant
        ((manager.onSessionEnd world (some purged) llmCall).2.1.getD purged) := by
  rw [MemoryManager.onSessionEnd_eq, MemoryManager.onSessionEnd_eq]
  cases manager.strategy.onSessionEnd llmCall with
  | mk strategy result =>
      cases result with
      | error fault => exact ⟨rfl, rfl, alike⟩
      | ok value => exact ⟨rfl, rfl, saveCurrentSession_alike alike asked own⟩

/-- A save of given messages is one call to the backend. -/
theorem save_eq (lower : String → String) (manager : MemoryManager)
    (backend : PersistenceBackend) (world : World) (messages : List Dict) (sessionId fresh : String) :
    let desk : Desk := ⟨manager, backend⟩
    let event := MemoryEvent.manager (.save world messages sessionId fresh)
    let operation := manager.saveCall (manager.saveTarget sessionId fresh) messages
    desk.sees lower event = .answered (backend.call world operation).2 ∧
      desk.act lower event =
        ⟨if sessionId = "" ∧ manager.currentSessionId = "" then manager.startSession "" fresh
          else manager, (backend.call world operation).1⟩ := by
  have saved := manager.saveSession_eq world backend messages sessionId fresh
  constructor
  · exact congrArg (fun result => Seen.answered result.2.2) saved
  · exact congrArg (fun result => Desk.mk result.1 (result.2.1.getD backend)) saved

/-- The tenant sees its own event alike in alike backends, which stay alike. -/
theorem own_act (lower : String → String) (alike : full.Alike mine tenant purged)
    (asked : manager.tenant = tenant) {event : MemoryEvent} (own : Desk.OwnEvent mine ⟨manager, full⟩ event) :
    (⟨manager, full⟩ : Desk).sees lower event = (⟨manager, purged⟩ : Desk).sees lower event ∧
      ((⟨manager, full⟩ : Desk).act lower event).manager =
        ((⟨manager, purged⟩ : Desk).act lower event).manager ∧
      ((⟨manager, full⟩ : Desk).act lower event).backend.Alike mine tenant
        ((⟨manager, purged⟩ : Desk).act lower event).backend := by
  cases event with
  | manager event =>
      cases event with
      | startSession sessionId fresh => exact ⟨rfl, rfl, alike⟩
      | message role content llmCall => exact ⟨rfl, rfl, alike⟩
      | sessionEnd world llmCall =>
          obtain ⟨result, after, backends⟩ := onSessionEnd_alike alike world llmCall asked own
          exact ⟨congrArg Seen.ended result, after, backends⟩
      | restore world sessionId =>
          have same := restoreSession_alike alike world asked own
          exact ⟨congrArg Seen.restored (congrArg Prod.snd same), congrArg Prod.fst same, alike⟩
      | save world messages sessionId fresh =>
          have call : full.OwnCall mine tenant
              (manager.saveCall (manager.saveTarget sessionId fresh) messages) := ⟨asked, own⟩
          obtain ⟨answer, after⟩ := alike.own_call world call
          obtain ⟨seen, acted⟩ := save_eq lower manager full world messages sessionId fresh
          obtain ⟨seen', acted'⟩ := save_eq lower manager purged world messages sessionId fresh
          rw [seen, seen', acted, acted', answer]
          exact ⟨rfl, rfl, after⟩
  | listSessions world =>
      have call : full.OwnCall mine tenant
          (.listSessions manager.agentId (some manager.tenant)) := congrArg some asked
      obtain ⟨answer, after⟩ := alike.own_call world call
      exact ⟨congrArg Seen.answered answer, rfl, after⟩
  | getLatestSession world =>
      have call : full.OwnCall mine tenant
          (.getLatestSession manager.agentId (some manager.tenant)) := congrArg some asked
      obtain ⟨answer, after⟩ := alike.own_call world call
      exact ⟨congrArg Seen.answered answer, rfl, after⟩
  | deleteSession world sessionId =>
      have call : full.OwnCall mine tenant (.deleteSession sessionId) := own
      obtain ⟨answer, after⟩ := alike.own_call world call
      exact ⟨congrArg Seen.answered answer, rfl, after⟩

/-- An event of another tenant that writes under other session ids is not seen. -/
theorem other_act (alike : full.Alike mine tenant purged) (asked : manager.tenant ≠ tenant)
    {event : MemoryEvent} (other : Desk.OtherEvent mine ⟨manager, full⟩ event) :
    ((⟨manager, full⟩ : Desk).act lower event).backend.Alike mine tenant purged := by
  cases event with
  | manager event =>
      cases event with
      | startSession sessionId fresh => exact alike
      | message role content llmCall => exact alike
      | restore world sessionId => exact alike
      | sessionEnd world llmCall =>
          change ((manager.onSessionEnd world (some full) llmCall).2.1.getD full).Alike mine tenant
            purged
          rw [MemoryManager.onSessionEnd_eq]
          cases manager.strategy.onSessionEnd llmCall with
          | mk strategy result =>
              cases result with
              | error fault => exact alike
              | ok value =>
                  change (MemoryManager.saveCurrentSession world _ full).1.Alike mine tenant purged
                  unfold MemoryManager.saveCurrentSession
                  dsimp only
                  split
                  · exact alike
                  · rename_i named
                    exact alike.other_call world ⟨asked, other named⟩
      | save world messages sessionId fresh =>
          rw [(save_eq lower manager full world messages sessionId fresh).2]
          exact alike.other_call world ⟨asked, other⟩
  | listSessions world => exact alike.other_call world trivial
  | getLatestSession world => exact alike.other_call world trivial
  | deleteSession world sessionId => exact alike.other_call world other

/-- A manager keeps its tenant. -/
theorem tenant_act (desk : Desk) (event : MemoryEvent) :
    (desk.act lower event).manager.tenant = desk.manager.tenant := by
  cases event with
  | manager event =>
      cases event with
      | startSession sessionId fresh => rfl
      | message role content llmCall => rfl
      | sessionEnd world llmCall =>
          change (MemoryManager.onSessionEnd _ _ _ _).1.tenant = _
          rw [MemoryManager.onSessionEnd_eq]
          cases desk.manager.strategy.onSessionEnd llmCall with
          | mk strategy result =>
              cases result with
              | error fault => rfl
              | ok value => rfl
      | restore world sessionId =>
          change (MemoryManager.restoreSession _ _ _ _).1.tenant = _
          unfold MemoryManager.restoreSession MemoryManager.restored
          grind
      | save world messages sessionId fresh =>
          rw [(save_eq lower desk.manager desk.backend world messages sessionId fresh).2]
          split
          · rfl
          · rfl
  | listSessions world => rfl
  | getLatestSession world => rfl
  | deleteSession world sessionId => rfl

end Alike

/-! ## Two tenants -/

/-- An event of an agent of the tenant, or of the other one. -/
structure TenantEvent where
  own : Bool
  agentId : String
  event : MemoryEvent

/-- A backend, and the managers of the tenant's agents and of the other's. -/
structure Tenants where
  backend : PersistenceBackend
  managers : Bool → String → MemoryManager

namespace Tenants

def desk (s : Tenants) (event : TenantEvent) : Desk :=
  ⟨s.managers event.own event.agentId, s.backend⟩

section Step

variable (lower : String → String)

def step (s : Tenants) (event : TenantEvent) : Tenants :=
  let after := (s.desk event).act lower event.event
  { backend := after.backend
    managers := Function.update s.managers event.own
      (Function.update (s.managers event.own) event.agentId after.manager) }

def sees (s : Tenants) (event : TenantEvent) : Seen := (s.desk event).sees lower event.event

end Step

/-- Each tenant keeps to its own session ids. -/
def Separate (mine : String → Bool) (s : Tenants) (event : TenantEvent) : Prop :=
  if event.own then (s.desk event).OwnEvent mine event.event
  else (s.desk event).OtherEvent mine event.event

/-- An empty backend and new managers. -/
def begin (sqlite : Bool) (tenant other : String) (strategies : Bool → String → MemoryStrategy) :
    Tenants where
  backend := if sqlite then .sqlite {} else .file {}
  managers := fun own agentId =>
    .create agentId (if own then tenant else other) (strategies own agentId).begin

/-- The same for the tenant, whose agents have the same managers. -/
structure Alike (mine : String → Bool) (tenant : String) (full purged : Tenants) : Prop where
  backend : full.backend.Alike mine tenant purged.backend
  managers : full.managers true = purged.managers true
  own : ∀ agentId, (full.managers true agentId).tenant = tenant
  other : ∀ agentId, (full.managers false agentId).tenant ≠ tenant

variable {mine : String → Bool} {tenant : String} {full purged : Tenants} {event : TenantEvent}
  {lower : String → String}

theorem alike_begin (sqlite : Bool) (tenant other : String)
    (strategies : Bool → String → MemoryStrategy)
    (different : MemoryManager.tenantOrDefault tenant ≠ MemoryManager.tenantOrDefault other) :
    Alike mine (MemoryManager.tenantOrDefault tenant) (begin sqlite tenant other strategies)
      (begin sqlite tenant other strategies) where
  backend := by
    cases sqlite with
    | true =>
        exact ⟨rfl, fun _ _ => rfl, fun _ member => absurd member List.not_mem_nil,
          fun _ member => absurd member List.not_mem_nil⟩
    | false =>
        exact ⟨fun _ => rfl, fun _ _ member => absurd member List.not_mem_nil,
          fun _ _ member => absurd member List.not_mem_nil, fun _ _ _ _ present => nomatch present⟩
  managers := rfl
  own := fun _ => rfl
  other := fun _ => Ne.symm different

theorem managers_step (lower : String → String) (s : Tenants) (event : TenantEvent) (own : Bool)
    (agentId : String) :
    (s.step lower event).managers own agentId =
      if own = event.own ∧ agentId = event.agentId then
        ((s.desk event).act lower event.event).manager
      else s.managers own agentId := by
  change Function.update s.managers event.own _ own agentId = _
  by_cases side : own = event.own
  · subst side
    rw [Function.update_self]
    by_cases same : agentId = event.agentId
    · subst same
      simp
    · simp [same]
  · simp [side]

/-- Every manager keeps its tenant. -/
theorem tenant_step (lower : String → String) (s : Tenants) (event : TenantEvent) (own : Bool)
    (agentId : String) :
    ((s.step lower event).managers own agentId).tenant = (s.managers own agentId).tenant := by
  rw [managers_step]
  split
  · rename_i same
    rw [tenant_act, desk, same.1, same.2]
  · rfl

theorem Alike.own_step (alike : Alike mine tenant full purged) (lower : String → String)
    (own : event.own = true) (separate : full.Separate mine event) :
    full.sees lower event = purged.sees lower event ∧
      Alike mine tenant (full.step lower event) (purged.step lower event) := by
  have ownEvent : (full.desk event).OwnEvent mine event.event := by
    unfold Separate at separate
    rwa [if_pos own] at separate
  have asked : (full.managers event.own event.agentId).tenant = tenant := by
    rw [own]
    exact alike.own event.agentId
  have same : purged.desk event = ⟨full.managers event.own event.agentId, purged.backend⟩ := by
    unfold desk
    rw [own, alike.managers]
  obtain ⟨seen, after, backends⟩ := own_act lower alike.backend asked ownEvent
  constructor
  · unfold sees
    rw [same]
    exact seen
  · refine ⟨?_, ?_, fun agentId => ?_, fun agentId => ?_⟩
    · change ((full.desk event).act lower event.event).backend.Alike mine tenant
        ((purged.desk event).act lower event.event).backend
      rw [same]
      exact backends
    · funext agentId
      rw [managers_step, managers_step, same, alike.managers]
      split
      · exact after
      · rfl
    · rw [tenant_step]
      exact alike.own agentId
    · rw [tenant_step]
      exact alike.other agentId

theorem Alike.other_step (alike : Alike mine tenant full purged) (lower : String → String)
    (other : event.own = false) (separate : full.Separate mine event) :
    Alike mine tenant (full.step lower event) purged := by
  have otherEvent : (full.desk event).OtherEvent mine event.event := by
    unfold Separate at separate
    rwa [if_neg (by simp [other])] at separate
  have asked : (full.managers event.own event.agentId).tenant ≠ tenant := by
    rw [other]
    exact alike.other event.agentId
  refine ⟨other_act alike.backend asked otherEvent, ?_, fun agentId => ?_, fun agentId => ?_⟩
  · funext agentId
    rw [managers_step, if_neg (by simp [other]), alike.managers]
  · rw [tenant_step]
    exact alike.own agentId
  · rw [tenant_step]
    exact alike.other agentId

end Tenants

end YouMi.Memory

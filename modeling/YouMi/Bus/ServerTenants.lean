import YouMi.Bus.Server
import YouMi.Bus.BrokerLaws

/-!
# Connections and tenants

While a connection is open its agent should be subscribed under the tenant of the
connection's principal, and what the connection publishes should carry that tenant.
The tables are by agent id, so a second `subscribe` of a connection, another
connection under the same id and a cleanup all write the same entry.
-/

namespace YouMi.Bus

open YouMi.Library InProcessBroker

/-- The entries of an open connection's agent are those its principal should have. -/
structure Bound (server : BusServer) (session : Session) : Prop where
  subscribed : server.broker.agentTenants.lookup session.agentId = some session.tenant
  attributed : server.tenantOf session.agentId = session.tenant

/-- The connection is open with this session. -/
def OpenAs (server : BusServer) (connection : Nat) (session : Session) : Prop :=
  server.sessions.lookup connection = some session ∧ session.isOpen = true

def Attributed (server : BusServer) : Prop :=
  ∀ connection session, OpenAs server connection session → Bound server session

/-- A message that is published from a connection carries the tenant of its principal. -/
def PublishesOwnTenant (server : BusServer) : ServerEvent → Prop
  | .receive connection (.message message _) =>
      ∀ session, OpenAs server connection session →
        (server.attributed session.agentId message).tenant = session.tenant
  | _ => True

/-- No open connection but this one has the agent id. -/
def OnlyConnection (server : BusServer) (connection : Nat) (agentId : String) : Prop :=
  ∀ other session, OpenAs server other session → session.agentId = agentId →
    other = connection

/-- A first `subscribe` names a tenant, the one that open connections of the same agent id
have; a further one comes from the default tenant; and the connection that ends is the only
one of its agent id. -/
def OneTenant (server : BusServer) : ServerEvent → Prop
  | .receive connection (.subscribe agentId workflowId principal) =>
      match server.sessions.lookup connection with
      | none =>
          ∀ tenant, principal = some tenant →
            tenant ≠ "" ∧ ∀ other session, OpenAs server other session →
              session.agentId = agentId → session.tenant = tenant
      | some session =>
          session.isOpen = true → workflowId = "" ∨ session.tenant = "default"
  | .disconnect connection =>
      ∀ session, OpenAs server connection session →
        session.agentId = "" ∨ OnlyConnection server connection session.agentId
  | _ => True

variable {server : BusServer}

theorem Attributed.publishes (attributed : Attributed server) (event : ServerEvent) :
    PublishesOwnTenant server event := by
  unfold PublishesOwnTenant
  split
  · intro session isOpen
    exact (attributed _ session isOpen).attributed
  · trivial

/-- With the same tenants and no other open connections, an attributed server stays so. -/
theorem Attributed.of_fewer {after : BusServer} (attributed : Attributed server)
    (subscribed : after.broker.agentTenants = server.broker.agentTenants)
    (tenants : after.agentTenants = server.agentTenants)
    (sessions : ∀ connection session, OpenAs after connection session →
      ∃ before, OpenAs server connection before ∧ before.agentId = session.agentId ∧
        before.tenant = session.tenant) : Attributed after := by
  intro connection session isOpen
  obtain ⟨before, was_open, sameAgent, sameTenant⟩ := sessions connection session isOpen
  have bound := attributed connection before was_open
  constructor
  · rw [subscribed, ← sameAgent, ← sameTenant]
    exact bound.subscribed
  · unfold BusServer.tenantOf
    rw [tenants, ← sameAgent, ← sameTenant]
    exact bound.attributed

/-- Only the push loop of a connection changes. -/
theorem openAs_setPush {connection other : Nat} {session found : Session} {push : PushLoop}
    (there : server.sessions.lookup connection = some session)
    (isOpen : OpenAs (server.setPush connection session push) other found) :
    ∃ before, OpenAs server other before ∧ before.agentId = found.agentId ∧
      before.tenant = found.tenant := by
  obtain ⟨lookup, isOpen⟩ := isOpen
  unfold BusServer.setPush at lookup
  rw [OrderedDict.lookup_assign] at lookup
  split at lookup
  · rename_i same
    obtain rfl := Option.some.inj lookup
    exact ⟨session, ⟨same ▸ there, isOpen⟩, rfl, rfl⟩
  · exact ⟨found, ⟨lookup, isOpen⟩, rfl, rfl⟩

theorem tenantOrDefault_eq_self_iff {tenant : String} :
    tenantOrDefault tenant = tenant ↔ tenant ≠ "" := by
  unfold tenantOrDefault
  split
  · rename_i empty
    subst empty
    simp
  · rename_i named
    simp [named]

theorem first_subscribe_iff {connection : Nat} {agentId workflowId tenant : String}
    (attributed : Attributed server) (missing : server.sessions.lookup connection = none) :
    Attributed (server.handleConnection connection
        (.subscribe agentId workflowId (some tenant))) ↔
      tenant ≠ "" ∧ ∀ other session, OpenAs server other session →
        session.agentId = agentId → session.tenant = tenant := by
  unfold BusServer.handleConnection
  rw [missing]
  dsimp only
  constructor
  · intro after
    have new := after connection { agentId, tenant }
      ⟨OrderedDict.lookup_assign_self, rfl⟩
    have kept := new.subscribed
    rw [agentTenants_subscribe, if_pos rfl] at kept
    refine ⟨tenantOrDefault_eq_self_iff.mp (Option.some.inj kept), ?_⟩
    intro other session isOpen same
    have ne : other ≠ connection := by
      rintro rfl
      exact absurd (missing.symm.trans isOpen.1) (by simp)
    have bound := after other session
      ⟨(OrderedDict.lookup_assign_ne ne).trans isOpen.1, isOpen.2⟩
    have theirs := bound.subscribed
    rw [same, agentTenants_subscribe, if_pos rfl] at theirs
    exact (Option.some.inj theirs).symm.trans (Option.some.inj kept)
  · rintro ⟨named, agree⟩ other session ⟨lookup, isOpen⟩
    rw [OrderedDict.lookup_assign] at lookup
    have same_tenant : session.agentId = agentId → session.tenant = tenant := by
      split at lookup
      · intro _
        rw [← Option.some.inj lookup]
      · exact agree other session ⟨lookup, isOpen⟩
    have before : session.agentId ≠ agentId → Bound server session := by
      intro ne
      split at lookup
      · exact absurd (congrArg Session.agentId (Option.some.inj lookup)).symm ne
      · exact attributed other session ⟨lookup, isOpen⟩
    by_cases same : session.agentId = agentId
    · constructor
      · rw [same, agentTenants_subscribe, if_pos rfl, same_tenant same]
        exact congrArg some (tenantOrDefault_eq_self_iff.mpr named)
      · unfold BusServer.tenantOf
        rw [same, OrderedDict.lookup_assign_self, same_tenant same]
        rfl
    · constructor
      · rw [agentTenants_subscribe, if_neg same]
        exact (before same).subscribed
      · unfold BusServer.tenantOf
        rw [OrderedDict.lookup_assign_ne same]
        exact (before same).attributed

theorem further_subscribe_iff {connection : Nat} {session : Session} {workflowId : String}
    (attributed : Attributed server) (isOpen : OpenAs server connection session) :
    Attributed { server with
        broker := server.broker.subscribe session.agentId workflowId "default" } ↔
      session.tenant = "default" := by
  constructor
  · intro after
    have kept := (after connection session isOpen).subscribed
    rw [agentTenants_subscribe, if_pos rfl] at kept
    exact (Option.some.inj kept).symm
  · intro fromDefault other theirs theirs_open
    have bound := attributed other theirs theirs_open
    refine ⟨?_, bound.attributed⟩
    rw [agentTenants_subscribe]
    split
    · rename_i same
      have mine := (attributed connection session isOpen).subscribed
      rw [← same, bound.subscribed, fromDefault] at mine
      rw [Option.some.inj mine]
      rfl
    · exact bound.subscribed

theorem cleanup_iff {connection : Nat} {session : Session} (attributed : Attributed server)
    (isOpen : OpenAs server connection session) :
    Attributed (server.disconnect connection) ↔
      session.agentId = "" ∨ OnlyConnection server connection session.agentId := by
  obtain ⟨found, is_open⟩ := isOpen
  have after_open : ∀ {after : BusServer} {other : Nat} {theirs : Session},
      after.sessions = server.sessions.assign connection (BusServer.closed session) →
      OpenAs after other theirs → other ≠ connection ∧ OpenAs server other theirs := by
    intro after other theirs sessions ⟨lookup, theirs_open⟩
    rw [sessions, OrderedDict.lookup_assign] at lookup
    split at lookup
    · rw [← Option.some.inj lookup] at theirs_open
      unfold BusServer.closed at theirs_open
      split at theirs_open <;> cases theirs_open
    · rename_i ne
      exact ⟨ne, lookup, theirs_open⟩
  unfold BusServer.disconnect
  rw [found]
  dsimp only
  rw [if_pos is_open]
  by_cases nameless : session.agentId = ""
  · rw [if_pos nameless]
    refine iff_of_true (attributed.of_fewer rfl rfl ?_) (.inl nameless)
    intro other theirs theirs_open
    exact ⟨theirs, (after_open rfl theirs_open).2, rfl, rfl⟩
  · rw [if_neg nameless, or_iff_right nameless]
    unfold BusServer.cleanupAgent
    constructor
    · intro after other theirs theirs_open same
      by_contra ne
      have bound := after other theirs
        ⟨(OrderedDict.lookup_assign_ne ne).trans theirs_open.1, theirs_open.2⟩
      have gone := bound.subscribed
      unfold unsubscribe at gone
      rw [same, OrderedDict.lookup_erase_self] at gone
      cases gone
    · intro only other theirs theirs_open
      obtain ⟨ne, before⟩ := after_open rfl theirs_open
      have other_agent : theirs.agentId ≠ session.agentId :=
        fun same => ne (only other theirs before same)
      have bound := attributed other theirs before
      constructor
      · exact (OrderedDict.lookup_erase_ne other_agent).trans bound.subscribed
      · unfold BusServer.tenantOf
        rw [OrderedDict.lookup_erase_ne other_agent]
        exact bound.attributed

theorem receive_iff (attributed : Attributed server) (connection : Nat)
    (envelope : BusEnvelope) :
    Attributed (server.handleConnection connection envelope) ↔
      OneTenant server (.receive connection envelope) := by
  cases found : server.sessions.lookup connection with
  | none =>
      cases envelope with
      | subscribe agentId workflowId principal =>
          unfold OneTenant
          dsimp only
          rw [found]
          cases principal with
          | none =>
              unfold BusServer.handleConnection
              rw [found]
              exact iff_of_true attributed fun _ none_given => nomatch none_given
          | some tenant =>
              rw [first_subscribe_iff attributed found]
              simp
      | _ =>
          unfold BusServer.handleConnection OneTenant
          rw [found]
          exact iff_of_true attributed trivial
  | some session =>
      by_cases is_open : session.isOpen = true
      · rw [BusServer.handleConnection_of_open found is_open]
        cases envelope with
        | subscribe agentId workflowId principal =>
            unfold BusServer.handleEnvelope OneTenant
            dsimp only
            rw [found]
            by_cases empty : workflowId = ""
            · rw [if_pos empty]
              exact iff_of_true attributed fun _ => .inl empty
            · rw [if_neg empty, further_subscribe_iff attributed ⟨found, is_open⟩]
              simp [is_open, empty]
        | message message freshAck =>
            refine iff_of_true (attributed.of_fewer ?_ rfl ?_) trivial
            · exact (sameTables_publish ..).agentTenants
            · exact fun _ theirs theirs_open => ⟨theirs, theirs_open, rfl, rfl⟩
        | ack messageId =>
            unfold BusServer.handleEnvelope
            dsimp only
            refine iff_of_true ?_ trivial
            split
            · exact attributed
            · exact attributed.of_fewer rfl rfl
                fun _ theirs theirs_open => ⟨theirs, theirs_open, rfl, rfl⟩
        | other => exact iff_of_true attributed trivial
      · rw [BusServer.handleConnection_of_closed found is_open]
        refine iff_of_true attributed ?_
        unfold OneTenant
        cases envelope with
        | subscribe agentId workflowId principal =>
            dsimp only
            rw [found]
            exact fun now => absurd now is_open
        | _ => trivial

theorem disconnect_iff (attributed : Attributed server) (connection : Nat) :
    Attributed (server.disconnect connection) ↔ OneTenant server (.disconnect connection) := by
  unfold OneTenant
  dsimp only
  by_cases isOpen : ∃ session, OpenAs server connection session
  · obtain ⟨session, isOpen⟩ := isOpen
    rw [cleanup_iff attributed isOpen]
    constructor
    · intro settled other other_open
      rw [← Option.some.inj (isOpen.1.symm.trans other_open.1)]
      exact settled
    · intro settled
      exact settled session isOpen
  · have unchanged : server.disconnect connection = server := by
      unfold BusServer.disconnect
      split
      · rfl
      · rename_i session found
        exact if_neg fun is_open => isOpen ⟨session, found, is_open⟩
    rw [unchanged]
    exact iff_of_true attributed fun session theirs => absurd ⟨session, theirs⟩ isOpen

theorem Attributed.of_onlyPush {after : BusServer} (attributed : Attributed server)
    {connection : Nat} (only : BusServer.OnlyPush server connection after) : Attributed after := by
  rcases only with rfl | ⟨session, push, found, rfl⟩
  · exact attributed
  · exact attributed.of_fewer rfl rfl fun _ _ isOpen => openAs_setPush found isOpen

/-- A step of an attributed server keeps it so exactly if it meets the condition. -/
theorem attributed_step_iff (attributed : Attributed server) (event : ServerEvent) :
    Attributed (server.step event) ↔ OneTenant server event := by
  cases event with
  | receive connection envelope => exact receive_iff attributed connection envelope
  | disconnect connection => exact disconnect_iff attributed connection
  | publish message freshAck =>
      refine iff_of_true (attributed.of_fewer ?_ rfl ?_) trivial
      · exact (sameTables_publish ..).agentTenants
      · exact fun _ theirs theirs_open => ⟨theirs, theirs_open, rfl, rfl⟩
  | pushWait connection =>
      exact iff_of_true (attributed.of_onlyPush (BusServer.onlyPush_wait connection)) trivial
  | pushTimeout connection =>
      exact iff_of_true (attributed.of_onlyPush (BusServer.onlyPush_timeout connection)) trivial
  | pushTake connection outcome =>
      refine iff_of_true ?_ trivial
      unfold BusServer.step BusServer.pushTake
      dsimp only
      split
      · exact attributed
      · rename_i session message broker taken
        obtain ⟨found, number, _, first⟩ := BusServer.pushTaken_eq_some taken
        have same := sameTables_takeFirst first
        have kept : Attributed { server with broker } :=
          attributed.of_fewer same.agentTenants rfl
            fun _ theirs theirs_open => ⟨theirs, theirs_open, rfl, rfl⟩
        exact kept.of_onlyPush (.inr ⟨session, _, found, rfl⟩)
  | pushResume connection outcome =>
      exact iff_of_true
        (attributed.of_onlyPush (BusServer.onlyPush_resume connection outcome)) trivial

/-- Whatever the broker held when the server started: the open connections have their
principals' tenants, and publish under them, exactly if every step meets the condition. -/
theorem attributed_throughout_iff (broker : InProcessBroker) (events : List ServerEvent) :
    Throughout BusServer.step Attributed { broker } events ∧
        StepsMeet BusServer.step PublishesOwnTenant { broker } events ↔
      StepsMeet BusServer.step OneTenant { broker } events := by
  have init : Attributed { broker } := fun connection session isOpen => by cases isOpen.1
  refine throughout_and_stepsMeet_iff (fun _ => True) Attributed (fun _ _ _ => trivial) ?_
    trivial init events
  intro server event _ attributed
  rw [attributed_step_iff attributed event]
  exact and_iff_left (attributed.publishes event)

/-- A second workflow of the same connection moves its agent to the default tenant. -/
theorem further_subscribe_changes_tenant :
    ¬Throughout BusServer.step Attributed {}
      [.receive 0 (.subscribe "a" "" (some "t1")), .receive 0 (.subscribe "a" "wf-0001" none)] := by
  intro always
  have bound := always 2 0 { agentId := "a", tenant := "t1" } ⟨rfl, rfl⟩
  exact absurd (Option.some.inj bound.subscribed) (by decide)

end YouMi.Bus

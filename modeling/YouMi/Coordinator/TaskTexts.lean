import YouMi.Coordinator.Handoff
import YouMi.Python.Format

/-!
# The task in a delegation's message

The message of a delegation is its template with the task put in place of `{task}`.
The task should stand in it, whatever braces it has.
-/

namespace YouMi.Coordinator

open YouMi.Core YouMi.Bus YouMi.Python

/-- The ways to `_execute_delegation`: the handoffs, and the tool executor's own. -/
inductive Delegation where
  | handoff (way : Handoff)
  | execute (payload : DelegationPayload)

def Delegation.payload (lower : String → String) (self : BusAgent) :
    Delegation → Option DelegationPayload
  | .handoff way => way.payload lower self
  | .execute payload => some payload

/-- `{task}` -/
def taskField : ReplacementField where
  name := "task".toList

section

variable (render : ReplacementField → String → Except Fault String)

/-- `template.format(task=task)`; `render` is how a field is evaluated. -/
def formatTask (template task : String) : Except Fault String :=
  Python.format .exception (fun field => render field task) template

/-- The template itself is at fault: it is no template, or has another field that fails. -/
def TemplateFails (payload : DelegationPayload) (fault : Fault) : Prop :=
  (∃ message, .malformed message ∈ markupOf payload.messageTemplate ∧
      fault = .exception message) ∨
    ∃ field, .field field ∈ markupOf payload.messageTemplate ∧ field ≠ taskField ∧
      render field payload.task = .error fault

/-- The message has the task in it, and only a template can be at fault if there is none. -/
structure CarriesTask (agent : BusAgent) (messageId : String) (payload : DelegationPayload) :
    Prop where
  carried : ∀ message,
    beginDelegation (formatTask render) agent payload messageId = .published message →
      payload.task.toList <:+: message.content.toList
  atFault : ∀ fault,
    beginDelegation (formatTask render) agent payload messageId = .raised fault →
      TemplateFails render payload fault

end

/-- `Agent.handoff` is called without a template; a rule's or a payload's has `{task}`. -/
def Delegation.Templated (lower : String → String) (self : BusAgent) : Delegation → Prop
  | .handoff (.agent _ _ messageTemplate) => messageTemplate = ""
  | .handoff (.protocol _ _ _ _ _) => True
  | .handoff (.auto messageContent _) => ∀ rule,
      matchHandoffRule lower self messageContent = some rule →
        .field taskField ∈ markupOf rule.messageTemplate
  | .execute payload => .field taskField ∈ markupOf payload.messageTemplate

/-- `Agent.handoff`, called directly or by the protocol, reaches the bus. -/
def Delegation.HandedOver (self : BusAgent) : Delegation → Prop
  | .handoff (.agent targetAgentId _ _) => targetAgentId ≠ "" ∧ self.connected = true
  | .handoff (.protocol registered alive targetAgentId _ _) =>
      (registered && alive) = true ∧ targetAgentId ≠ "" ∧ self.connected = true
  | _ => False

variable {render : ReplacementField → String → Except Fault String} {lower : String → String}
  {self : BusAgent} {payload : DelegationPayload} {messageId : String}

/-- A published message has the formatted template as its content. -/
theorem formatTask_of_published {format : String → String → Except Fault String}
    {message : WorkflowMessage}
    (published : beginDelegation format self payload messageId = .published message) :
    format payload.messageTemplate payload.task = .ok message.content := by
  obtain ⟨_, _, _, delegatedTask, formatted, rfl⟩ := beginDelegation_published published
  exact formatted

theorem formatTask_of_raised {format : String → String → Except Fault String} {fault : Fault}
    (raised : beginDelegation format self payload messageId = .raised fault) :
    format payload.messageTemplate payload.task = .error fault := by
  unfold beginDelegation at raised
  split at raised
  · cases raised
  · dsimp only at raised
    split at raised
    · cases raised
    · split at raised
      · rename_i other failed
        cases raised
        exact failed
      · split at raised <;> cases raised

theorem published_of_formatTask {format : String → String → Except Fault String} {text : String}
    (messageId : String) (payload : DelegationPayload) (named : payload.targetAgentId ≠ "")
    (below : payload.depth < self.handoff.maxDepthFor payload.targetAgentId)
    (connected : self.connected = true)
    (formatted : format payload.messageTemplate payload.task = .ok text) :
    ∃ message, beginDelegation format self payload messageId = .published message ∧
      message.content = text := by
  unfold beginDelegation
  dsimp only
  rw [if_neg named, if_neg (Int.not_le.mpr below), formatted]
  dsimp only
  rw [if_pos connected]
  exact ⟨_, rfl, rfl⟩

/-- A template with `{task}` carries the task. -/
theorem carriesTask_of_field (plain : ∀ task, render taskField task = .ok task)
    (has : .field taskField ∈ markupOf payload.messageTemplate) :
    CarriesTask render self messageId payload where
  carried _ published :=
    infix_renderMarkup has (plain payload.task) (formatTask_of_published published)
  atFault fault raised := by
    rcases renderMarkup_eq_error (formatTask_of_raised raised) with ill | ⟨field, inside, fails⟩
    · exact .inl ill
    · refine .inr ⟨field, inside, ?_, fails⟩
      rintro rfl
      cases (plain payload.task).symm.trans fails

/-- Without a template nothing of the task is carried, where a message goes out. -/
theorem carriesTask_handoff_iff {targetAgentId task : String} (nonempty : task ≠ "") :
    CarriesTask render self messageId (handoffPayload targetAgentId task "") ↔
      ¬(targetAgentId ≠ "" ∧ self.connected = true) := by
  have empty : formatTask render "" task = .ok "" := rfl
  constructor
  · rintro carries ⟨named, connected⟩
    have below : (0 : Int) < self.handoff.maxDepthFor targetAgentId :=
      Int.natCast_pos.mpr (one_le_maxDepthFor self.handoff targetAgentId)
    obtain ⟨message, published, content⟩ :=
      published_of_formatTask messageId (handoffPayload targetAgentId task "") named below
        connected empty
    have inside := carries.carried message published
    rw [content] at inside
    exact nonempty (String.toList_eq_nil_iff.mp (List.infix_nil.mp inside))
  · intro unsent
    refine ⟨fun message published => ?_, fun fault raised => ?_⟩
    · obtain ⟨named, -, connected, -⟩ := beginDelegation_published published
      exact absurd ⟨named, connected⟩ unsent
    · cases (formatTask_of_raised raised).symm.trans empty

/--
A delegation of any non-empty task carries it into its message, whatever braces it has,
exactly if it is not `Agent.handoff` without a template that reaches the bus.
-/
theorem carriesTask_iff (render : ReplacementField → String → Except Fault String)
    (lower : String → String) (self : BusAgent) (messageId : String) (delegation : Delegation)
    (plain : ∀ task, render taskField task = .ok task)
    (templated : delegation.Templated lower self)
    (nonempty : ∀ payload, delegation.payload lower self = some payload → payload.task ≠ "") :
    (∀ payload, delegation.payload lower self = some payload →
        CarriesTask render self messageId payload) ↔
      ¬delegation.HandedOver self := by
  have reached_iff {payload : DelegationPayload} :
      (∀ other, some payload = some other → CarriesTask render self messageId other) ↔
        CarriesTask render self messageId payload :=
    ⟨fun carries => carries payload rfl, fun carries other same => by cases same; exact carries⟩
  cases delegation with
  | execute payload =>
      refine iff_of_true ?_ id
      intro other same
      cases same
      exact carriesTask_of_field plain templated
  | handoff way =>
      cases way with
      | agent targetAgentId task messageTemplate =>
          cases (templated : messageTemplate = "")
          exact reached_iff.trans (carriesTask_handoff_iff (nonempty _ rfl))
      | protocol registered alive targetAgentId task depth =>
          cases present : registered && alive with
          | false =>
              refine iff_of_true ?_ fun ⟨isPresent, _⟩ => ?_
              · intro payload reaches
                rw [Delegation.payload, Handoff.payload, present] at reaches
                cases reaches
              · rw [present] at isPresent
                cases isPresent
          | true =>
              have reaches : Delegation.payload lower self
                  (.handoff (.protocol registered alive targetAgentId task depth)) =
                    some (handoffPayload targetAgentId task "") := by
                rw [Delegation.payload, Handoff.payload, present]
                rfl
              rw [Delegation.HandedOver, present, reaches, eq_self, true_and]
              exact reached_iff.trans (carriesTask_handoff_iff (nonempty _ reaches))
      | auto messageContent task =>
          refine iff_of_true ?_ id
          intro payload reaches
          obtain ⟨rule, isMatch, rfl⟩ := Option.map_eq_some_iff.mp reaches
          exact carriesTask_of_field plain (templated rule isMatch)

/-- The template of a rule or a payload that gives none has the field. -/
example : .field taskField ∈ markupOf ({} : DelegationPayload).messageTemplate := by decide

/-- The fields of a call with one keyword argument. -/
def renderTask (field : ReplacementField) (task : String) : Except Fault String :=
  if field = taskField then .ok task else .error (.exception "KeyError")

/-- A task with braces, delegated by the tool executor. -/
theorem carriesTask_iff_braces :
    (∀ payload,
        Delegation.payload id { agentId := "a" }
            (.execute { targetAgentId := "b", task := "print \x7bx\x7d \x7b" }) = some payload →
          CarriesTask renderTask { agentId := "a" } "m" payload) ↔
      ¬Delegation.HandedOver { agentId := "a" }
        (.execute { targetAgentId := "b", task := "print \x7bx\x7d \x7b" }) :=
  carriesTask_iff renderTask id { agentId := "a" } "m"
    (.execute { targetAgentId := "b", task := "print \x7bx\x7d \x7b" }) (fun _ => rfl)
    (show .field taskField ∈ markupOf _ by decide) fun _ same => by cases same; decide

/-- The message of an agent's own handoff is empty. -/
theorem not_carriesTask_handoff :
    ¬∀ payload,
      Delegation.payload id { agentId := "a" } (.handoff (.agent "b" "report" "")) =
          some payload →
        CarriesTask renderTask { agentId := "a" } "m" payload := by
  intro carries
  have inside := (carries _ rfl).carried _ rfl
  exact absurd inside (by decide)

end YouMi.Coordinator

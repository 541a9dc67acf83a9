import YouMi.Coordinator.GuardianQueue

/-!
# What counts as a change

An attempt of the guardian counts as a change for what its fix offers, and not for what becomes
of the tool: texts of parameters are not taken over without a new description, and the server may
refuse the update or have lost the tool.
-/

namespace YouMi.Coordinator

open YouMi.Core YouMi.Library YouMi.Memory YouMi.Python

/-! ## The tools of a server -/

/-- A provider with the definitions that it gives out.  One that is no `LocalFunctionProvider` may
have a way of its own to update them: what they are afterwards, and what it answers. -/
inductive ToolProvider where
  | localFunction (definitions : OrderedDict String ToolTexts)
  | other (definitions : String → Option ToolTexts)
      (update : Option ((String → Option ToolTexts) × Except Fault Bool))

namespace ToolProvider

def getToolDefinition (provider : ToolProvider) (toolName : String) : Option ToolTexts :=
  match provider with
  | .localFunction definitions => definitions.lookup toolName
  | .other definitions _ => definitions toolName

/-- `update_tool_description`, as far as the provider has it. -/
def updateToolDescription (provider : ToolProvider) (toolName : String)
    (description paramDescriptions : PyVal) : ToolProvider × Except Fault Bool :=
  match provider with
  | .localFunction definitions =>
      match definitions.lookup toolName with
      | none => (provider, .ok false)
      | some texts =>
          match texts.update description paramDescriptions with
          | .error fault => (provider, .error fault)
          | .ok updated => (.localFunction (definitions.assign toolName updated), .ok true)
  | .other _ none => (provider, .ok false)
  | .other _ (some (definitions, answer)) =>
      (.other definitions (some (definitions, answer)), answer)

/-- What an update of the tool is handed on to. -/
def updater (provider : ToolProvider) (toolName : String) : Updater :=
  match provider with
  | .localFunction definitions =>
      match definitions.lookup toolName with
      | none => .other (.ok false)
      | some texts => .localFunction texts
  | .other _ none => .other (.ok false)
  | .other _ (some (_, answer)) => .other answer

theorem answer_updateToolDescription (provider : ToolProvider) (toolName : String)
    (description updates : PyVal) :
    (provider.updateToolDescription toolName description updates).2 =
      (provider.updater toolName).updateToolDescription description updates := by
  unfold updateToolDescription updater
  cases provider with
  | localFunction definitions =>
      dsimp only
      cases definitions.lookup toolName with
      | none => rfl
      | some texts =>
          dsimp only [Updater.updateToolDescription]
          cases texts.update description updates <;> rfl
  | other definitions update => cases update <;> rfl

end ToolProvider

/-- The routes and the providers of an `MCPServer`. -/
structure ToolServer where
  toolRoute : OrderedDict String String
  providers : OrderedDict String ToolProvider

namespace ToolServer

def providerOf (server : ToolServer) (toolName : String) : Option ToolProvider :=
  (server.toolRoute.lookup toolName).bind fun providerId => server.providers.lookup providerId

def getToolDefinition (server : ToolServer) (toolName : String) : Option ToolTexts :=
  (server.providerOf toolName).bind fun provider => provider.getToolDefinition toolName

def updateToolDescription (server : ToolServer) (toolName : String)
    (description paramDescriptions : PyVal) : ToolServer × Except Fault Bool :=
  match server.toolRoute.lookup toolName with
  | none => (server, .ok false)
  | some providerId =>
      match server.providers.lookup providerId with
      | none => (server, .ok false)
      | some provider =>
          let (provider, answer) :=
            provider.updateToolDescription toolName description paramDescriptions
          ({ server with providers := server.providers.assign providerId provider }, answer)

def updater (server : ToolServer) (toolName : String) : Updater :=
  match server.providerOf toolName with
  | none => .other (.ok false)
  | some provider => provider.updater toolName

variable {server : ToolServer} {toolName : String} {description updates : PyVal}

/-- An attempt gets the answers of its server. -/
theorem answer_updateToolDescription :
    (server.updateToolDescription toolName description updates).2 =
      (server.updater toolName).updateToolDescription description updates := by
  unfold updateToolDescription updater providerOf
  cases routed : server.toolRoute.lookup toolName with
  | none => rfl
  | some providerId =>
      rw [Option.bind_some]
      dsimp only
      cases found : server.providers.lookup providerId with
      | none => rfl
      | some provider => exact provider.answer_updateToolDescription toolName description updates

/-- An update reaches the provider of the tool only. -/
theorem getToolDefinition_update :
    (server.updateToolDescription toolName description updates).1.getToolDefinition toolName =
      (server.providerOf toolName).bind fun provider =>
        (provider.updateToolDescription toolName description updates).1.getToolDefinition
          toolName := by
  unfold updateToolDescription getToolDefinition providerOf
  cases routed : server.toolRoute.lookup toolName with
  | none =>
      dsimp only
      rw [routed]
      rfl
  | some providerId =>
      dsimp only
      rw [Option.bind_some]
      cases found : server.providers.lookup providerId with
      | none =>
          dsimp only
          rw [routed, Option.bind_some, found]
          rfl
      | some provider =>
          dsimp only
          rw [routed, Option.bind_some, OrderedDict.lookup_assign_self]
          rfl

end ToolServer

/-! ## What an update changes -/

/-- The values that updates have for names. -/
def entriesOf : PyVal → Dict
  | .dict entries => entries
  | _ => []

/-- A text as the updates leave it. -/
def textAfter (updates : PyVal) (parameter : String × PyVal) : PyVal :=
  ((entriesOf updates).lookup parameter.1).getD parameter.2

theorem eq_of_assignText {updates text assigned : PyVal} {name : String}
    (done : assignText updates name text = .ok assigned) :
    assigned = textAfter updates (name, text) := by
  obtain ⟨named, isNamed, chosen⟩ := bind_eq_ok_iff.mp done
  cases updates with
  | dict entries =>
      cases isNamed
      unfold textAfter entriesOf
      cases found : entries.lookup name with
      | none =>
          rw [found] at chosen
          exact (Except.ok.inj chosen).symm
      | some value =>
          rw [found] at chosen
          unfold subscript at chosen
          dsimp only [Option.isSome_some] at chosen
          rw [if_pos rfl, found] at chosen
          exact (Except.ok.inj chosen).symm
  | _ =>
      cases named with
      | true => cases chosen
      | false => exact (Except.ok.inj chosen).symm

theorem eq_of_assignTexts {updates : PyVal} {parameters assigned : List (String × PyVal)}
    (done : assignTexts updates parameters = .ok assigned) :
    assigned = parameters.map fun parameter => (parameter.1, textAfter updates parameter) := by
  induction parameters generalizing assigned with
  | nil => exact (Except.ok.inj done).symm
  | cons parameter rest ih =>
      obtain ⟨name, text⟩ := parameter
      obtain ⟨first, here, later⟩ := bind_eq_ok_iff.mp done
      obtain ⟨others, there, same⟩ := bind_eq_ok_iff.mp later
      rw [← Except.ok.inj same, eq_of_assignText here, ih there]
      rfl

/-- What the updates leave of the texts of a tool. -/
def ToolTexts.after (texts : ToolTexts) (description updates : PyVal) : ToolTexts where
  description := description
  parameters := texts.parameters.map fun parameter => (parameter.1, textAfter updates parameter)

theorem ToolTexts.eq_of_update {texts updated : ToolTexts} {description updates : PyVal}
    (done : texts.update description updates = .ok updated) :
    updated = texts.after description updates := by
  obtain ⟨parameters, assigned, same⟩ := bind_eq_ok_iff.mp done
  rw [← Except.ok.inj same]
  unfold ToolTexts.after
  by_cases some : truthy updates = true
  · rw [if_pos some] at assigned
    rw [eq_of_assignTexts assigned]
  · rw [if_neg some] at assigned
    have none : entriesOf updates = [] := by
      unfold entriesOf
      cases updates with
      | dict entries => simpa [truthy] using some
      | _ => rfl
    have kept (parameter : String × PyVal) :
        (parameter.1, textAfter updates parameter) = parameter := by
      unfold textAfter
      rw [none]
      rfl
    rw [← Except.ok.inj assigned, funext kept, List.map_id']

/-- A description or a text of a parameter becomes another. -/
theorem ToolTexts.after_ne_iff {texts : ToolTexts} {description updates : PyVal} :
    texts.after description updates ≠ texts ↔ description ≠ texts.description ∨
      ∃ parameter ∈ texts.parameters, textAfter updates parameter ≠ parameter.2 := by
  have same : texts.after description updates = texts ↔ description = texts.description ∧
      ∀ parameter ∈ texts.parameters, textAfter updates parameter = parameter.2 := by
    obtain ⟨old, parameters⟩ := texts
    unfold ToolTexts.after
    rw [ToolTexts.mk.injEq]
    refine and_congr_right fun _ => ?_
    dsimp only
    nth_rewrite 2 [← List.map_id parameters]
    rw [List.map_inj_left]
    exact forall₂_congr fun parameter _ => ⟨fun kept => congrArg Prod.snd kept,
      fun kept => Prod.ext rfl kept⟩
  rw [Ne, same, not_and_or]
  push Not
  rfl

namespace ToolProvider

/-- The update gives the tool another definition.  A `LocalFunctionProvider` that has the tool
takes it over, if the updates are of a kind that it can read. -/
def Reassigns (provider : ToolProvider) (toolName : String) (description updates : PyVal) : Prop :=
  match provider with
  | .localFunction definitions => ∃ texts, definitions.lookup toolName = some texts ∧
      (truthy updates = true → ∀ parameter ∈ texts.parameters, TakesName updates parameter.1) ∧
      (description ≠ texts.description ∨
        ∃ parameter ∈ texts.parameters, textAfter updates parameter ≠ parameter.2)
  | .other definitions update => ∃ made ∈ update, made.1 toolName ≠ definitions toolName

theorem getToolDefinition_ne_iff (provider : ToolProvider) (toolName : String)
    (description updates : PyVal) :
    (provider.updateToolDescription toolName description updates).1.getToolDefinition toolName ≠
        provider.getToolDefinition toolName ↔
      provider.Reassigns toolName description updates := by
  unfold updateToolDescription getToolDefinition Reassigns
  cases provider with
  | other definitions update =>
      cases update with
      | none => simp
      | some made => simp
  | localFunction definitions =>
      dsimp only
      cases found : definitions.lookup toolName with
      | none => simp [found]
      | some texts =>
          dsimp only
          cases updated : texts.update description updates with
          | error fault =>
              refine iff_of_false (fun differs => differs found) ?_
              rintro ⟨texts, same, takes, -⟩
              obtain rfl := Option.some.inj same
              obtain ⟨assigned, done⟩ := ToolTexts.update_ok_iff.mpr takes
              rw [updated] at done
              cases done
          | ok assigned =>
              have takes := ToolTexts.update_ok_iff.mp ⟨assigned, updated⟩
              dsimp only
              rw [OrderedDict.lookup_assign_self, Ne, Option.some.injEq,
                ToolTexts.eq_of_update updated, ← Ne, ToolTexts.after_ne_iff]
              constructor
              · exact fun differs => ⟨texts, rfl, takes, differs⟩
              · rintro ⟨texts, same, -, differs⟩
                obtain rfl := Option.some.inj same
                exact differs

end ToolProvider

namespace ToolServer

/-- The server gives the tool another definition. -/
def Reassigns (server : ToolServer) (toolName : String) (description updates : PyVal) : Prop :=
  ∃ provider ∈ server.providerOf toolName, provider.Reassigns toolName description updates

theorem getToolDefinition_ne_iff {server : ToolServer} {toolName : String}
    {description updates : PyVal} :
    (server.updateToolDescription toolName description updates).1.getToolDefinition toolName ≠
        server.getToolDefinition toolName ↔
      server.Reassigns toolName description updates := by
  rw [getToolDefinition_update]
  unfold getToolDefinition Reassigns
  cases server.providerOf toolName with
  | none => simp
  | some provider => simp [provider.getToolDefinition_ne_iff]

end ToolServer

/-! ## What an attempt does -/

namespace AttemptUse

/-- An attempt that reads the tool at a server, and updates it when others may have changed it. -/
def onServer (use : AttemptUse) (seen met : ToolServer) (toolName : String) : AttemptUse :=
  { use with
    definition := seen.getToolDefinition toolName
    updater := met.updater toolName }

/-- What the attempt makes of a fix is the answer of the server. -/
theorem apply_onServer (use : AttemptUse) (seen met : ToolServer) (toolName : String)
    (texts : ToolTexts) (fix : Fix) :
    (use.onServer seen met toolName).apply texts fix = if fix.redescribes texts then
      (met.updateToolDescription toolName fix.newDescription fix.paramUpdates).2 else .ok false := by
  rw [ToolServer.answer_updateToolDescription]
  rfl

/-- The steps up to the fix. -/
def suggest (use : AttemptUse) (toolName : String) (texts : ToolTexts)
    (reports : List ToolIssueReport) : Except Fault Fix := do
  let knowledge ← use.loadToolKnowledge
  use.collectEvidence texts
  use.offer toolName texts reports knowledge

/-- The texts that are read and the fix for them, if the attempt comes so far. -/
def suggestion (use : AttemptUse) (toolName : String) (reports : List ToolIssueReport) :
    Option (ToolTexts × Fix) :=
  use.definition.bind fun texts =>
    (use.suggest toolName texts reports).toOption.map fun fix => (texts, fix)

/-- Nothing raises once there is a fix. -/
structure Ends (use : AttemptUse) (texts : ToolTexts) (fix : Fix) : Prop where
  takes : fix.redescribes texts = true → use.Takes fix
  persists : (use.updates texts fix || truthy fix.codeSuggestion) = true →
    ∀ memory ∈ use.memory, Persistable texts fix memory

variable {use : AttemptUse} {toolName : String} {texts : ToolTexts}
  {reports : List ToolIssueReport} {fix : Fix}

theorem suggest_eq_ok_iff : use.suggest toolName texts reports = .ok fix ↔
    use.Ready texts ∧ use.Offers toolName texts reports fix := by
  rw [← offer_eq_ok_iff]
  constructor
  · intro done
    obtain ⟨knowledge, loaded, done⟩ := bind_eq_ok_iff.mp done
    obtain ⟨knows, rfl⟩ := loadToolKnowledge_eq_ok_iff.mp loaded
    obtain ⟨collected, offered⟩ := seq_eq_ok_iff.mp done
    obtain ⟨description, versionChain, gitHistory⟩ := collectEvidence_eq_ok_iff.mp collected
    exact ⟨⟨knows, description, versionChain, gitHistory⟩, offered⟩
  · rintro ⟨ready, offered⟩
    exact bind_eq_ok_iff.mpr
      ⟨use.known, loadToolKnowledge_eq_ok_iff.mpr ⟨ready.knowledge, rfl⟩, seq_eq_ok_iff.mpr
        ⟨collectEvidence_eq_ok_iff.mpr ⟨ready.description, ready.versionChain, ready.gitHistory⟩,
          offered⟩⟩

theorem suggestion_eq_some_iff : use.suggestion toolName reports = some (texts, fix) ↔
    use.definition = some texts ∧ use.suggest toolName texts reports = .ok fix := by
  unfold suggestion
  rw [Option.bind_eq_some_iff]
  constructor
  · rintro ⟨seen, defined, suggested⟩
    obtain ⟨offered, isOffered, same⟩ := Option.map_eq_some_iff.mp suggested
    obtain ⟨rfl, rfl⟩ := Prod.mk.inj same
    refine ⟨defined, ?_⟩
    cases made : use.suggest toolName seen reports with
    | error fault =>
        rw [made] at isOffered
        cases isOffered
    | ok found =>
        rw [made] at isOffered
        exact congrArg Except.ok (Option.some.inj isOffered)
  · rintro ⟨defined, suggested⟩
    refine ⟨texts, defined, ?_⟩
    rw [suggested]
    rfl

theorem suggest_of_attempt {updated : Bool}
    (done : use.attempt toolName texts reports = .ok (fix, updated)) :
    use.suggest toolName texts reports = .ok fix := by
  obtain ⟨ready, offers, -⟩ := attempt_eq_ok_iff.mp done
  exact suggest_eq_ok_iff.mpr ⟨ready, offers⟩

/-- An attempt that has a fix ends where nothing raises. -/
theorem attempt_of_suggest (suggested : use.suggest toolName texts reports = .ok fix) :
    (∃ updated, use.attempt toolName texts reports = .ok (fix, updated)) ↔ use.Ends texts fix := by
  obtain ⟨ready, offers⟩ := suggest_eq_ok_iff.mp suggested
  constructor
  · rintro ⟨updated, done⟩
    obtain ⟨-, -, ⟨takes, rfl⟩, persists⟩ := attempt_eq_ok_iff.mp done
    exact ⟨takes, persists⟩
  · intro ends
    exact ⟨_, attempt_eq_ok_iff.mpr ⟨ready, offers, ⟨ends.takes, rfl⟩, ends.persists⟩⟩

end AttemptUse

namespace ToolGuardian

/-- The attempt ends and is settled: the counter of the tool is reset and a version committed. -/
def TreatsAsChange (s : ToolGuardian) (use : AttemptUse) (toolName : String)
    (reports : List ToolIssueReport) : Prop :=
  ∃ texts fix updated, use.definition = some texts ∧
    use.attempt toolName texts reports = .ok (fix, updated) ∧
    s.processToolReports use toolName reports =
      s.settle use (attemptResult toolName reports fix updated)

/-- The server after the attempt. -/
def serverAfter (met : ToolServer) (toolName : String) :
    Option (ToolTexts × Fix) → ToolServer
  | none => met
  | some (texts, fix) =>
      if fix.redescribes texts then
        (met.updateToolDescription toolName fix.newDescription fix.paramUpdates).1
      else met

/-- The attempt counts as a change exactly if the definition of the tool differs afterwards or
code is suggested. -/
def CountsRightly (s : ToolGuardian) (use : AttemptUse) (met : ToolServer) (toolName : String)
    (reports : List ToolIssueReport) : Prop :=
  let suggestion := use.suggestion toolName reports
  s.TreatsAsChange use toolName reports ↔
    (serverAfter met toolName suggestion).getToolDefinition toolName ≠
        met.getToolDefinition toolName ∨
      ∃ found ∈ suggestion, truthy found.2.codeSuggestion = true

/-- The server is asked for the update, and gives the tool another definition. -/
def Alters (met : ToolServer) (toolName : String) (texts : ToolTexts) (fix : Fix) : Prop :=
  fix.redescribes texts = true ∧ met.Reassigns toolName fix.newDescription fix.paramUpdates

/-- What the fix offers comes about: code, or another definition of the tool, or it offers
nothing; where an exception cuts the attempt short, there is neither. -/
def OffersCount (use : AttemptUse) (met : ToolServer) (toolName : String)
    (reports : List ToolIssueReport) : Prop :=
  ∀ texts fix, use.suggestion toolName reports = some (texts, fix) →
    (use.Ends texts fix ∧ (truthy fix.codeSuggestion = true ∨ Alters met toolName texts fix ∨
      (fix.redescribes texts = false ∧ truthy fix.paramUpdates = false))) ∨
    (¬use.Ends texts fix ∧ truthy fix.codeSuggestion = false ∧ ¬Alters met toolName texts fix)

section Counting

variable {s : ToolGuardian} {use : AttemptUse} {met : ToolServer} {toolName : String}
  {texts : ToolTexts} {reports : List ToolIssueReport} {fix : Fix}

/-- What is tried again or escalated is not settled. -/
theorem retry_ne_settle (s : ToolGuardian) (use : AttemptUse) (reports : List ToolIssueReport)
    {result : FixResult} (fine : result.error = none) :
    s.retry use reports result ≠ s.settle use result := by
  have retried : ∃ outcome, (s.retry use reports result).2 = .ok outcome ∧
      outcome.error ≠ none := by
    unfold retry
    dsimp only
    split
    · exact ⟨_, rfl, nofun⟩
    · exact ⟨_, rfl, nofun⟩
  have settled {outcome : FixResult} (done : (s.settle use result).2 = .ok outcome) :
      outcome.error = none := by
    unfold settle at done
    dsimp only at done
    cases committed : use.commitFixVersion with
    | error fault =>
        rw [committed] at done
        cases done
    | ok toolId =>
        rw [committed] at done
        cases done
        exact fine
  intro same
  obtain ⟨outcome, done, errs⟩ := retried
  rw [same] at done
  exact errs (settled done)

theorem treatsAsChange_iff : s.TreatsAsChange use toolName reports ↔
    ∃ texts fix, use.suggestion toolName reports = some (texts, fix) ∧ use.Ends texts fix ∧
      fix.changed texts = true := by
  constructor
  · rintro ⟨texts, fix, updated, known, attempted, settled⟩
    have suggested := AttemptUse.suggest_of_attempt attempted
    refine ⟨texts, fix, AttemptUse.suggestion_eq_some_iff.mpr ⟨known, suggested⟩,
      (AttemptUse.attempt_of_suggest suggested).mp ⟨updated, attempted⟩, ?_⟩
    by_contra unchanged
    rw [processToolReports_of_attempt s known attempted, if_neg unchanged] at settled
    exact retry_ne_settle s use reports rfl settled
  · rintro ⟨texts, fix, isSuggested, ends, changed⟩
    obtain ⟨known, suggested⟩ := AttemptUse.suggestion_eq_some_iff.mp isSuggested
    obtain ⟨updated, attempted⟩ := (AttemptUse.attempt_of_suggest suggested).mpr ends
    refine ⟨texts, fix, updated, known, attempted, ?_⟩
    rw [processToolReports_of_attempt s known attempted, if_pos changed]

theorem differs_iff : (serverAfter met toolName (some (texts, fix))).getToolDefinition toolName ≠
    met.getToolDefinition toolName ↔ Alters met toolName texts fix := by
  unfold serverAfter Alters
  dsimp only
  split
  · rename_i redescribes
    rw [ToolServer.getToolDefinition_ne_iff]
    exact (and_iff_right redescribes).symm
  · rename_i kept
    exact iff_of_false (fun differs => differs rfl) fun alters => kept alters.1

/-- What an attempt with a fix counts as. -/
theorem countsRightly_of_suggestion
    (suggested : use.suggestion toolName reports = some (texts, fix)) :
    s.CountsRightly use met toolName reports ↔ (use.Ends texts fix ∧ fix.changed texts = true ↔
      Alters met toolName texts fix ∨ truthy fix.codeSuggestion = true) := by
  unfold CountsRightly
  dsimp only
  rw [treatsAsChange_iff, suggested, differs_iff]
  refine iff_congr ?_ (or_congr_right ?_)
  · exact ⟨fun ⟨_, _, same, counts⟩ => by cases same; exact counts,
      fun counts => ⟨texts, fix, rfl, counts⟩⟩
  · exact ⟨fun ⟨_, same, given⟩ => by cases same; exact given, fun given => ⟨_, rfl, given⟩⟩

theorem changed_iff : fix.changed texts = true ↔ fix.redescribes texts = true ∨
    truthy fix.paramUpdates = true ∨ truthy fix.codeSuggestion = true := by
  unfold Fix.changed
  rw [Bool.or_eq_true, Bool.or_eq_true, or_assoc]

end Counting

/-- An attempt counts as what becomes of it exactly where what its fix offers comes about. -/
theorem countsRightly_iff (s : ToolGuardian) (use : AttemptUse) (seen met : ToolServer)
    (toolName : String) (reports : List ToolIssueReport) :
    s.CountsRightly (use.onServer seen met toolName) met toolName reports ↔
      OffersCount (use.onServer seen met toolName) met toolName reports := by
  unfold OffersCount
  cases suggested : (use.onServer seen met toolName).suggestion toolName reports with
  | none =>
      refine iff_of_true ?_ nofun
      unfold CountsRightly
      dsimp only
      rw [treatsAsChange_iff, suggested]
      refine iff_of_false (fun ⟨_, _, same, _⟩ => by cases same) ?_
      rintro (differs | ⟨_, same, _⟩)
      · exact differs rfl
      · cases same
  | some found =>
      obtain ⟨texts, fix⟩ := found
      have one (Cond : ToolTexts → Fix → Prop) :
          (∀ known offered, some (texts, fix) = some (known, offered) → Cond known offered) ↔
            Cond texts fix :=
        ⟨fun all => all texts fix rfl, fun here known offered same => by cases same; exact here⟩
      have asked : Alters met toolName texts fix → fix.redescribes texts = true := And.left
      rw [countsRightly_of_suggestion suggested, one, changed_iff, ← Bool.not_eq_true,
        ← Bool.not_eq_true, ← Bool.not_eq_true]
      by_cases ends : (use.onServer seen met toolName).Ends texts fix
      · -- It counts for what the fix offers.
        simp only [ends, true_and, not_true, false_and, or_false]
        tauto
      · -- It counts for nothing.
        simp only [ends, false_and, not_false_eq_true, true_and, false_or, false_iff, not_or]
        exact and_comm

/-! ## Parameters without a description -/

/-- A server with a tool that has one parameter. -/
def searchServer : ToolServer where
  toolRoute := [("search", "local")]
  providers := [("local", .localFunction
    [("search", { description := .str "Searches.", parameters := [("query", .str "A text.")] })])]

/-- The reply names a text for the parameter only. -/
def parameterReply : AttemptUse where
  definition := none
  updater := .other (.ok false)
  llm := some (.ok (some (.dict [("param_updates", .dict [("query", .str "Words.")])])))

def searchReport : ToolIssueReport where
  toolName := "search"
  issueType := .parameterBoundary

theorem not_countsRightly_parameterReply :
    ¬CountsRightly {} (parameterReply.onServer searchServer searchServer "search") searchServer
      "search" [searchReport] := by
  intro counts
  rcases counts.mp ⟨_, _, _, rfl, rfl, rfl⟩ with differs | ⟨found, isFound, given⟩
  · exact differs rfl
  · obtain rfl := Option.some.inj isFound
    cases given

end ToolGuardian

end YouMi.Coordinator

import YouMi.Coordinator.GuardianAttempts

/-!
# Reports that are tried again

The guardian's queue is a queue whose items are tried again, as long as no attempt raises
and every fix that counts as a change is one.  Then each report ends exactly once, as fixed,
escalated or errored, a tool is escalated at the last attempt that it is allowed, and the
queue is empty after as many calls as there are attempts for each report.
-/

namespace YouMi.Coordinator

open YouMi.Core YouMi.Library YouMi.Memory YouMi.Python

namespace FixResult

/-- The description was updated, code suggested or a version committed. -/
def changedSomething (result : FixResult) : Bool :=
  result.descriptionUpdated || truthy result.codeSuggestion || result.fixVersion.isSome

/-- How the reports of the result end, if they do. -/
def ending (result : FixResult) : Option RetryQueue.Ending :=
  if result.retryScheduled then none
  else if result.escalated then some .givenUp
  else if result.error.isSome then some .errored
  else if result.changedSomething then some .done
  else none

/-- The attempt that the result is of, if there was one. -/
def attempted (result : FixResult) : Option (RetryQueue.Attempt String) :=
  if result.fixAttempts = 0 then none
  else some ⟨result.toolName, !result.changedSomething, result.escalated⟩

end FixResult

namespace ToolGuardian

/-- The reports of the result, as they end. -/
def Handled.ended (handled : Handled) : List (ToolIssueReport × RetryQueue.Ending) :=
  match handled.result.ending with
  | none => []
  | some ending => handled.reports.map (·, ending)

/-- The guardian's queue, with what has become of the reports. -/
def queue (s : ToolGuardian) (handled : List Handled) : RetryQueue String ToolIssueReport where
  pending := s.pendingReports
  strikes := s.attempts
  ended := handled.flatMap Handled.ended
  attempts := handled.filterMap fun handled => handled.result.attempted

variable {s s' : ToolGuardian} {use : AttemptUse} {toolName : String}
  {reports : List ToolIssueReport} {result : FixResult} {handled : List Handled}

theorem attempts_erase (s : ToolGuardian) (toolName : String) :
    ({ s with fixAttempts := s.fixAttempts.erase toolName } : ToolGuardian).attempts =
      Function.update s.attempts toolName 0 := by
  funext other
  unfold attempts
  dsimp only
  by_cases same : other = toolName
  · subst same
    rw [OrderedDict.lookup_erase_self, Function.update_self]
    rfl
  · rw [OrderedDict.lookup_erase_ne same, Function.update_of_ne same]

theorem attempts_assign (s : ToolGuardian) (pending : List ToolIssueReport) (toolName : String)
    (count : Nat) :
    ({ pendingReports := pending
       fixAttempts := s.fixAttempts.assign toolName count } : ToolGuardian).attempts =
      Function.update s.attempts toolName count := by
  funext other
  unfold attempts
  dsimp only
  by_cases same : other = toolName
  · subst same
    rw [OrderedDict.lookup_assign_self, Function.update_self]
    rfl
  · rw [OrderedDict.lookup_assign_ne same, Function.update_of_ne same]

/-- How the work on the reports of a tool comes out. -/
def verdict (use : AttemptUse) (toolName : String) (reports : List ToolIssueReport) :
    RetryQueue.Verdict :=
  match use.definition with
  | none => .errored
  | some texts =>
      match use.attempt toolName texts reports with
      | .error _ => .errored
      | .ok (fix, _) => if fix.changed texts then .done else .idle

/-- The work on the reports of one tool is that of the queue. -/
structure Serves (s : ToolGuardian) (handled : List Handled) (use : AttemptUse)
    (toolName : String) (reports : List ToolIssueReport) (s' : ToolGuardian)
    (result : FixResult) : Prop where
  processed : s.processToolReports use toolName reports = (s', .ok result)
  serves : s'.queue (handled ++ [⟨reports, result⟩]) =
    (s.queue handled).serve autoFixMaxAttempts toolName reports (verdict use toolName reports)

theorem queue_append (s : ToolGuardian) (handled : List Handled) {last : Handled}
    {ended : List (ToolIssueReport × RetryQueue.Ending)}
    {attempt : Option (RetryQueue.Attempt String)} (ends : last.ended = ended)
    (attempted : last.result.attempted = attempt) :
    s.queue (handled ++ [last]) =
      { pending := s.pendingReports
        strikes := s.attempts
        ended := (s.queue handled).ended ++ ended
        attempts := (s.queue handled).attempts ++ attempt.toList } := by
  unfold queue
  rw [List.flatMap_append, List.filterMap_append, List.flatMap_singleton, ends]
  congr 2
  cases attempt with
  | none => simp [attempted]
  | some found => simp [attempted]

/-- Reports of a tool that is not known end as errors. -/
theorem serves_of_unknown (s : ToolGuardian) (handled : List Handled) (toolName : String)
    (reports : List ToolIssueReport) (unknown : use.definition = none) :
    ∃ result, Serves s handled use toolName reports s result := by
  have verdictErrored : verdict use toolName reports = .errored := by
    unfold verdict
    rw [unknown]
  refine ⟨_, by unfold processToolReports; rw [unknown], ?_⟩
  rw [verdictErrored]
  refine (queue_append s handled rfl rfl).trans ?_
  unfold RetryQueue.serve
  congr 1
  exact List.append_nil _

variable {texts : ToolTexts} {fix : Fix} {updated : Bool}

theorem truthy_codeSuggestion :
    truthy (attemptResult toolName reports fix updated).codeSuggestion =
      truthy fix.codeSuggestion := by
  unfold attemptResult
  dsimp only
  split
  · rfl
  · rename_i none
    rw [Bool.not_eq_true] at none
    rw [none]
    rfl

theorem processToolReports_of_attempt (s : ToolGuardian) (known : use.definition = some texts)
    (attempted : use.attempt toolName texts reports = .ok (fix, updated)) :
    s.processToolReports use toolName reports =
      if fix.changed texts then s.settle use (attemptResult toolName reports fix updated)
      else s.retry use reports (attemptResult toolName reports fix updated) := by
  unfold processToolReports
  rw [known]
  dsimp only
  rw [attempted]

theorem verdict_of_attempt (known : use.definition = some texts)
    (attempted : use.attempt toolName texts reports = .ok (fix, updated)) :
    verdict use toolName reports = if fix.changed texts then .done else .idle := by
  unfold verdict
  rw [known]
  dsimp only
  rw [attempted]

theorem settle_eq (s : ToolGuardian) (result : FixResult)
    (commits : ∀ store ∈ use.toolStore, Uncancelled store.commit) :
    s.settle use result = ({ s with fixAttempts := s.fixAttempts.erase result.toolName },
      .ok { result with
        fixAttempts := s.attempts result.toolName + 1
        fixVersion := use.committed }) := by
  unfold settle
  rw [AttemptUse.commitFixVersion_eq_ok_iff.mpr ⟨commits, rfl⟩]

/-- A result that is neither an error nor settled. -/
structure FixResult.Fresh (result : FixResult) : Prop where
  retryScheduled : result.retryScheduled = false
  escalated : result.escalated = false
  error : result.error = none

theorem fresh_attemptResult : FixResult.Fresh (attemptResult toolName reports fix updated) :=
  ⟨rfl, rfl, rfl⟩

/-- An effective change ends the reports. -/
theorem queue_settle (s : ToolGuardian) (handled : List Handled) (reports : List ToolIssueReport)
    {count : Nat} {toolId : Option String} (fresh : FixResult.Fresh result)
    (something : (result.descriptionUpdated || truthy result.codeSuggestion ||
      toolId.isSome) = true) :
    ({ s with fixAttempts := s.fixAttempts.erase result.toolName } : ToolGuardian).queue
        (handled ++ [⟨reports, { result with
          fixAttempts := count + 1, fixVersion := toolId }⟩]) =
      (s.queue handled).serve autoFixMaxAttempts result.toolName reports .done := by
  have ending : ({ result with
      fixAttempts := count + 1, fixVersion := toolId } : FixResult).ending = some .done := by
    simp [FixResult.ending, FixResult.changedSomething, fresh.retryScheduled, fresh.escalated,
      fresh.error, something]
  have attempted : ({ result with
      fixAttempts := count + 1, fixVersion := toolId } : FixResult).attempted =
        some ⟨result.toolName, false, false⟩ := by
    simp [FixResult.attempted, FixResult.changedSomething, fresh.escalated, something]
  have ends : (⟨reports, { result with
      fixAttempts := count + 1, fixVersion := toolId }⟩ : Handled).ended =
        reports.map (·, .done) := by
    unfold Handled.ended
    rw [ending]
  rw [queue_append _ handled ends attempted, attempts_erase]
  rfl

theorem ended_settle_of_nothing (reports : List ToolIssueReport) {count : Nat}
    {toolId : Option String} (fresh : FixResult.Fresh result)
    (nothing : (result.descriptionUpdated || truthy result.codeSuggestion ||
      toolId.isSome) = false) :
    (⟨reports, { result with fixAttempts := count, fixVersion := toolId }⟩ : Handled).ended =
      [] := by
  simp [Handled.ended, FixResult.ending, FixResult.changedSomething, fresh.retryScheduled,
    fresh.escalated, fresh.error, nothing]

/-- An attempt that changes nothing gives the reports back, or escalates them. -/
theorem queue_retry (use : AttemptUse) (s : ToolGuardian) (handled : List Handled)
    (reports : List ToolIssueReport) (fresh : FixResult.Fresh result)
    (nothing : result.changedSomething = false) :
    ∃ s' result', s.retry use reports result = (s', .ok result') ∧
      s'.queue (handled ++ [⟨reports, result'⟩]) =
        (s.queue handled).serve autoFixMaxAttempts result.toolName reports .idle := by
  unfold retry
  dsimp only
  generalize counted : unchangedResult result (s.attempts result.toolName + 1) = result'
  have attempts : result'.fixAttempts ≠ 0 := by
    rw [← counted]
    exact Nat.succ_ne_zero _
  have same : result'.toolName = result.toolName ∧ result'.retryScheduled = false ∧
      result'.escalated = false ∧ (result'.descriptionUpdated || truthy result'.codeSuggestion ||
        result'.fixVersion.isSome) = false := by
    rw [← counted]
    exact ⟨rfl, fresh.retryScheduled, fresh.escalated, nothing⟩
  obtain ⟨name, notScheduled, notEscalated, unchanged⟩ := same
  split
  · rename_i reached
    refine ⟨_, _, rfl, ?_⟩
    have ends : (⟨reports, { result' with
        escalated := true, approvalRecordId := use.approvalRecordId }⟩ : Handled).ended =
          reports.map (·, .givenUp) := by
      simp [Handled.ended, FixResult.ending, notScheduled]
    have attempted : ({ result' with
        escalated := true, approvalRecordId := use.approvalRecordId } : FixResult).attempted =
          some ⟨result.toolName, true, true⟩ := by
      simp [FixResult.attempted, FixResult.changedSomething, attempts, name, unchanged]
    rw [queue_append _ handled ends attempted, attempts_erase]
    exact (RetryQueue.serve_of_limit_le (s := s.queue handled) reached).symm
  · rename_i under
    refine ⟨_, _, rfl, ?_⟩
    have ends : (⟨reports, { result' with retryScheduled := true }⟩ : Handled).ended = [] := by
      simp [Handled.ended, FixResult.ending]
    have attempted : ({ result' with retryScheduled := true } : FixResult).attempted =
        some ⟨result.toolName, true, false⟩ := by
      simp [FixResult.attempted, FixResult.changedSomething, attempts, name, notEscalated,
        unchanged]
    rw [queue_append _ handled ends attempted, attempts_assign, List.append_nil]
    exact (RetryQueue.serve_of_not_limit_le (s := s.queue handled) under).symm

/-- As long as nothing raises and every change is one, the work on the reports of a tool is that
of the queue. -/
theorem serves_of_meets (s : ToolGuardian) (handled : List Handled)
    (meets : use.Meets toolName reports) :
    ∃ s' result, Serves s handled use toolName reports s' result := by
  cases known : use.definition with
  | none =>
      obtain ⟨result, serves⟩ := serves_of_unknown s handled toolName reports known
      exact ⟨s, result, serves⟩
  | some texts =>
      obtain ⟨ready, fix, offers, bears, effective⟩ := meets texts known
      have attempted := bears.attempt_eq_ok ready offers
      have processed := processToolReports_of_attempt s known attempted
      have verdictIs := verdict_of_attempt known attempted
      cases changed : fix.changed texts with
      | true =>
          rw [changed, if_pos rfl, settle_eq s _ (bears.commits changed)] at processed
          rw [changed, if_pos rfl] at verdictIs
          refine ⟨_, _, processed, ?_⟩
          rw [verdictIs]
          refine queue_settle s handled reports fresh_attemptResult ?_
          rw [truthy_codeSuggestion, Bool.or_eq_true, Bool.or_eq_true, or_assoc]
          exact effective changed
      | false =>
          rw [changed] at processed verdictIs
          have unchanged := changed
          unfold Fix.changed at unchanged
          simp only [Bool.or_eq_false_iff] at unchanged
          have nothing : (attemptResult toolName reports fix
              (use.updates texts fix)).changedSomething = false := by
            unfold FixResult.changedSomething
            rw [truthy_codeSuggestion, unchanged.2]
            change (use.updates texts fix || false || false) = false
            unfold AttemptUse.updates
            rw [unchanged.1.1]
            rfl
          obtain ⟨s', result, retried, serves⟩ :=
            queue_retry use s handled reports fresh_attemptResult nothing
          refine ⟨s', result, processed.trans retried, ?_⟩
          rw [verdictIs]
          exact serves

/-- Otherwise a result has not queued its reports again, nor do they end. -/
theorem ended_of_not_meets
    (processed : s.processToolReports use toolName reports = (s', .ok result))
    (fails : ¬use.Meets toolName reports) :
    s'.pendingReports = s.pendingReports ∧ Handled.ended ⟨reports, result⟩ = [] := by
  cases known : use.definition with
  | none => exact absurd (fun texts found => by rw [known] at found; cases found) fails
  | some texts =>
      cases attempted : use.attempt toolName texts reports with
      | error fault =>
          unfold processToolReports at processed
          rw [known] at processed
          dsimp only at processed
          rw [attempted] at processed
          cases processed
      | ok made =>
          obtain ⟨fix, updated⟩ := made
          rw [processToolReports_of_attempt s known attempted] at processed
          obtain ⟨ready, offers, ⟨takes, rfl⟩, persists⟩ :=
            AttemptUse.attempt_eq_ok_iff.mp attempted
          have failsHere (bears : use.Bears texts fix) : ¬use.Effective texts fix := by
            intro effective
            refine fails fun other found => ?_
            rw [known] at found
            cases found
            exact ⟨ready, fix, offers, bears, effective⟩
          cases changed : fix.changed texts with
          | false =>
              have unchanged : fix.changed texts ≠ true := by simp [changed]
              exact absurd (fun isChange => absurd isChange unchanged)
                (failsHere ⟨takes, persists, fun isChange => absurd isChange unchanged⟩)
          | true =>
              rw [changed, if_pos rfl] at processed
              have commits : ∀ store ∈ use.toolStore, Uncancelled store.commit := by
                cases committed : use.commitFixVersion with
                | error fault =>
                    unfold settle at processed
                    rw [committed] at processed
                    cases processed
                | ok toolId => exact (AttemptUse.commitFixVersion_eq_ok_iff.mp committed).1
              have ineffective := failsHere ⟨takes, persists, fun _ => commits⟩
              rw [settle_eq s _ commits] at processed
              have nothing : (use.updates texts fix || truthy (attemptResult toolName reports fix
                  (use.updates texts fix)).codeSuggestion || use.committed.isSome) = false := by
                rw [truthy_codeSuggestion]
                by_contra something
                rw [Bool.not_eq_false, Bool.or_eq_true, Bool.or_eq_true, or_assoc] at something
                exact ineffective fun _ => something
              cases processed
              exact ⟨rfl, ended_settle_of_nothing reports fresh_attemptResult nothing⟩

/-- The reports of one tool are counted again after the work on them, or have got lost. -/
theorem processed_counts
    (processed : s.processToolReports use toolName reports = (s', .ok result)) :
    use.Meets toolName reports ∧ s'.pendingReports.length +
        (Handled.ended ⟨reports, result⟩).length = s.pendingReports.length + reports.length ∨
      s'.pendingReports.length + (Handled.ended ⟨reports, result⟩).length =
        s.pendingReports.length := by
  by_cases meets : use.Meets toolName reports
  · refine .inl ⟨meets, ?_⟩
    obtain ⟨after, found, same, serves⟩ := serves_of_meets s [] meets
    rw [processed] at same
    cases same
    have kept := RetryQueue.perm_serve autoFixMaxAttempts (s.queue []) toolName reports
      (verdict use toolName reports)
    rw [← serves] at kept
    simpa [queue] using kept.length_eq
  · obtain ⟨same, lost⟩ := ended_of_not_meets processed meets
    refine .inr ?_
    rw [same, lost, List.length_nil, Nat.add_zero]

/-- The work on the tools of a batch is that of the queue. -/
theorem processTools_serves (s : ToolGuardian) (handled : List Handled)
    {use : String → AttemptUse} {groups : OrderedDict String (List ToolIssueReport)}
    (meets : ∀ group ∈ groups, (use group.1).Meets group.1 group.2) :
    ∃ s' done, processTools use s groups = (s', done, .ok ()) ∧
      s'.queue (handled ++ done) = (s.queue handled).serveAll autoFixMaxAttempts
        (fun toolName reports => verdict (use toolName) toolName reports) groups := by
  induction groups generalizing s handled with
  | nil => exact ⟨s, [], rfl, by rw [List.append_nil]; rfl⟩
  | cons group rest ih =>
      obtain ⟨toolName, reports⟩ := group
      obtain ⟨here, later⟩ := List.forall_mem_cons.mp meets
      obtain ⟨middle, result, processed, serves⟩ := serves_of_meets s handled here
      obtain ⟨s', done, others, all⟩ := ih middle (handled ++ [⟨reports, result⟩]) later
      refine ⟨s', ⟨reports, result⟩ :: done, ?_, ?_⟩
      · unfold processTools
        rw [processed]
        dsimp only
        rw [others]
      · rw [List.append_assoc, List.singleton_append] at all
        rw [all, serves]
        rfl

/-- What is worked on is counted again exactly if nothing raises and every change is one. -/
theorem processTools_counts {use : String → AttemptUse}
    {groups : OrderedDict String (List ToolIssueReport)}
    (nonempty : ∀ group ∈ groups, group.2 ≠ [])
    (processed : processTools use s groups = (s', handled, .ok ())) :
    s'.pendingReports.length + (handled.flatMap Handled.ended).length ≤
        s.pendingReports.length + (groups.flatMap Prod.snd).length ∧
      (s.pendingReports.length + (groups.flatMap Prod.snd).length ≤
          s'.pendingReports.length + (handled.flatMap Handled.ended).length →
        ∀ group ∈ groups, (use group.1).Meets group.1 group.2) := by
  induction groups generalizing s s' handled with
  | nil =>
      cases processed
      exact ⟨le_rfl, fun _ => nofun⟩
  | cons group rest ih =>
      obtain ⟨toolName, reports⟩ := group
      obtain ⟨some, nonempty⟩ := List.forall_mem_cons.mp nonempty
      unfold processTools at processed
      cases first : s.processToolReports (use toolName) toolName reports with
      | mk middle outcome =>
          rw [first] at processed
          cases outcome with
          | error fault => cases processed
          | ok result =>
              cases others : processTools use middle rest with
              | mk final remainder =>
                  obtain ⟨done, ending⟩ := remainder
                  dsimp only at processed
                  rw [others] at processed
                  cases processed
                  obtain ⟨atMost, all⟩ := ih nonempty others
                  have positive : 0 < reports.length := List.length_pos_of_ne_nil some
                  simp only [List.flatMap_cons, List.length_append]
                  rcases processed_counts first with ⟨meets, counted⟩ | lost
                  · refine ⟨by omega, fun enough => ?_⟩
                    exact List.forall_mem_cons.mpr ⟨meets, all (by omega)⟩
                  · refine ⟨by omega, fun enough => ?_⟩
                    omega

/-- A call as a round of the queue. -/
def Call.round (call : Call) : RetryQueue.Round String ToolIssueReport where
  size := call.batchSize
  pos := call.pos
  verdict := fun toolName reports => verdict (call.use toolName) toolName reports

end ToolGuardian

/-! ## Calls one after another -/

/-- A guardian, and the reports that it has worked on. -/
structure GuardianLog where
  guardian : ToolGuardian
  handled : List ToolGuardian.Handled := []

namespace GuardianLog

variable {s : GuardianLog} {call : ToolGuardian.Call} {reports : List ToolIssueReport}

def step (s : GuardianLog) (call : ToolGuardian.Call) : GuardianLog where
  guardian := (s.guardian.processReports call).1
  handled := s.handled ++ (s.guardian.processReports call).2.1

/-- A guardian that has got reports. -/
def start (reports : List ToolIssueReport) : GuardianLog where
  guardian := { pendingReports := reports }

def queue (s : GuardianLog) : RetryQueue String ToolIssueReport := s.guardian.queue s.handled

/-- The call raises nothing. -/
def Returns (s : GuardianLog) (call : ToolGuardian.Call) : Prop :=
  (s.guardian.processReports call).2.2 = .ok ()

/-- At no tool of the batch anything raises, and every fix that counts as a change is one. -/
def Meets (s : GuardianLog) (call : ToolGuardian.Call) : Prop :=
  ∀ group ∈ s.guardian.batch call, (call.use group.1).Meets group.1 group.2

/-- No call raises; every report is pending or has ended, once; a tool is escalated at the attempt
that is its last in a row without a change; and nothing is pending after as many calls as
there are attempts for each report. -/
structure Settles (reports : List ToolIssueReport) (calls : List ToolGuardian.Call) : Prop where
  returns : StepsMeet step Returns (start reports) calls
  conserves : Throughout step (fun s => s.queue.Conserves reports) (start reports) calls
  escalates : Throughout step
    (fun s => RetryQueue.GivesUpAtLimit autoFixMaxAttempts s.queue.attempts) (start reports) calls
  empties : autoFixMaxAttempts * reports.length ≤ calls.length →
    (run step (start reports) calls).guardian.pendingReports = []

/-- A call that meets the condition is a round of the queue. -/
theorem step_of_meets (meets : Meets s call) : Returns s call ∧
    (step s call).queue =
      s.queue.round ToolIssueReport.toolName autoFixMaxAttempts call.round := by
  obtain ⟨after, done, processed, serves⟩ := ToolGuardian.processTools_serves
    { s.guardian with pendingReports := s.guardian.pendingReports.drop call.batchSize } s.handled
    meets
  have called : s.guardian.processReports call = (after, done, .ok ()) := processed
  constructor
  · unfold Returns
    rw [called]
  · unfold queue step
    rw [called]
    exact serves

/-- A call that returns and after which the reports are conserved meets the condition. -/
theorem meets_of_conserves (before : s.queue.Conserves reports) (returns : Returns s call)
    (after : (step s call).queue.Conserves reports) : Meets s call := by
  have grouped := grouped_groupBy ToolIssueReport.toolName
    (s.guardian.pendingReports.take call.batchSize)
  unfold Returns at returns
  unfold step at after
  cases called : s.guardian.processReports call with
  | mk guardian remainder =>
      obtain ⟨done, ending⟩ := remainder
      rw [called] at returns after
      dsimp only at returns
      subst returns
      refine (ToolGuardian.processTools_counts grouped.nonempty called).2 ?_
      have taken : (s.guardian.pendingReports.drop call.batchSize).length +
          ((groupBy ToolIssueReport.toolName
            (s.guardian.pendingReports.take call.batchSize)).flatMap Prod.snd).length =
          s.guardian.pendingReports.length := by
        rw [grouped.perm.length_eq, List.length_drop, List.length_take]
        omega
      have sameBefore := before.length_eq
      have sameAfter := after.length_eq
      simp only [queue, ToolGuardian.queue, List.length_append, List.length_map,
        List.flatMap_append] at sameBefore sameAfter
      dsimp only
      omega

theorem conserves_and_returns_iff (before : s.queue.Conserves reports) :
    (step s call).queue.Conserves reports ∧ Returns s call ↔ Meets s call := by
  constructor
  · rintro ⟨after, returns⟩
    exact meets_of_conserves before returns after
  · intro meets
    obtain ⟨returns, isRound⟩ := step_of_meets meets
    rw [isRound]
    exact ⟨RetryQueue.conserves_round before call.round, returns⟩

theorem run_of_meets {calls : List ToolGuardian.Call} (meets : StepsMeet step Meets s calls) :
    (run step s calls).queue = run (RetryQueue.round ToolIssueReport.toolName autoFixMaxAttempts)
      s.queue (calls.map ToolGuardian.Call.round) := by
  induction calls generalizing s with
  | nil => rfl
  | cons call rest ih =>
      rw [run_cons, List.map_cons, run_cons, ← (step_of_meets meets.1).2]
      exact ih meets.2

theorem queue_start (reports : List ToolIssueReport) :
    (start reports).queue = RetryQueue.start reports := rfl

/-- In a run of calls the reports are settled if and only if every call meets the condition. -/
theorem settles_iff (reports : List ToolIssueReport) (calls : List ToolGuardian.Call) :
    Settles reports calls ↔ StepsMeet step Meets (start reports) calls := by
  have pos : 0 < autoFixMaxAttempts := by decide
  have conserved : (start reports).queue.Conserves reports := RetryQueue.conserves_start reports
  have settled : Throughout step (fun s => s.queue.Conserves reports) (start reports) calls ∧
      StepsMeet step Returns (start reports) calls ↔ StepsMeet step Meets (start reports) calls :=
    throughout_and_stepsMeet_iff (fun _ => True)
      (fun s : GuardianLog => s.queue.Conserves reports) (fun _ _ _ => trivial)
      (fun _ _ _ before => conserves_and_returns_iff before) trivial conserved calls
  constructor
  · intro settles
    exact settled.mp ⟨settles.conserves, settles.returns⟩
  · intro meets
    obtain ⟨conserves, returns⟩ := settled.mpr meets
    have accounts : Throughout step (fun s => s.queue.Accounts autoFixMaxAttempts)
        (start reports) calls := by
      refine throughout_of_stepsMeet _ (fun s call accounts meets => ?_)
        (RetryQueue.accounts_start autoFixMaxAttempts reports) meets
      rw [(step_of_meets meets).2]
      exact RetryQueue.accounts_round accounts pos call.round
    refine ⟨returns, conserves, fun count => (accounts count).givesUp, fun enough => ?_⟩
    change (run step (start reports) calls).queue.pending = []
    rw [run_of_meets meets, queue_start]
    refine (RetryQueue.run_start ToolIssueReport.toolName pos reports _).2.2 ?_
    rw [List.length_map]
    exact enough

/-! ## A reply with a number in it -/

/-- A call in which the LLM replies an object with a number for the parameters. -/
def numberReplied : ToolGuardian.Call where
  batchSize := 10
  pos := by decide
  use := fun _ =>
    { definition := some ⟨.str "d", [("p", .str "")]⟩
      updater := .localFunction ⟨.str "d", [("p", .str "")]⟩
      llm := some (.ok (some (.dict
        [("new_description", .str "x"), ("param_updates", .int 5)]))) }

/-- The update raises, and the report is lost. -/
theorem number_loses_report :
    ¬Settles [{ toolName := "t", issueType := .other }] [numberReplied] := by
  intro settles
  have returns := settles.returns.1
  have raised : ((start [{ toolName := "t", issueType := .other }]).guardian.processReports
      numberReplied).2.2 = .error typeError := by
    rfl
  unfold Returns at returns
  rw [raised] at returns
  cases returns

end GuardianLog

end YouMi.Coordinator
